import TrackImage.IoError

/-!
# Scripted faults

A device can be given a script of calls that go wrong, numbered from zero
over the device's life. Each call looks its own number up; the first entry
with that number counts. The entries at or after a call number bound how
often calls from there on can go wrong.
-/

namespace TrackImage.Device

/-- How a read or a write goes wrong: it moves nothing, or it fails. -/
inductive Lapse
  | nothing
  | fails (error : IoError)
  deriving DecidableEq, Repr

structure Fault (α : Type) where
  call : Nat
  effect : α
  deriving DecidableEq, Repr

namespace Fault

variable {α : Type}

def at? (faults : List (Fault α)) (call : Nat) : Option α :=
  (faults.find? fun fault => fault.call == call).map Fault.effect

@[simp] theorem at?_nil (call : Nat) : at? ([] : List (Fault α)) call = none :=
  rfl

/-- Entries that a call with this number or a later one can still meet. -/
def ahead (faults : List (Fault α)) (call : Nat) : Nat :=
  faults.countP fun fault => call ≤ fault.call

theorem ahead_le_length (faults : List (Fault α)) (call : Nat) :
    ahead faults call ≤ faults.length :=
  List.countP_le_length

theorem ahead_succ_le (faults : List (Fault α)) (call : Nat) :
    ahead faults (call + 1) ≤ ahead faults call := by
  apply List.countP_mono_left
  intro fault _ later
  simp only [decide_eq_true_eq] at later ⊢
  omega

/-- A call that goes wrong uses an entry up. -/
theorem ahead_succ_lt {faults : List (Fault α)} {call : Nat} {effect : α}
    (found : at? faults call = some effect) : ahead faults (call + 1) < ahead faults call := by
  induction faults with
  | nil => simp at found
  | cons fault rest ih =>
      have tail := ahead_succ_le rest call
      simp only [ahead, List.countP_cons] at tail ih ⊢
      by_cases here : fault.call = call
      · simp only [here, Nat.le_refl, decide_true, if_true]
        split
        · next later => simp only [decide_eq_true_eq] at later; omega
        · omega
      · have further : at? rest call = some effect := by
          simpa [at?, List.find?_cons, here] using found
        have less := ih further
        have same : call + 1 ≤ fault.call ↔ call ≤ fault.call := by omega
        simp only [same]
        omega

end Fault

end TrackImage.Device
