import TrackImage.Proofs.Table.Settling
import TrackImage.Proofs.Table.Stepping
import TrackImage.Word

/-!
# Window arithmetic in words

The position of a window reader never passes the measured length, whatever its
steps answer. So the next window ends inside the input, and the words that its
length and its end are computed with are exact, up to the longest input there is.
-/

namespace TrackImage.Table

open Word

/-! ## Windows in words -/

namespace Window

/-- One window for every 256 bytes, and one more for what they leave. -/
def wordCount (length : UInt64) : Option UInt64 :=
  Word.add (Word.div length (some 256)) (some (if length % 256 = 0 then 0 else 1))

/-- The length of the window at a position. -/
def wordLength (length position : UInt64) : Option UInt64 :=
  (Word.sub length position).map (min 256)

/-- Where the window at a position ends. -/
def wordEnd (length position : UInt64) : Option UInt64 :=
  Word.add position (wordLength length position)

/-- Counting windows by a quotient cannot wrap, as rounding the length up could. -/
theorem exact_wordCount (length : UInt64) : Exact (wordCount length) (countIn length.toNat) := by
  have whole : Exact (Word.div length (some 256)) (length.toNat / 256) :=
    (exact_some length).div (exact_some 256) (by decide)
  have short : (length.toNat) < UInt64.size := length.toNat_lt_size
  have rest : length % 256 = 0 ↔ length.toNat % 256 = 0 := by
    rw [← UInt64.toNat_inj]
    rfl
  have rounded : countIn length.toNat =
      length.toNat / 256 + (if length % 256 = 0 then (0 : UInt64) else 1).toNat := by
    simp only [countIn, fullLength, rest]
    split
    · change _ = _ + 0
      omega
    · change _ = _ + 1
      omega
  have bounded : countIn length.toNat < UInt64.size := by
    simp only [countIn, fullLength]
    omega
  rw [rounded] at bounded ⊢
  exact whole.add (exact_some _) bounded

/-- Inside an input the length of the next window and its end are words. -/
theorem exact_wordEnd {length position : UInt64} (inside : position ≤ length) :
    Exact (wordLength length position) (min fullLength (length.toNat - position.toNat)) ∧
      Exact (wordEnd length position)
        (position.toNat + min fullLength (length.toNat - position.toNat)) := by
  have ordered : position.toNat ≤ length.toNat := UInt64.le_iff_toNat_le.mp inside
  have short : Exact (wordLength length position)
      (min fullLength (length.toNat - position.toNat)) := by
    obtain ⟨left, same, number⟩ :=
      exact_iff.mp ((exact_some length).sub (exact_some position) ordered)
    rw [wordLength, same, ← number]
    exact congrArg some (toNat_min 256 left)
  refine ⟨short, (exact_some position).add short ?_⟩
  have top := length.toNat_lt_size
  omega

end Window

namespace WindowReader

variable {σ : Type} [ByteSource σ]

theorem position_of_start {source : σ} {reader : WindowReader σ}
    (started : (start source).1 = .ok reader) : reader.position = 0 := by
  unfold start at started
  split at started
  · cases started
  · cases started
    rfl

omit [ByteSource σ] in
/-- A window that is there ends inside the input. -/
theorem position_add_nextLength_le {reader : WindowReader σ}
    (inside : reader.position ≤ reader.length) :
    reader.position + reader.nextLength ≤ reader.length := by
  rw [nextLength]
  omega

theorem position_next_le {reader : WindowReader σ} (inside : reader.position ≤ reader.length) :
    reader.next.reader.position ≤ reader.next.reader.length := by
  have step := ends_next reader
  generalize reader.next = after at step ⊢
  cases step with
  | done | failed => exact inside
  | read => exact position_add_nextLength_le inside

/-- The position of a reader that began inside its input stays there. -/
theorem position_stepped_le {reader : WindowReader σ} (inside : reader.position ≤ reader.length)
    (steps : Nat) : (reader.stepped steps).position ≤ (reader.stepped steps).length := by
  induction steps with
  | zero => exact inside
  | succ steps ih => exact position_next_le ih

/-- A reader's next step stays inside the input and in words. -/
structure Inside (reader : WindowReader σ) : Prop where
  position_le : reader.position ≤ reader.length
  end_le : reader.position + reader.nextLength ≤ reader.length
  exact_step : ∃ length position : UInt64,
    length.toNat = reader.length ∧ position.toNat = reader.position ∧
      Exact (Window.wordLength length position) reader.nextLength ∧
      Exact (Window.wordEnd length position) (reader.position + reader.nextLength)
  cut : ∀ offset expected got,
    reader.next.result = .error (.shortRead offset expected got) →
      got < expected ∧ offset + expected ≤ reader.length

/-- A window that is cut short was to end inside the input. -/
theorem shortRead_inside {reader : WindowReader σ} (inside : reader.position ≤ reader.length)
    {offset expected got : Nat}
    (cut : reader.next.result = .error (.shortRead offset expected got)) :
    got < expected ∧ offset + expected ≤ reader.length := by
  have step := ends_next reader
  generalize reader.next = after at step cut
  cases step with
  | done | read => cases cut
  | failed _ missed =>
      cases cut
      obtain ⟨rfl, rfl, short⟩ := fill_answer_eq_shortRead missed
      exact ⟨short, position_add_nextLength_le inside⟩

theorem inside_of_position_le {reader : WindowReader σ}
    (inside : reader.position ≤ reader.length) (fits : reader.length < UInt64.size) :
    reader.Inside where
  position_le := inside
  end_le := position_add_nextLength_le inside
  exact_step := by
    obtain ⟨length, measured⟩ := exists_exact fits
    obtain ⟨position, placed⟩ := exists_exact (Nat.lt_of_le_of_lt inside fits)
    have ordered : position ≤ length := by
      rwa [UInt64.le_iff_toNat_le, measured, placed]
    refine ⟨length, position, measured, placed, ?_⟩
    rw [nextLength, ← measured, ← placed]
    exact Window.exact_wordEnd ordered
  cut _ _ _ failed := shortRead_inside inside failed

end WindowReader

namespace Scan

variable {σ τ : Type} [ByteSource σ] [ByteSink τ]

/-- A pass settles no more windows than its reader has left, however it ends. -/
theorem size_verdicts_run_le (pass : Scan σ τ) :
    pass.run.2.verdicts.size ≤ pass.verdicts.size + pass.reader.left := by
  obtain ⟨count, last, goes, stops⟩ := unrolls.exists_stops pass
  have counted : last.verdicts.size + last.reader.left = pass.verdicts.size + pass.reader.left := by
    refine goes.unchanged (fun state => state.verdicts.size + state.reader.left) ?_
    intro state next step
    have fewer := left_of_advance step
    obtain ⟨offset, window, sink, -, -, rfl⟩ := advance_eq_true step
    simp only [settled, Array.size_push] at fewer ⊢
    omega
  have before : last.verdicts.size ≤ pass.verdicts.size + pass.reader.left :=
    counted ▸ Nat.le_add_right _ _
  generalize pass.run = run at stops ⊢
  cases stops with
  | reading | writing | flushing | done => exact before

end Scan

end TrackImage.Table
