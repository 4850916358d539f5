/-!
# Machine words

Lengths and places are kept in words of 64 bits. An operation on words has an
answer only if the number it stands for is a word again: no answer wraps, and
nothing is divided by zero. Operands may themselves be answers, so a formula has
an answer only if each of its operations has one.
-/

namespace TrackImage.Word

def add (first second : Option UInt64) : Option UInt64 := do
  let first ← first
  let second ← second
  if first.toNat + second.toNat < UInt64.size then some (first + second) else none

def sub (first second : Option UInt64) : Option UInt64 := do
  let first ← first
  let second ← second
  if second ≤ first then some (first - second) else none

def mul (first second : Option UInt64) : Option UInt64 := do
  let first ← first
  let second ← second
  if first.toNat * second.toNat < UInt64.size then some (first * second) else none

def div (first second : Option UInt64) : Option UInt64 := do
  let first ← first
  let second ← second
  if second = 0 then none else some (first / second)

def mod (first second : Option UInt64) : Option UInt64 := do
  let first ← first
  let second ← second
  if second = 0 then none else some (first % second)

/-- The answer is there, and it is the word for the number. -/
def Exact (word : Option UInt64) (number : Nat) : Prop :=
  word.map UInt64.toNat = some number

theorem exact_iff {word : Option UInt64} {number : Nat} :
    Exact word number ↔ ∃ value, word = some value ∧ value.toNat = number :=
  Option.map_eq_some_iff

theorem exact_some (value : UInt64) : Exact (some value) value.toNat :=
  rfl

/-- A number below `2 ^ 64` has a word. -/
theorem exists_exact {number : Nat} (fits : number < UInt64.size) :
    ∃ value : UInt64, value.toNat = number :=
  ⟨UInt64.ofNat number, UInt64.toNat_ofNat_of_lt' fits⟩

theorem toNat_min (first second : UInt64) :
    (min first second).toNat = min first.toNat second.toNat := by
  change (if first ≤ second then first else second).toNat =
    if first.toNat ≤ second.toNat then first.toNat else second.toNat
  simp only [UInt64.le_iff_toNat_le]
  split <;> rfl

namespace Exact

variable {first second : Option UInt64} {left right : Nat}

theorem add (former : Exact first left) (latter : Exact second right)
    (fits : left + right < UInt64.size) : Exact (Word.add first second) (left + right) := by
  obtain ⟨first, rfl, rfl⟩ := exact_iff.mp former
  obtain ⟨second, rfl, rfl⟩ := exact_iff.mp latter
  have sum : (first + second).toNat = first.toNat + second.toNat := by
    rw [UInt64.toNat_add]
    exact Nat.mod_eq_of_lt fits
  simp [Exact, Word.add, fits, sum]

theorem sub (former : Exact first left) (latter : Exact second right) (ordered : right ≤ left) :
    Exact (Word.sub first second) (left - right) := by
  obtain ⟨first, rfl, rfl⟩ := exact_iff.mp former
  obtain ⟨second, rfl, rfl⟩ := exact_iff.mp latter
  have below : second ≤ first := UInt64.le_iff_toNat_le.mpr ordered
  simp [Exact, Word.sub, below, UInt64.toNat_sub_of_le _ _ below]

theorem mul (former : Exact first left) (latter : Exact second right)
    (fits : left * right < UInt64.size) : Exact (Word.mul first second) (left * right) := by
  obtain ⟨first, rfl, rfl⟩ := exact_iff.mp former
  obtain ⟨second, rfl, rfl⟩ := exact_iff.mp latter
  have product : (first * second).toNat = first.toNat * second.toNat := by
    rw [UInt64.toNat_mul]
    exact Nat.mod_eq_of_lt fits
  simp [Exact, Word.mul, fits, product]

theorem div (former : Exact first left) (latter : Exact second right) (positive : 0 < right) :
    Exact (Word.div first second) (left / right) := by
  obtain ⟨first, rfl, rfl⟩ := exact_iff.mp former
  obtain ⟨second, rfl, rfl⟩ := exact_iff.mp latter
  have divides : second ≠ 0 := by
    rintro rfl
    exact Nat.lt_irrefl 0 positive
  simp [Exact, Word.div, divides]

theorem mod (former : Exact first left) (latter : Exact second right) (positive : 0 < right) :
    Exact (Word.mod first second) (left % right) := by
  obtain ⟨first, rfl, rfl⟩ := exact_iff.mp former
  obtain ⟨second, rfl, rfl⟩ := exact_iff.mp latter
  have divides : second ≠ 0 := by
    rintro rfl
    exact Nat.lt_irrefl 0 positive
  simp [Exact, Word.mod, divides]

end Exact

end TrackImage.Word
