import TrackImage.Table.Verdict

/-!
# Occurrences of tags

Where the tags of an input are, said without running over it: a tag occurs at
a window that offers one, is not the first, and follows a window of zeros. The
findings of an input are the occurrences in order.
-/

namespace TrackImage.Table

/-- The bytes of the input's window of an index; past the length there is nothing. -/
def windowBytes (input : List UInt8) (length index : Nat) : List UInt8 :=
  (input.take length).extract (Window.fullLength * index) (Window.fullLength * (index + 1))

/-- Every byte of the window of an index is zero. -/
def ZeroWindow (input : List UInt8) (length index : Nat) : Prop :=
  ∀ byte ∈ windowBytes input length index, byte = 0

instance (input : List UInt8) (length index : Nat) : Decidable (ZeroWindow input length index) :=
  inferInstanceAs (Decidable (∀ byte ∈ windowBytes input length index, byte = 0))

/-- The printable tag at the front of some bytes. -/
def printableFront? (bytes : List UInt8) : Option Tag :=
  match bytes with
  | first :: second :: third :: fourth :: _ =>
      let tag : Tag := ⟨first, second, third, fourth⟩
      if tag.printable then some tag else none
  | _ => none

/-- The tag that occurs at the window of an index. -/
def occurrence? (input : List UInt8) (length : Nat) : Nat → Option Finding
  | 0 => none
  | index + 1 =>
      if ZeroWindow input length index then
        (printableFront? (windowBytes input length (index + 1))).map fun tag =>
          ⟨Window.fullLength * (index + 1), tag⟩
      else none

/-- All occurrences, in input order. -/
def findings (input : List UInt8) (length : Nat) : List Finding :=
  (List.range (Window.countIn length)).filterMap (occurrence? input length)

/-- The lines of findings one after the other. -/
def lines (findings : List Finding) : List UInt8 :=
  findings.flatMap Finding.lineBytes

theorem printableTag?_eq (window : Window) :
    window.printableTag? = printableFront? window.bytes := by
  simp only [Window.printableTag?, Window.tag?, Tag.length]
  unfold printableFront?
  split
  · next first second third fourth rest same =>
      rw [same]
      simp [Tag.ofList?, Option.filter_some]
  · next short =>
      have none : Tag.ofList? (window.bytes.take 4) = none := by
        unfold Tag.ofList?
        split
        · next first second third fourth same =>
            have split := List.take_append_drop 4 window.bytes
            rw [same] at split
            exact absurd split.symm (short first second third fourth _)
        · rfl
      rw [none]
      rfl

end TrackImage.Table
