import TrackImage.Event
import TrackImage.Proofs.Table.ReadBack

/-!
# Messages that name findings

Between quotes a quote or a backslash is marked by a backslash, so the first
quote without a mark ends a quotation, whatever the tag is. What follows is a
numeral. Hence the message about a finding says which one it is.
-/

namespace TrackImage

namespace Hex

theorem digits_injective : Function.Injective digits := by
  intro first second same
  have value := valueFrom?_digits first
  rw [same, valueFrom?_digits] at value
  exact (Option.some.inj value).symm

end Hex

namespace Table.Tag

theorem chars_injective : Function.Injective chars := by
  intro first second same
  have tag := Listing.tag?_chars first
  rw [same, Listing.tag?_chars] at tag
  exact (Option.some.inj tag).symm

/-! ## Quotations -/

/-- A character as it stands between quotes. -/
def marked (char : Char) : List Char :=
  if char = '"' ∨ char = '\\' then ['\\', char] else [char]

theorem toList_quoted (tag : Tag) :
    tag.quoted.toList = '"' :: (tag.chars.flatMap marked ++ ['"']) :=
  String.toList_ofList

theorem marked_of_special {char : Char} (special : char = '"' ∨ char = '\\') :
    marked char = ['\\', char] :=
  if_pos special

theorem marked_of_plain {char : Char} (plain : ¬ (char = '"' ∨ char = '\\')) :
    marked char = [char] :=
  if_neg plain

/-- No marked character begins like the quote at the end. -/
theorem marked_append_ne_quote (char : Char) (rest after : List Char) :
    marked char ++ rest ≠ '"' :: after := by
  intro same
  by_cases special : char = '"' ∨ char = '\\'
  · rw [marked_of_special special] at same
    exact absurd (List.cons.inj same).1 (by decide)
  · rw [marked_of_plain special] at same
    exact special (.inl (List.cons.inj same).1)

/-- What is between quotes is read character by character. -/
theorem marked_append_inj {first second : Char} {rest after : List Char}
    (same : marked first ++ rest = marked second ++ after) : first = second ∧ rest = after := by
  by_cases special : first = '"' ∨ first = '\\'
  · rw [marked_of_special special] at same
    by_cases other : second = '"' ∨ second = '\\'
    · rw [marked_of_special other] at same
      exact List.cons.inj (List.cons.inj same).2
    · rw [marked_of_plain other] at same
      exact absurd (.inr (List.cons.inj same).1.symm) other
  · rw [marked_of_plain special] at same
    by_cases other : second = '"' ∨ second = '\\'
    · rw [marked_of_special other] at same
      exact absurd (.inr (List.cons.inj same).1) special
    · rw [marked_of_plain other] at same
      exact List.cons.inj same

/-- The first quote that is not marked ends a quotation. -/
theorem quotation_inj {first second rest after : List Char}
    (same : first.flatMap marked ++ '"' :: rest = second.flatMap marked ++ '"' :: after) :
    first = second ∧ rest = after := by
  induction first generalizing second with
  | nil =>
      cases second with
      | nil => exact ⟨rfl, (List.cons.inj same).2⟩
      | cons char second =>
          rw [List.flatMap_cons, List.append_assoc] at same
          exact absurd same.symm (marked_append_ne_quote _ _ _)
  | cons char first ih =>
      cases second with
      | nil =>
          rw [List.flatMap_cons, List.append_assoc] at same
          exact absurd same (marked_append_ne_quote _ _ _)
      | cons other second =>
          rw [List.flatMap_cons, List.flatMap_cons, List.append_assoc, List.append_assoc] at same
          obtain ⟨rfl, further⟩ := marked_append_inj same
          obtain ⟨rfl, behind⟩ := ih further
          exact ⟨rfl, behind⟩

end Table.Tag

namespace Event

open Table

/-! ## Messages -/

theorem message_tagFound (finding : Finding) :
    (tagFound finding).message =
      "Found table " ++ finding.tag.quoted ++ " at " ++ Hex.marked finding.offset :=
  rfl

theorem toList_message_tagFound (finding : Finding) :
    (tagFound finding).message.toList = "Found table ".toList ++
      '"' :: (finding.tag.chars.flatMap Tag.marked ++
        '"' :: (" at ".toList ++ ("0x".toList ++ Hex.digits finding.offset))) := by
  rw [message_tagFound, Hex.marked]
  simp only [String.toList_append, String.toList_ofList, Tag.toList_quoted, List.append_assoc,
    List.cons_append, List.nil_append]

/-- The message about a finding says which tag was found, and where. -/
theorem message_tagFound_injective :
    Function.Injective fun finding => (tagFound finding).message := by
  intro first second same
  have texts : (tagFound first).message.toList = (tagFound second).message.toList :=
    congrArg String.toList same
  rw [toList_message_tagFound, toList_message_tagFound] at texts
  obtain ⟨chars, behind⟩ :=
    Tag.quotation_inj (List.cons.inj (List.append_cancel_left texts)).2
  have digits := List.append_cancel_left (List.append_cancel_left behind)
  obtain ⟨offset, tag⟩ := first
  cases Tag.chars_injective chars
  cases Hex.digits_injective digits
  rfl

example : (tagFound ⟨0x100, ⟨0x22, 0x20, 0x61, 0x5C⟩⟩).message =
    "Found table \"\\\" a\\\\\" at 0x100" := by
  decide +kernel

end Event

end TrackImage
