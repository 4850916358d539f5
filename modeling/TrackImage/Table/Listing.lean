import TrackImage.Table.Tag

/-!
# Reading tag lines

A text of tag lines is read back line by line. Every line is ended by a line
break; the first colon followed by a blank parts the offset from the tag, and
the tag is four characters that stand for bytes.
-/

namespace TrackImage.Table.Listing

/-- Bytes as characters of the same codes. -/
def charsOf (bytes : List UInt8) : List Char :=
  bytes.map fun byte => Char.ofNat byte.toNat

/-- The lines of a text; nothing if its last line is not ended. -/
def lines? : List Char → Option (List (List Char))
  | [] => some []
  | '\n' :: rest => (lines? rest).map ([] :: ·)
  | char :: rest =>
      match lines? rest with
      | some (line :: more) => some ((char :: line) :: more)
      | _ => none

/-- What stands before and after the first colon followed by a blank. -/
def part? : List Char → Option (List Char × List Char)
  | [] => none
  | ':' :: ' ' :: rest => some ([], rest)
  | char :: rest => (part? rest).map fun parts => (char :: parts.1, parts.2)

/-- The byte that a character stands for. -/
def byte? (char : Char) : Option UInt8 :=
  if char.toNat < 256 then some char.toNat.toUInt8 else none

def tag? (chars : List Char) : Option Tag :=
  (chars.mapM byte?).bind Tag.ofList?

def finding? (line : List Char) : Option Finding :=
  match part? line with
  | none => none
  | some (offset, tag) =>
      match Hex.value? offset, tag? tag with
      | some offset, some tag => some ⟨offset, tag⟩
      | _, _ => none

/-- The findings of a written text. -/
def findings? (text : List UInt8) : Option (List Finding) :=
  (lines? (charsOf text)).bind fun lines => lines.mapM finding?

end TrackImage.Table.Listing
