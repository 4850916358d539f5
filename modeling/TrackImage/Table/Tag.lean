import TrackImage.Text.Hex

/-!
# Tags

A tag is four bytes. One that counts is printable: no control character and
none above `~`. As text every byte is the character of that code, and a tag
found at an offset has a line of its own, `OOOO: TTTT`.
-/

namespace TrackImage.Table

/-- A byte that may stand in a tag: `0x20` to `0x7E`. -/
def isPrintable (byte : UInt8) : Bool :=
  0x20 ≤ byte && byte ≤ 0x7E

structure Tag where
  first : UInt8
  second : UInt8
  third : UInt8
  fourth : UInt8
  deriving DecidableEq, Repr

namespace Tag

def length : Nat := 4

def toList (tag : Tag) : List UInt8 :=
  [tag.first, tag.second, tag.third, tag.fourth]

/-- Exactly four bytes are a tag. -/
def ofList? : List UInt8 → Option Tag
  | [first, second, third, fourth] => some ⟨first, second, third, fourth⟩
  | _ => none

@[simp] theorem ofList?_toList (tag : Tag) : ofList? tag.toList = some tag :=
  rfl

theorem ofList?_eq_some_iff {bytes : List UInt8} {tag : Tag} :
    ofList? bytes = some tag ↔ bytes = tag.toList := by
  constructor
  · intro found
    unfold ofList? at found
    split at found
    · simp only [Option.some.injEq] at found
      simp [← found, toList]
    · simp at found
  · rintro rfl
    rfl

/-- A tag made of printable bytes only. -/
def printable (tag : Tag) : Bool :=
  tag.toList.all isPrintable

/-- Each byte as the character of that code. -/
def chars (tag : Tag) : List Char :=
  tag.toList.map fun byte => Char.ofNat byte.toNat

def text (tag : Tag) : String :=
  String.ofList tag.chars

/-- The text in quotes; a quote or a backslash in it is marked by a backslash. -/
def quoted (tag : Tag) : String :=
  let marked := tag.chars.flatMap fun char =>
    if char = '"' ∨ char = '\\' then ['\\', char] else [char]
  String.ofList ('"' :: marked ++ ['"'])

end Tag

/-- A tag and the offset of the window that starts with it. -/
structure Finding where
  offset : Nat
  tag : Tag
  deriving DecidableEq, Repr

namespace Finding

/-- The offset with at least four hexadecimal digits, a colon, a blank, the tag. -/
def lineChars (finding : Finding) : List Char :=
  Hex.padded 4 finding.offset ++ ':' :: ' ' :: finding.tag.chars

def line (finding : Finding) : String :=
  String.ofList finding.lineChars

/-- The line as it is written, ended by a line break. -/
def lineBytes (finding : Finding) : List UInt8 :=
  (finding.lineChars ++ ['\n']).flatMap String.utf8EncodeChar

/-- The line and its break in the pieces that they are put together from. -/
def linePieces (finding : Finding) : List (List Char) :=
  Hex.paddedPieces 4 finding.offset ++ [[':', ' '], finding.tag.chars, ['\n']]

theorem flatten_linePieces (finding : Finding) :
    finding.linePieces.flatten = finding.lineChars ++ ['\n'] := by
  rw [linePieces, lineChars, List.flatten_append, Hex.flatten_paddedPieces, List.append_assoc]
  rfl

/-- The bytes of a line, each piece of it written for itself. -/
def lineWrites (finding : Finding) : List (List UInt8) :=
  finding.linePieces.map fun piece => piece.flatMap String.utf8EncodeChar

theorem flatten_lineWrites (finding : Finding) :
    finding.lineWrites.flatten = finding.lineBytes := by
  rw [lineWrites, lineBytes, ← flatten_linePieces, List.flatMap_def, List.map_flatten,
    List.flatten_flatten, List.map_map]
  rfl

example : (Finding.mk 256 ⟨0x41, 0x42, 0x43, 0x44⟩).linePieces =
    [['0'], ['1', '0', '0'], [':', ' '], ['A', 'B', 'C', 'D'], ['\n']] := by
  decide +kernel

end Finding

end TrackImage.Table
