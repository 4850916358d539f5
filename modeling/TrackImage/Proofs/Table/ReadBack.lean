import TrackImage.Table.Listing
import TrackImage.Table.Occurrence

/-!
# Tag lines read back

A numeral has no colon, so the first colon of a line ends its offset, whatever
the tag is; and neither numerals nor printable tags have line breaks, so every
line break ends a line. Hence the lines of findings say which findings they are.
-/

namespace TrackImage

namespace Hex

theorem exists_digitChar_of_mem_digits {number : Nat} {char : Char}
    (member : char ∈ digits number) : ∃ digit < 16, char = Nat.digitChar digit := by
  fun_induction digits number with
  | case1 number single => exact ⟨number, single, List.mem_singleton.mp member⟩
  | case2 number _ ih =>
      rcases List.mem_append.mp member with front | last
      · exact ih front
      · exact ⟨number % 16, Nat.mod_lt _ (by decide), List.mem_singleton.mp last⟩

/-- A numeral is made of the sixteen digits, padding included. -/
theorem exists_digitChar_of_mem_padded {width number : Nat} {char : Char}
    (member : char ∈ padded width number) : ∃ digit < 16, char = Nat.digitChar digit := by
  rcases List.mem_append.mp member with padding | digit
  · exact ⟨0, by decide, List.eq_of_mem_replicate padding⟩
  · exact exists_digitChar_of_mem_digits digit

end Hex

namespace Table

/-! ## Characters of a line -/

/-- A character that stands for one byte and breaks no line. -/
structure InLine (char : Char) : Prop where
  ascii : char.toNat < 0x80
  ne_break : char ≠ '\n'

theorem inLine_digitChar {digit : Nat} (small : digit < 16) :
    InLine (Nat.digitChar digit) ∧ Nat.digitChar digit ≠ ':' := by
  have checked : ∀ n : Fin 16, (Nat.digitChar n.val).toNat < 0x80 ∧
      Nat.digitChar n.val ≠ '\n' ∧ Nat.digitChar n.val ≠ ':' := by
    decide
  obtain ⟨ascii, unbroken, uncolon⟩ := checked ⟨digit, small⟩
  exact ⟨⟨ascii, unbroken⟩, uncolon⟩

/-- Every byte is below the codes that are no characters. -/
theorem toNat_ofNat_byte (byte : UInt8) : (Char.ofNat byte.toNat).toNat = byte.toNat := by
  have small := byte.toNat_lt
  have valid : byte.toNat.isValidChar := .inl (by omega)
  rw [Char.ofNat, dif_pos valid]
  rfl

theorem inLine_of_isPrintable {byte : UInt8} (printable : isPrintable byte = true) :
    InLine (Char.ofNat byte.toNat) := by
  rw [isPrintable, Bool.and_eq_true, decide_eq_true_iff, decide_eq_true_iff] at printable
  obtain ⟨visible, plain⟩ := printable
  rw [UInt8.le_iff_toNat_le] at visible plain
  change 0x20 ≤ byte.toNat at visible
  change byte.toNat ≤ 0x7E at plain
  constructor
  · rw [toNat_ofNat_byte]
    omega
  · intro broken
    have code := congrArg Char.toNat broken
    rw [toNat_ofNat_byte] at code
    change byte.toNat = 10 at code
    omega

namespace Finding

theorem inLine_lineChars {finding : Finding} (printable : finding.tag.printable = true)
    {char : Char} (member : char ∈ finding.lineChars) : InLine char := by
  rcases List.mem_append.mp member with offset | rest
  · obtain ⟨digit, small, rfl⟩ := Hex.exists_digitChar_of_mem_padded offset
    exact (inLine_digitChar small).1
  · rcases List.mem_cons.mp rest with rfl | rest
    · exact ⟨by decide, by decide⟩
    · rcases List.mem_cons.mp rest with rfl | tag
      · exact ⟨by decide, by decide⟩
      · obtain ⟨byte, here, rfl⟩ := List.mem_map.mp tag
        exact inLine_of_isPrintable (List.all_eq_true.mp printable byte here)

end Finding

namespace Listing

/-! ## Bytes and characters -/

theorem encode_of_ascii {char : Char} (ascii : char.toNat < 0x80) :
    String.utf8EncodeChar char = [char.toNat.toUInt8] := by
  have single : char.utf8Size = 1 := by
    rw [Char.utf8Size_eq_one_iff, UInt32.le_iff_toNat_le]
    exact Nat.le_of_lt_succ ascii
  exact String.utf8EncodeChar_eq_singleton single

/-- Text of plain characters is the same bytes and characters. -/
theorem charsOf_encode {chars : List Char} (ascii : ∀ char ∈ chars, char.toNat < 0x80) :
    charsOf (chars.flatMap String.utf8EncodeChar) = chars := by
  induction chars with
  | nil => rfl
  | cons char rest ih =>
      have first := ascii char List.mem_cons_self
      have more := ih fun other member => ascii other (List.mem_cons_of_mem _ member)
      have code : char.toNat.toUInt8.toNat = char.toNat := Nat.mod_eq_of_lt (by omega)
      rw [List.flatMap_cons, encode_of_ascii first, charsOf, List.map_append, List.map_singleton,
        code, Char.ofNat_toNat]
      exact congrArg (char :: ·) more

/-! ## One line -/

/-- The first colon with a blank behind it is the one behind a front without colons. -/
theorem part?_append {front : List Char} (uncolon : ':' ∉ front) (rest : List Char) :
    part? (front ++ ':' :: ' ' :: rest) = some (front, rest) := by
  induction front with
  | nil => rfl
  | cons char front ih =>
      rw [List.mem_cons, not_or] at uncolon
      obtain ⟨other, more⟩ := uncolon
      rw [List.cons_append, part?, ih more]
      · rfl
      · intro _ same
        exact absurd same.symm other

/-- Four characters read as bytes are the tag that they show. -/
theorem tag?_chars (tag : Tag) : tag? tag.chars = some tag := by
  have each (byte : UInt8) : byte? (Char.ofNat byte.toNat) = some byte := by
    have small := byte.toNat_lt
    rw [byte?, toNat_ofNat_byte, if_pos small]
    exact congrArg some UInt8.ofNat_toNat
  simp [tag?, Tag.chars, Tag.toList, each, Tag.ofList?]

/-- A line says where its tag was found and which it is, colons and blanks in it included. -/
theorem finding?_lineChars (finding : Finding) : finding? finding.lineChars = some finding := by
  have uncolon : ':' ∉ Hex.padded 4 finding.offset := by
    intro member
    obtain ⟨digit, small, same⟩ := Hex.exists_digitChar_of_mem_padded member
    exact (inLine_digitChar small).2 same.symm
  rw [finding?, Finding.lineChars, part?_append uncolon]
  simp only [Hex.value?_padded, tag?_chars]

/-! ## Many lines -/

theorem lines?_append {line : List Char} (unbroken : '\n' ∉ line) (rest : List Char) :
    lines? (line ++ '\n' :: rest) = (lines? rest).map (line :: ·) := by
  induction line with
  | nil => rfl
  | cons char line ih =>
      rw [List.mem_cons, not_or] at unbroken
      obtain ⟨other, more⟩ := unbroken
      rw [List.cons_append, lines?, ih more]
      · cases lines? rest <;> rfl
      · exact fun same => other same.symm

theorem lines?_flatMap {findings : List Finding}
    (printable : ∀ finding ∈ findings, finding.tag.printable = true) :
    lines? (findings.flatMap fun finding => finding.lineChars ++ ['\n']) =
      some (findings.map Finding.lineChars) := by
  induction findings with
  | nil => rfl
  | cons finding rest ih =>
      have unbroken : '\n' ∉ finding.lineChars := fun member =>
        (Finding.inLine_lineChars (printable finding List.mem_cons_self) member).ne_break rfl
      rw [List.flatMap_cons, List.append_assoc, List.singleton_append, lines?_append unbroken,
        ih fun other member => printable other (List.mem_cons_of_mem _ member)]
      rfl

/-- Every character of the lines of printable tags is one byte. -/
theorem ascii_of_mem_flatMap {findings : List Finding}
    (printable : ∀ finding ∈ findings, finding.tag.printable = true) {char : Char}
    (member : char ∈ findings.flatMap fun finding => finding.lineChars ++ ['\n']) :
    char.toNat < 0x80 := by
  obtain ⟨finding, here, inside⟩ := List.mem_flatMap.mp member
  rcases List.mem_append.mp inside with line | ending
  · exact (Finding.inLine_lineChars (printable finding here) line).ascii
  · obtain rfl := List.mem_singleton.mp ending
    decide

theorem lines_eq_flatMap (findings : List Finding) :
    lines findings = (findings.flatMap fun finding => finding.lineChars ++ ['\n']).flatMap
      String.utf8EncodeChar := by
  rw [lines, List.flatMap_assoc]
  rfl

/-- The lines of printable tags are plain text. -/
theorem ascii_of_mem_lines {findings : List Finding}
    (printable : ∀ finding ∈ findings, finding.tag.printable = true) {byte : UInt8}
    (member : byte ∈ lines findings) : byte < 0x80 := by
  rw [lines_eq_flatMap] at member
  obtain ⟨char, here, encoded⟩ := List.mem_flatMap.mp member
  have ascii := ascii_of_mem_flatMap printable here
  rw [encode_of_ascii ascii, List.mem_singleton] at encoded
  rw [encoded, UInt8.lt_iff_toNat_lt]
  change char.toNat % 256 < 128
  omega

/-- The lines of printable tags are read back as the findings they were written for. -/
theorem findings?_lines {findings : List Finding}
    (printable : ∀ finding ∈ findings, finding.tag.printable = true) :
    findings? (lines findings) = some findings := by
  have each : finding? ∘ Finding.lineChars = fun finding => pure (id finding) :=
    funext finding?_lineChars
  rw [findings?, lines_eq_flatMap, charsOf_encode fun _ => ascii_of_mem_flatMap printable,
    lines?_flatMap printable, Option.bind_some, List.mapM_map, each, List.mapM_pure, List.map_id]
  rfl

example : findings? (lines [⟨0x123400, ⟨0x3A, 0x20, 0x3A, 0x20⟩⟩]) =
    some [⟨0x123400, ⟨0x3A, 0x20, 0x3A, 0x20⟩⟩] := by
  decide +kernel

end Listing

end Table

end TrackImage
