/-!
# Hexadecimal numerals

Offsets are written in lower-case hexadecimal, in messages behind `0x` and in
tag lines padded with zeros to a least width. Padding never cuts a digit, so a
numeral of any width reads back as the number it was written for.
-/

namespace TrackImage.Hex

/-- The digits of a number, most significant first; zero is the one digit `0`. -/
def digits (n : Nat) : List Char :=
  if n < 16 then [Nat.digitChar n]
  else digits (n / 16) ++ [Nat.digitChar (n % 16)]
termination_by n
decreasing_by omega

theorem digits_of_lt {n : Nat} (h : n < 16) : digits n = [Nat.digitChar n] := by
  rw [digits, if_pos h]

theorem digits_of_le {n : Nat} (h : 16 ≤ n) :
    digits n = digits (n / 16) ++ [Nat.digitChar (n % 16)] := by
  rw [digits, if_neg (Nat.not_lt.mpr h)]

theorem digits_ne_nil (n : Nat) : digits n ≠ [] := by
  rw [digits]
  split <;> simp

/-- The digits with zeros put in front up to the given width. -/
def padded (width n : Nat) : List Char :=
  List.replicate (width - (digits n).length) '0' ++ digits n

theorem le_length_padded (width n : Nat) : width ≤ (padded width n).length := by
  simp only [padded, List.length_append, List.length_replicate]
  omega

/-- A padded numeral in the pieces in which it is written: zero by zero, then all its digits. -/
def paddedPieces (width n : Nat) : List (List Char) :=
  List.replicate (width - (digits n).length) ['0'] ++ [digits n]

theorem flatten_paddedPieces (width n : Nat) : (paddedPieces width n).flatten = padded width n := by
  rw [paddedPieces, padded, List.flatten_append, List.flatten_replicate_singleton,
    List.flatten_singleton]

/-- A numeral behind `0x`, as messages show offsets. -/
def marked (n : Nat) : String :=
  "0x" ++ String.ofList (digits n)

/-- What a digit stands for. -/
def digitValue? (char : Char) : Option Nat :=
  if '0' ≤ char ∧ char ≤ '9' then some (char.toNat - '0'.toNat)
  else if 'a' ≤ char ∧ char ≤ 'f' then some (char.toNat - 'a'.toNat + 10)
  else none

/-- The number of a numeral, continuing one that was read up to here. -/
def valueFrom? (value : Nat) : List Char → Option Nat
  | [] => some value
  | char :: rest => (digitValue? char).bind fun digit => valueFrom? (16 * value + digit) rest

/-- A numeral has at least one digit. -/
def value? (chars : List Char) : Option Nat :=
  if chars = [] then none else valueFrom? 0 chars

theorem digitValue?_digitChar {digit : Nat} (small : digit < 16) :
    digitValue? (Nat.digitChar digit) = some digit := by
  have checked : ∀ n : Fin 16, digitValue? (Nat.digitChar n.val) = some n.val := by decide
  exact checked ⟨digit, small⟩

theorem valueFrom?_append (value : Nat) (first second : List Char) :
    valueFrom? value (first ++ second) =
      (valueFrom? value first).bind fun middle => valueFrom? middle second := by
  induction first generalizing value with
  | nil => rfl
  | cons char rest ih =>
      cases found : digitValue? char with
      | none => simp [valueFrom?, found]
      | some digit => simp [valueFrom?, found, ih]

theorem valueFrom?_digits (number : Nat) : valueFrom? 0 (digits number) = some number := by
  induction number using Nat.strongRecOn with
  | ind number ih =>
      by_cases single : number < 16
      · simp [digits_of_lt single, valueFrom?, digitValue?_digitChar single]
      · have many : 16 ≤ number := Nat.le_of_not_lt single
        have last : digitValue? (Nat.digitChar (number % 16)) = some (number % 16) :=
          digitValue?_digitChar (Nat.mod_lt _ (by decide))
        rw [digits_of_le many, valueFrom?_append, ih _ (by omega)]
        simp only [Option.bind_some, valueFrom?, last]
        congr 1
        omega

theorem valueFrom?_zeros (count : Nat) (rest : List Char) :
    valueFrom? 0 (List.replicate count '0' ++ rest) = valueFrom? 0 rest := by
  induction count with
  | zero => rfl
  | succ count ih =>
      have zero : digitValue? '0' = some 0 := by decide
      simp only [List.replicate_succ, List.cons_append, valueFrom?, zero, Option.bind_some]
      exact ih

/-- Padding is without effect on what a numeral says. -/
theorem value?_padded (width number : Nat) : value? (padded width number) = some number := by
  have filled : padded width number ≠ [] := by simp [padded, digits_ne_nil]
  rw [value?, if_neg filled, padded, valueFrom?_zeros, valueFrom?_digits]

end TrackImage.Hex
