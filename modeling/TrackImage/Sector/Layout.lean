/-!
# Sector layout

A raw sector is a header, a payload and a footer; its length is the period of
the image. A CD-ROM/XA Mode 2 Form 1 sector has 2352 bytes: 24 of sync,
header and subheader, 2048 of user data, 280 of error correction. Only the
payload is kept, and the bytes after the last whole sector count for nothing.
-/

namespace TrackImage.Sector

structure Layout where
  header : Nat
  payload : Nat
  footer : Nat
  deriving DecidableEq, Repr

namespace Layout

/-- Length of one sector. -/
def period (layout : Layout) : Nat :=
  layout.header + layout.payload + layout.footer

/-- A layout whose sectors have at least one byte. -/
def of? (header payload footer : Nat) : Option Layout :=
  let layout : Layout := ⟨header, payload, footer⟩
  if layout.period = 0 then none else some layout

theorem of?_eq_none_iff {header payload footer : Nat} :
    of? header payload footer = none ↔ header + payload + footer = 0 := by
  by_cases empty : header + payload + footer = 0
  · simp only [of?, period, empty, if_true]
  · simp only [of?, period, empty, if_false, reduceCtorEq]

def mode2Form1 : Layout := ⟨24, 2048, 280⟩

@[simp] theorem period_mode2Form1 : mode2Form1.period = 2352 :=
  rfl

/-- Where the payload of a sector begins. -/
def payloadOffset (layout : Layout) (sector : Nat) : Nat :=
  sector * layout.period + layout.header

/-- Whole sectors in an input of the given length. -/
def sectors (layout : Layout) (length : Nat) : Nat :=
  length / layout.period

/-- Bytes after the last whole sector. -/
def tail (layout : Layout) (length : Nat) : Nat :=
  length % layout.period

/-- Length of all payloads together. -/
def output (layout : Layout) (length : Nat) : Nat :=
  layout.payload * layout.sectors length

theorem sectors_mul_period_add_tail (layout : Layout) (length : Nat) :
    layout.sectors length * layout.period + layout.tail length = length :=
  Nat.div_add_mod' length layout.period

theorem output_add_tail_le (layout : Layout) (length : Nat) :
    layout.output length + layout.tail length ≤ length := by
  have split := layout.sectors_mul_period_add_tail length
  have bound : layout.payload * layout.sectors length ≤ layout.sectors length * layout.period := by
    rw [Nat.mul_comm]
    apply Nat.mul_le_mul_left
    simp only [period]
    omega
  simp only [output]
  omega

/-- What is asked of a layout without a single byte has no answer. -/
inductive Undefined
  | quotient
  | remainder
  deriving DecidableEq, Repr

def Undefined.message : Undefined → String
  | quotient => "attempt to divide by zero"
  | remainder => "attempt to calculate the remainder with a divisor of zero"

def sectors? (layout : Layout) (length : Nat) : Except Undefined Nat :=
  if layout.period = 0 then .error .quotient else .ok (layout.sectors length)

def tail? (layout : Layout) (length : Nat) : Except Undefined Nat :=
  if layout.period = 0 then .error .remainder else .ok (layout.tail length)

def output? (layout : Layout) (length : Nat) : Except Undefined Nat :=
  if layout.period = 0 then .error .quotient else .ok (layout.output length)

end Layout

end TrackImage.Sector
