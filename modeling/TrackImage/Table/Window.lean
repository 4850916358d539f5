import TrackImage.Table.Tag

/-!
# Windows

An input is looked at in windows of 256 bytes; only the last one of an input
can be shorter. A window is null when none of its bytes differs from zero, so
an empty one is null, and it offers a tag when it has at least four bytes.
-/

namespace TrackImage.Table

structure Window where
  bytes : List UInt8
  length_le : bytes.length ≤ 256
  deriving DecidableEq, Repr

namespace Window

/-- Length of every window but the last. -/
def fullLength : Nat := 256

/-- Windows in an input of the given length, a short last one included. -/
def countIn (length : Nat) : Nat :=
  (length + (fullLength - 1)) / fullLength

/-- Nothing if there are more bytes than a window holds. -/
def ofBytes? (bytes : List UInt8) : Option Window :=
  if fits : bytes.length ≤ 256 then some ⟨bytes, fits⟩ else none

/-- A window that is not null and offers no printable tag. -/
def sentinel : Window :=
  ⟨0xFF :: List.replicate 255 0,
    Nat.le_of_eq (by rw [List.length_cons, List.length_replicate])⟩

def length (window : Window) : Nat := window.bytes.length

def isEmpty (window : Window) : Bool := window.bytes.isEmpty

def isNull (window : Window) : Bool :=
  window.bytes.all fun byte => byte == 0

/-- The first four bytes, if there are so many. -/
def tag? (window : Window) : Option Tag :=
  Tag.ofList? (window.bytes.take Tag.length)

/-- All 256 cells: the bytes, then zeros. -/
def cells (window : Window) : List UInt8 :=
  window.bytes ++ List.replicate (fullLength - window.length) 0

theorem length_cells (window : Window) : window.cells.length = fullLength := by
  have bound := window.length_le
  simp only [cells, List.length_append, List.length_replicate, length, fullLength]
  omega

/-- Length and first sixteen bytes in decimal, for people. -/
def description (window : Window) : String :=
  "Block \x7b len: " ++ toString window.length ++ ", head: [" ++
    ", ".intercalate ((window.bytes.take 16).map fun byte => toString byte.toNat) ++ "] \x7d"

@[simp] theorem not_isNull_sentinel : sentinel.isNull = false := by
  simp only [isNull, sentinel, List.all_cons]
  rfl

theorem ofBytes?_eq_some_iff {bytes : List UInt8} {window : Window} :
    ofBytes? bytes = some window ↔ window.bytes = bytes := by
  unfold ofBytes?
  split
  · constructor
    · rintro ⟨⟩
      rfl
    · intro same
      cases window
      simp_all
  · next long =>
      constructor
      · nofun
      · intro same
        exact absurd (same ▸ window.length_le) long

end Window

end TrackImage.Table
