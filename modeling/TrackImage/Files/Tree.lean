import TrackImage.IoError

/-!
# File trees

A tree of directories and plain files, kept as a table from locations to
entries. A location is the list of names from the root down to an entry; the
root itself is always a directory. Temporary files are numbered; a number is
higher than all before it, so a temporary name is new to the tree and never
given twice.
-/

namespace TrackImage.Files

/-- A name that paths give, or the name of a temporary file, which none does. -/
inductive Name
  | given (text : String)
  | temporary (serial : Nat)
  deriving DecidableEq, Repr

namespace Name

/-- What the names of temporary files begin with when they are written out. -/
def temporaryMark : String := ".rawdisc-"

/-- Bytes of a temporary name that is written out, whatever its number. -/
def temporaryLength : Nat := 15

/-- The number of a temporary file. -/
def serial : Name → Nat
  | given _ => 0
  | temporary serial => serial

end Name

abbrev Location := List Name

inductive Entry
  | directory
  | file (bytes : ByteArray)

structure Tree where
  entries : List (Location × Entry) := []
  /-- No temporary file made so far has a higher number. -/
  serial : Nat := 0

namespace Tree

def get? (tree : Tree) (location : Location) : Option Entry :=
  if location = [] then some .directory else tree.entries.lookup location

def isFile (tree : Tree) (location : Location) : Bool :=
  match tree.get? location with
  | some (.file _) => true
  | _ => false

/-- Take one entry away, and nothing else. -/
def erase (tree : Tree) (location : Location) : Tree :=
  { tree with entries := tree.entries.filter fun entry => entry.1 != location }

def put (tree : Tree) (location : Location) (entry : Entry) : Tree :=
  { tree with entries := (location, entry) :: (tree.erase location).entries }

/-- Take an entry and everything below it away. -/
def eraseBelow (tree : Tree) (location : Location) : Tree :=
  { tree with entries := tree.entries.filter fun entry => !location.isPrefixOf entry.1 }

theorem lookup_filter_ne (entries : List (Location × Entry)) {location other : Location}
    (different : other ≠ location) :
    (entries.filter fun entry => entry.1 != location).lookup other = entries.lookup other := by
  induction entries with
  | nil => rfl
  | cons entry rest ih =>
      obtain ⟨place, content⟩ := entry
      by_cases here : place = location
      · subst here
        have apart : (other == place) = false := beq_false_of_ne different
        simp [List.lookup_cons, apart, ih]
      · simp [here, List.lookup_cons, ih]

theorem lookup_filter_self (entries : List (Location × Entry)) (location : Location) :
    (entries.filter fun entry => entry.1 != location).lookup location = none := by
  induction entries with
  | nil => rfl
  | cons entry rest ih =>
      obtain ⟨place, content⟩ := entry
      by_cases here : place = location
      · simp [here, ih]
      · have apart : (location == place) = false :=
          beq_false_of_ne fun same => here same.symm
        simp [here, List.lookup_cons, apart, ih]

theorem get?_put (tree : Tree) {location : Location} (entry : Entry) (other : Location)
    (inside : location ≠ []) :
    (tree.put location entry).get? other =
      if other = location then some entry else tree.get? other := by
  by_cases same : other = location
  · simp [get?, put, same, inside]
  · have apart : (other == location) = false := beq_false_of_ne same
    simp [get?, put, erase, same, apart, List.lookup_cons, lookup_filter_ne _ same]

theorem get?_erase (tree : Tree) {location : Location} (other : Location)
    (inside : location ≠ []) :
    (tree.erase location).get? other = if other = location then none else tree.get? other := by
  by_cases same : other = location
  · simp [get?, erase, same, inside, lookup_filter_self]
  · simp [get?, erase, same, lookup_filter_ne _ same]

/-- The number of the temporary file at a location. -/
def serialAt (location : Location) : Nat :=
  (location.getLast?.map Name.serial).getD 0

/-- The highest number of a temporary file in the tree. -/
def highest (tree : Tree) : Nat :=
  tree.entries.foldr (fun entry serial => max (serialAt entry.1) serial) 0

def nextSerial (tree : Tree) : Nat :=
  max tree.serial tree.highest + 1

def freshName (tree : Tree) : Name :=
  .temporary tree.nextSerial

/-- An empty file of a new name in a directory. -/
def addTemporary (tree : Tree) (directory : Location) : Location × Tree :=
  let location := directory ++ [tree.freshName]
  (location, { tree.put location (.file .empty) with serial := tree.nextSerial })

theorem serialAt_le_highest (tree : Tree) {entry : Location × Entry}
    (here : entry ∈ tree.entries) : serialAt entry.1 ≤ tree.highest := by
  unfold highest
  generalize tree.entries = entries at here ⊢
  induction entries with
  | nil => simp at here
  | cons first rest ih =>
      rw [List.foldr_cons]
      rcases List.mem_cons.mp here with rfl | later
      · exact Nat.le_max_left _ _
      · exact Nat.le_trans (ih later) (Nat.le_max_right _ _)

/-- Nothing in the tree has the name of the next temporary file. -/
theorem get?_freshName (tree : Tree) (directory : Location) :
    tree.get? (directory ++ [tree.freshName]) = none := by
  have notRoot : directory ++ [tree.freshName] ≠ [] := by simp
  simp only [get?, notRoot, if_false]
  apply List.lookup_eq_none_iff.mpr
  intro entry here
  have low := tree.serialAt_le_highest here
  apply bne_iff_ne.mpr
  intro same
  rw [← same] at low
  simp only [serialAt, List.getLast?_append, List.getLast?_singleton, Option.some_or,
    Option.map_some, Option.getD_some, freshName, Name.serial, nextSerial] at low
  omega

end Tree

end TrackImage.Files
