import TrackImage.Files.Tree

/-!
# Paths

A path is a text of names between slashes, followed from the root of a tree.
`.` stays, `..` goes back, and every name but the last has to be a directory:
one that is missing is not found, one that is a file is not a directory. Paths
and names are of limited length. What the last name stands for is for the
operation to say.
-/

namespace TrackImage.Files

namespace Path

/-- The most bytes that a path can have. -/
def longestPath : Nat := 4095

/-- The most bytes that a name can have. -/
def longestName : Nat := 255

/--
What is wrong with a text before a single name of it is looked up, when so many
bytes more come behind it.
-/
def fault? (path : String) (more : Nat) : Option IoError :=
  if '\x00' ∈ path.toList then some .nulInName
  else if longestPath < path.utf8ByteSize + more then some .nameTooLong
  else none

/-- Cut a text at its slashes; every slash begins a new piece. -/
def pieces : List Char → List (List Char)
  | [] => [[]]
  | char :: rest =>
      if char = '/' then [] :: pieces rest
      else (pieces rest).modifyHead fun piece => char :: piece

theorem pieces_ne_nil (chars : List Char) : pieces chars ≠ [] := by
  induction chars with
  | nil => simp [pieces]
  | cons char rest ih =>
      simp only [pieces]
      split
      · simp
      · simpa using ih

/-- Nothing is lost in cutting. -/
theorem intercalate_pieces (chars : List Char) : ['/'].intercalate (pieces chars) = chars := by
  induction chars with
  | nil => rfl
  | cons char rest ih =>
      obtain ⟨piece, more, cut⟩ := List.exists_cons_of_ne_nil (pieces_ne_nil rest)
      rw [cut] at ih
      simp only [pieces, cut]
      split
      · next slash => simp [List.intercalate_cons_cons, ih, slash]
      · cases more <;> simp_all [List.intercalate]

/-- Slashes in a row divide names like a single one. -/
def names (path : String) : List String :=
  ((pieces path.toList).filter fun piece => !piece.isEmpty).map String.ofList

def endsInSlash (path : String) : Bool :=
  path.toList.getLast? == some '/'

/-- A piece that names nothing: `.`, or nothing between two slashes. -/
def isFiller (piece : List Char) : Bool :=
  piece == [] || piece == ['.']

def dropFillersAtEnd (pieces : List (List Char)) : List (List Char) :=
  (pieces.reverse.dropWhile isFiller).reverse

/--
The path of the directory that a path's last name is in. Only the text
decides: a last `..` counts as a name, and a last `.` does not.
-/
def parent (path : String) : String :=
  String.ofList
    (['/'].intercalate (dropFillersAtEnd (dropFillersAtEnd (pieces path.toList)).dropLast))

end Path

/-- A directory and the name looked up in it. -/
structure Place where
  directory : Location
  name : String
  /-- A slash follows the name, so it has to be a directory. -/
  slashed : Bool
  deriving DecidableEq, Repr

namespace Place

/-- The name leads back to where it is looked up or above. -/
def isDots (place : Place) : Bool :=
  place.name == "." || place.name == ".."

def location (place : Place) : Location :=
  if place.name = "." then place.directory
  else if place.name = ".." then place.directory.dropLast
  else place.directory ++ [.given place.name]

end Place

namespace Tree

/-- What stands under a name in a directory, if anything does. -/
def look (tree : Tree) (directory : Location) (name : String) : Except IoError (Option Entry) :=
  if Path.longestName < name.utf8ByteSize then .error .nameTooLong
  else .ok (tree.get? (directory ++ [.given name]))

/-- What stands at a place, if anything does. -/
def lookAt (tree : Tree) (place : Place) : Except IoError (Option Entry) :=
  if place.isDots then .ok (tree.get? place.location) else tree.look place.directory place.name

/-- Go through directories, one name after the other. -/
def descend (tree : Tree) (start : Location) : List String → Except IoError Location
  | [] => .ok start
  | "." :: rest => tree.descend start rest
  | ".." :: rest => tree.descend start.dropLast rest
  | name :: rest =>
      match tree.look start name with
      | .error error => .error error
      | .ok none => .error .notFound
      | .ok (some (.file _)) => .error .notADirectory
      | .ok (some .directory) => tree.descend (start ++ [.given name]) rest

/--
The directory of a temporary file, by the path that leads there; the empty path
stays at the root. A slash and the name of the file still go behind the path.
-/
def enter (tree : Tree) (path : String) : Except IoError Location :=
  match Path.fault? path (1 + Name.temporaryLength) with
  | some error => .error error
  | none => tree.descend [] (Path.names path)

/-- Follow a path up to its last name. -/
def find (tree : Tree) (path : String) : Except IoError Place :=
  match Path.fault? path 0 with
  | some error => .error error
  | none =>
      match (Path.names path).reverse with
      | [] => if path = "" then .error .notFound else .ok ⟨[], ".", true⟩
      | name :: before =>
          match tree.descend [] before.reverse with
          | .error error => .error error
          | .ok directory => .ok ⟨directory, name, Path.endsInSlash path⟩

/-- Open what a path stands for; a directory can be opened as well as a file. -/
def openEntry (tree : Tree) (path : String) : Except IoError Entry :=
  match tree.find path with
  | .error error => .error error
  | .ok place =>
      match tree.lookAt place with
      | .error error => .error error
      | .ok none => .error .notFound
      | .ok (some .directory) => .ok .directory
      | .ok (some (.file bytes)) =>
          if place.slashed then .error .notADirectory else .ok (.file bytes)

/-- Make a file, or replace the content of one. -/
def write (tree : Tree) (path : String) (bytes : ByteArray) : Except IoError Tree :=
  match tree.find path with
  | .error error => .error error
  | .ok place =>
      match tree.lookAt place with
      | .error error => .error error
      | .ok there =>
          if place.isDots ∨ place.slashed ∨ there matches some .directory then
            .error .isADirectory
          else .ok (tree.put place.location (.file bytes))

/-- Make the directories of a path that are missing. -/
def makeDirectories (tree : Tree) (start : Location) : List String → Except IoError Tree
  | [] => .ok tree
  | "." :: rest => tree.makeDirectories start rest
  | ".." :: rest => tree.makeDirectories start.dropLast rest
  | name :: rest =>
      let location := start ++ [.given name]
      match tree.look start name with
      | .error error => .error error
      | .ok (some .directory) => tree.makeDirectories location rest
      | .ok (some (.file _)) => .error (if rest.isEmpty then .alreadyExists else .notADirectory)
      | .ok none => (tree.put location .directory).makeDirectories location rest

/-- Take a file, or a directory with all that is in it, away. -/
def remove (tree : Tree) (path : String) : Except IoError Tree :=
  match tree.find path with
  | .error error => .error error
  | .ok place =>
      match tree.lookAt place with
      | .error error => .error error
      | .ok none => .error .notFound
      | .ok (some _) => .ok (tree.eraseBelow place.location)

/-- Put a file that is at a location at a place instead, over a file that is there. -/
def moveTo (tree : Tree) (source : Location) (place : Place) : Except IoError Tree :=
  if place.isDots then .error .resourceBusy
  else
    match tree.get? source, tree.lookAt place with
    | none, _ => .error .notFound
    | _, .error error => .error error
    | some entry, .ok there =>
        if place.slashed then .error .notADirectory
        else if there matches some .directory then .error .isADirectory
        else .ok ((tree.erase source).put place.location entry)

/--
Move a file to a path. The file's directory is gone to by a path as well, the
route. The move either succeeds or changes nothing.
-/
def rename (tree : Tree) (route : String) (source : Location) (path : String) :
    Except IoError Tree :=
  match Path.fault? path 0 with
  | some error => .error error
  | none =>
      match tree.enter route, tree.find path with
      | .error error, _ => .error error
      | _, .error error => .error error
      | .ok _, .ok place => tree.moveTo source place

end Tree

end TrackImage.Files
