import TrackImage.Files.Path

/-!
# Where paths lead

A path leads from the root through given names only, so files with temporary
names do not show: trees that are alike at all locations that paths can reach
give the same answers. And a path that goes through directories goes the same
way in a tree that has these directories as well.
-/

namespace TrackImage.Files

/-- A location that paths can reach: no name in it is that of a temporary file. -/
def Given (location : Location) : Prop :=
  ∀ name ∈ location, ∃ text, name = .given text

namespace Given

variable {location : Location}

theorem root : Given [] := by
  intro name inside
  cases inside

theorem below (given : Given location) (text : String) : Given (location ++ [.given text]) := by
  intro name inside
  rcases List.mem_append.mp inside with above | last
  · exact given name above
  · exact ⟨text, List.mem_singleton.mp last⟩

theorem above (given : Given location) : Given location.dropLast := by
  intro name inside
  exact given name (List.dropLast_subset location inside)

/-- No path reaches a temporary file. -/
theorem ne_temporary (given : Given location) (directory : Location) (serial : Nat) :
    location ≠ directory ++ [.temporary serial] := by
  rintro rfl
  obtain ⟨text, impossible⟩ := given (.temporary serial) (List.mem_append_right _ (.head _))
  cases impossible

end Given

namespace Place

variable {place : Place}

theorem location_of_named (named : place.isDots = false) :
    place.location = place.directory ++ [.given place.name] := by
  simp only [isDots, Bool.or_eq_false_iff, beq_eq_false_iff_ne] at named
  rw [location, if_neg named.1, if_neg named.2]

theorem given_location (given : Given place.directory) : Given place.location := by
  unfold location
  split
  · exact given
  · split
    · exact given.above
    · exact given.below place.name

end Place

namespace Tree

variable {tree other : Tree} {start directory : Location} {names : List String} {path : String}

/-! ## Directories on the way -/

theorem descend_cons {name : String} (here : name ≠ ".") (back : name ≠ "..")
    (rest : List String) :
    tree.descend start (name :: rest) = match tree.look start name with
      | .error error => .error error
      | .ok none => .error .notFound
      | .ok (some (.file _)) => .error .notADirectory
      | .ok (some .directory) => tree.descend (start ++ [.given name]) rest :=
  descend.eq_4 tree start name rest here back

theorem given_of_descend (given : Given start) (ended : tree.descend start names = .ok directory) :
    Given directory := by
  fun_induction descend tree start names with
  | case1 => exact Except.ok.inj ended ▸ given
  | case2 _ _ ih => exact ih given ended
  | case3 _ _ ih => exact ih given.above ended
  | case4 | case5 | case6 => cases ended
  | case7 _ name _ _ _ _ ih => exact ih (given.below name) ended

/-- A path is the root or goes through directories to its last name. -/
theorem find_eq_ok {place : Place} (found : tree.find path = .ok place) :
    place = ⟨[], ".", true⟩ ∨
      ∃ names, tree.descend [] names = .ok place.directory ∧
        ∀ other : Tree, other.descend [] names = .ok place.directory →
          other.find path = .ok place := by
  unfold find at found
  split at found
  · cases found
  · next sound =>
      split at found
      · split at found
        · cases found
        · exact .inl (Except.ok.inj found).symm
      · next name before named =>
          split at found
          · cases found
          · next directory went =>
              cases found
              refine .inr ⟨before.reverse, went, ?_⟩
              intro other reached
              unfold find
              rw [sound, named]
              simp only [reached]

theorem given_of_find {place : Place} (found : tree.find path = .ok place) :
    Given place.directory := by
  rcases find_eq_ok found with rfl | ⟨before, went, -⟩
  · exact Given.root
  · exact given_of_descend Given.root went

/-! ## Trees that paths cannot tell apart -/

/-- The trees have the same entries wherever paths lead. -/
def Alike (tree other : Tree) : Prop :=
  ∀ location, Given location → other.get? location = tree.get? location

namespace Alike

theorem look (alike : Alike tree other) (given : Given directory) (name : String) :
    other.look directory name = tree.look directory name := by
  unfold Tree.look
  rw [alike _ (given.below name)]

theorem lookAt (alike : Alike tree other) {place : Place} (given : Given place.directory) :
    other.lookAt place = tree.lookAt place := by
  unfold Tree.lookAt
  rw [alike.look given, alike _ (Place.given_location given)]

theorem descend (alike : Alike tree other) (given : Given start) (names : List String) :
    other.descend start names = tree.descend start names := by
  fun_induction Tree.descend tree start names with
  | case1 => rfl
  | case2 _ _ ih => exact ih given
  | case3 _ _ ih => exact ih given.above
  | case4 _ name _ here back _ looked | case5 _ name _ here back looked
  | case6 _ name _ here back _ looked =>
      rw [descend_cons here back, alike.look given, looked]
  | case7 _ name _ here back looked ih =>
      rw [descend_cons here back, alike.look given, looked]
      exact ih (given.below name)

theorem enter (alike : Alike tree other) (path : String) : other.enter path = tree.enter path := by
  unfold Tree.enter
  rw [alike.descend Given.root]

theorem find (alike : Alike tree other) (path : String) : other.find path = tree.find path := by
  unfold Tree.find
  simp only [alike.descend Given.root]

/-- Every path opens the same. -/
theorem openEntry (alike : Alike tree other) (path : String) :
    other.openEntry path = tree.openEntry path := by
  unfold Tree.openEntry
  rw [alike.find]
  cases found : tree.find path with
  | error error => rfl
  | ok place =>
      have given : Given place.directory := given_of_find found
      simp only [alike.lookAt given]

end Alike

/-! ## Trees with more in them -/

/-- A way through directories is open as long as the directories are there. -/
theorem descend_of_directories
    (kept : ∀ location, tree.get? location = some .directory →
      other.get? location = some .directory)
    (ended : tree.descend start names = .ok directory) :
    other.descend start names = .ok directory := by
  fun_induction descend tree start names with
  | case1 => exact ended
  | case2 _ _ ih => exact ih ended
  | case3 _ _ ih => exact ih ended
  | case4 | case5 | case6 => cases ended
  | case7 start name rest here back looked ih =>
      have looked' : other.look start name = .ok (some .directory) := by
        unfold look at looked ⊢
        split at looked
        · cases looked
        · next short =>
            rw [if_neg short, kept _ (Except.ok.inj looked)]
      rw [descend_cons here back, looked']
      exact ih ended

theorem find_of_directories {place : Place}
    (kept : ∀ location, tree.get? location = some .directory →
      other.get? location = some .directory)
    (found : tree.find path = .ok place) (named : place.isDots = false) :
    other.find path = .ok place := by
  rcases find_eq_ok found with rfl | ⟨before, went, same⟩
  · cases named
  · exact same other (descend_of_directories kept went)

end Tree

end TrackImage.Files
