import TrackImage.Files.PendingOutput
import TrackImage.Proofs.Device.Serving
import TrackImage.Proofs.Files.Looking

/-!
# What a pending output does to a tree

While an output is pending, its temporary file is all that the tree has more,
under a name that no path gives. So paths lead where they led before, and when
the output is dropped or cannot be put in place every entry is as it was. When
it is put in place its destination is a file with its bytes, and every other
entry is as it was.
-/

namespace TrackImage.Files

namespace Tree

variable {tree moved : Tree}

/-- The tree after has the same entry at every location. -/
def Unchanged (before after : Tree) : Prop :=
  ∀ location, after.get? location = before.get? location

/-- A file with these bytes stands at the end of a path, and every other entry is as it was. -/
structure Replaces (before after : Tree) (path : String) (bytes : ByteArray) : Prop where
  opens : after.openEntry path = .ok (.file bytes)
  entries : ∃ place, before.find path = .ok place ∧
    ∀ location, after.get? location =
      if location = place.location then some (.file bytes) else before.get? location

theorem get?_addTemporary (tree : Tree) (directory other : Location) :
    (tree.addTemporary directory).2.get? other =
      if other = (tree.addTemporary directory).1 then some (.file .empty) else tree.get? other :=
  tree.get?_put (.file .empty) other (List.append_ne_nil_of_right_ne_nil _ (List.cons_ne_nil _ _))

theorem lookAt_eq_ok {place : Place} {there : Option Entry} (named : place.isDots = false)
    (looked : tree.lookAt place = .ok there) :
    place.name.utf8ByteSize ≤ Path.longestName ∧ tree.get? place.location = there := by
  rw [lookAt, named, if_neg Bool.false_ne_true, look] at looked
  split at looked
  · cases looked
  · next short =>
      rw [Place.location_of_named named]
      exact ⟨Nat.not_lt.mp short, Except.ok.inj looked⟩

theorem lookAt_of_named {place : Place} (named : place.isDots = false)
    (short : place.name.utf8ByteSize ≤ Path.longestName) :
    tree.lookAt place = .ok (tree.get? place.location) := by
  rw [lookAt, named, if_neg Bool.false_ne_true, look, if_neg (Nat.not_lt.mpr short),
    ← Place.location_of_named named]

/-- A move that goes well puts the file where nothing or a file stood. -/
theorem moveTo_eq_ok {source : Location} {place : Place}
    (done : tree.moveTo source place = .ok moved) :
    place.isDots = false ∧ place.slashed = false ∧
      place.name.utf8ByteSize ≤ Path.longestName ∧ tree.get? place.location ≠ some .directory ∧
      ∃ entry, tree.get? source = some entry ∧
        moved = (tree.erase source).put place.location entry := by
  unfold moveTo at done
  split at done
  · cases done
  · next undotted =>
      have named : place.isDots = false := eq_false_of_ne_true undotted
      split at done
      · cases done
      · cases done
      · next entry there held looked =>
          obtain ⟨short, rfl⟩ := lookAt_eq_ok named looked
          split at done
          · cases done
          · next unslashed =>
              split at done
              · cases done
              · next free =>
                  refine ⟨named, eq_false_of_ne_true unslashed, short, ?_, entry, held,
                    (Except.ok.inj done).symm⟩
                  intro directory
                  rw [directory] at free
                  exact free rfl

/-- A file that stands at the end of a path is what the path opens. -/
theorem openEntry_of_find {path : String} {place : Place} {bytes : ByteArray}
    (found : tree.find path = .ok place) (named : place.isDots = false)
    (unslashed : place.slashed = false) (short : place.name.utf8ByteSize ≤ Path.longestName)
    (here : tree.get? place.location = some (.file bytes)) :
    tree.openEntry path = .ok (.file bytes) := by
  have looked : tree.lookAt place = _ := lookAt_of_named named short
  rw [here] at looked
  rw [openEntry, found]
  simp only [looked, unslashed]
  rfl

end Tree

namespace PendingOutput

variable {conditions : Conditions} {output : PendingOutput} {before tree next : Tree}
  {path : String} {failure : Failure}

/-- An output that is pending in a tree, and how the tree was before. -/
structure Stands (output : PendingOutput) (before tree : Tree) : Prop where
  named : ∃ directory serial, output.temporary = directory ++ [.temporary serial]
  reachable : ∃ directory, before.enter output.route = .ok directory
  fresh : before.get? output.temporary = none
  present : ∃ bytes, tree.get? output.temporary = some (.file bytes)
  others : ∀ location, location ≠ output.temporary → tree.get? location = before.get? location

theorem create_eq_ok (created : create conditions path tree = (.ok output, next)) :
    output.Stands tree next ∧ output.destination = path ∧
      output.batcher = .around conditions.emptySink Batcher.standardCapacity := by
  unfold create at created
  split at created
  · cases created
  · next directory allowed =>
      cases created
      refine ⟨⟨⟨directory, _, rfl⟩, ?_, tree.get?_freshName directory, ⟨.empty, ?_⟩, ?_⟩, rfl, rfl⟩
      · exact ⟨directory, (Conditions.barred_eq_ok allowed).2⟩
      · exact (tree.get?_addTemporary directory _).trans (if_pos rfl)
      · intro location elsewhere
        exact (tree.get?_addTemporary directory location).trans (if_neg elsewhere)

/-- An output that cannot be made leaves no trace. -/
theorem create_eq_error (failed : create conditions path tree = (.error failure, next)) :
    next = tree := by
  unfold create at failed
  split at failed
  · exact (Prod.mk.inj failed).2.symm
  · cases failed

namespace Stands

/-- Writing goes to the batcher, not to the tree. -/
theorem rewritten (stands : output.Stands before tree) (batcher : Batcher Device.Sink) :
    { output with batcher }.Stands before tree :=
  ⟨stands.named, stands.reachable, stands.fresh, stands.present, stands.others⟩

theorem alike (stands : output.Stands before tree) : Tree.Alike before tree := by
  intro location given
  apply stands.others
  obtain ⟨directory, serial, named⟩ := stands.named
  rw [named]
  exact given.ne_temporary directory serial

theorem temporary_ne_nil (stands : output.Stands before tree) : output.temporary ≠ [] := by
  obtain ⟨directory, serial, named⟩ := stands.named
  rw [named]
  exact List.append_ne_nil_of_right_ne_nil _ (List.cons_ne_nil _ _)

theorem isPresent (stands : output.Stands before tree) : output.isPresent tree = true := by
  obtain ⟨bytes, present⟩ := stands.present
  rw [PendingOutput.isPresent, Tree.isFile, present]

theorem isReachable (stands : output.Stands before tree) : output.isReachable tree = true := by
  obtain ⟨directory, entered⟩ := stands.reachable
  rw [PendingOutput.isReachable, stands.alike.enter, entered]
  rfl

/-- Dropping the output undoes all there was of it. -/
theorem unchanged_discard (stands : output.Stands before tree) :
    Tree.Unchanged before (output.discard tree) := by
  intro location
  rw [discard, if_pos ⟨stands.isPresent, stands.isReachable⟩,
    Tree.get?_erase _ _ stands.temporary_ne_nil]
  split
  · next same => rw [same, stands.fresh]
  · next elsewhere => exact stands.others location elsewhere

/-- Saving changes nothing but what the temporary file holds. -/
theorem save (stands : output.Stands before tree) :
    output.Stands before (output.save tree) ∧
      (output.save tree).get? output.temporary = some (.file output.batcher.inner.taken) := by
  have saved (location : Location) : (output.save tree).get? location =
      if location = output.temporary then some (.file output.batcher.inner.taken)
      else tree.get? location := by
    rw [PendingOutput.save, if_pos stands.isPresent, Tree.get?_put _ _ _ stands.temporary_ne_nil]
  have here := saved output.temporary
  rw [if_pos rfl] at here
  refine ⟨⟨stands.named, stands.reachable, stands.fresh, ⟨_, here⟩, ?_⟩, here⟩
  intro location elsewhere
  rw [saved, if_neg elsewhere]
  exact stands.others location elsewhere

/-- An output that was moved has replaced its destination. -/
theorem replaces_of_rename (stands : output.Stands before tree) {bytes : ByteArray}
    (here : tree.get? output.temporary = some (.file bytes))
    (done : tree.rename output.route output.temporary output.destination = .ok next) :
    before.Replaces next output.destination bytes := by
  obtain ⟨place, found, moved⟩ : ∃ place, tree.find output.destination = .ok place ∧
      tree.moveTo output.temporary place = .ok next := by
    unfold Tree.rename at done
    split at done
    · cases done
    · split at done
      · cases done
      · cases done
      · next place _ found => exact ⟨place, found, done⟩
  obtain ⟨named, unslashed, short, free, entry, held, rfl⟩ := Tree.moveTo_eq_ok moved
  obtain rfl : entry = .file bytes := Option.some.inj (held.symm.trans here)
  have given := Place.given_location (Tree.given_of_find found)
  have inside : place.location ≠ [] := by
    rw [Place.location_of_named named]
    exact List.append_ne_nil_of_right_ne_nil _ (List.cons_ne_nil _ _)
  -- The place was looked up beside the temporary file, which no path can see.
  rw [stands.alike.find] at found
  rw [stands.alike _ given] at free
  have entries (location : Location) :
      ((tree.erase output.temporary).put place.location (.file bytes)).get? location =
        if location = place.location then some (.file bytes) else before.get? location := by
    rw [Tree.get?_put _ _ _ inside, Tree.get?_erase _ _ stands.temporary_ne_nil]
    congr 1
    split
    · next same => rw [same, stands.fresh]
    · next elsewhere => exact stands.others location elsewhere
  refine ⟨?_, place, found, entries⟩
  apply Tree.openEntry_of_find (Tree.find_of_directories ?_ found named) named unslashed short
  · rw [entries, if_pos rfl]
  · intro location directory
    rw [entries, if_neg, directory]
    rintro rfl
    exact free directory

end Stands

/-! ## Putting the output in place -/

theorem place_eq_ok (stands : output.Stands before tree) {bytes : ByteArray}
    (here : tree.get? output.temporary = some (.file bytes))
    (done : output.place conditions tree = (.ok path, next)) :
    before.Replaces next output.destination bytes := by
  unfold place at done
  split at done
  · cases done
  · split at done
    · cases done
    · next moved allowed =>
        cases done
        exact stands.replaces_of_rename here (Conditions.barred_eq_ok allowed).2

theorem place_eq_error (stands : output.Stands before tree)
    (failed : output.place conditions tree = (.error failure, next)) :
    Tree.Unchanged before next := by
  unfold place at failed
  split at failed
  · cases failed
    exact stands.unchanged_discard
  · split at failed
    · cases failed
      exact stands.unchanged_discard
    · cases failed

/-- A commit that fails leaves every entry as it was. -/
theorem commit_eq_error (stands : output.Stands before tree)
    (failed : output.commit conditions tree = (.error failure, next)) :
    Tree.Unchanged before next := by
  unfold commit at failed
  rcases flushed : output.flush with ⟨error | _, output'⟩
  · rw [flushed] at failed
    cases failed
    obtain rfl : _ = output' := congrArg Prod.snd flushed
    exact (stands.rewritten _).unchanged_discard
  · rw [flushed] at failed
    obtain rfl : _ = output' := congrArg Prod.snd flushed
    exact place_eq_error (stands.rewritten _).save.1 failed

/-- A commit that succeeds puts all in place that is in the file and in the buffer. -/
theorem commit_eq_ok (stands : output.Stands before tree)
    (done : output.commit conditions tree = (.ok path, next)) :
    ∃ bytes, before.Replaces next output.destination bytes ∧
      bytes.data.toList = output.batcher.contents := by
  unfold commit at done
  rcases flushed : output.flush with ⟨error | _, output'⟩
  · rw [flushed] at done
    cases done
  · rw [flushed] at done
    obtain rfl : _ = output' := congrArg Prod.snd flushed
    obtain ⟨saved, here⟩ := (stands.rewritten output.batcher.flush.2).save
    have drained : output.batcher.flush = (.ok (), output.batcher.flush.2) :=
      Prod.ext (congrArg (·.1) flushed) rfl
    exact ⟨_, place_eq_ok saved here done, (Batcher.takenBytes_of_flush drained).2⟩

end PendingOutput

end TrackImage.Files
