import TrackImage.Proofs.Device.Surviving
import TrackImage.Proofs.Files.Pending

/-!
# Committed outputs are what was written

Calls on a pending output show in its temporary file alone, so every path opens
as before. A commit that goes well replaces the destination by what the granted
calls wrote, part of which may not have left the buffer until then; a commit that
fails, and a drop, undo all there was of the output.
-/

namespace TrackImage

open Device

/-! ## Sinks that take all requests -/

namespace Batcher

variable {batcher next : Batcher Sink} {request : Request}

/-- A sink with room for more than a request has room for the rest behind it. -/
theorem accepting_of_serve {count left : Nat} (done : batcher.serve request = (.ok count, next))
    (willing : batcher.inner.Accepting ((batcher.pendingBytes ++ request.bytes).length + left)) :
    next.inner.Accepting (next.pendingBytes.length + left) := by
  cases request with
  | write bytes =>
      obtain ⟨-, -, -, -, pieces, delivered, ordered⟩ := write_eq_ok done
      obtain ⟨out, offers, last, -, whole⟩ := batcher.inner.deliverEach_snd pieces
      rw [delivered] at last whole
      obtain rfl := whole rfl
      have split := congrArg List.length ordered
      rw [List.length_append] at split
      rw [show next.inner = _ from last]
      refine Sink.Accepting.after (willing.of_le ?_) offers
      change _ ≤ (batcher.pendingBytes ++ bytes).length + left
      omega
  | flush =>
      obtain ⟨-, flushed⟩ := serve_flush_eq_ok done
      obtain ⟨empty, -, -, inner, delivered, last⟩ := flush_eq_ok flushed
      obtain ⟨out, offers, taken, -, whole⟩ := batcher.inner.deliver_snd batcher.pendingBytes
      rw [delivered] at taken whole
      obtain rfl := whole rfl
      have behind : inner.Accepting left := by
        rw [show inner = _ from taken]
        refine Sink.Accepting.after (willing.of_le ?_) offers
        rw [List.length_append]
        omega
      rw [Sink.eq_recordFlush last, empty, List.length_nil, Nat.zero_add]
      exact behind.recordFlush

/-- A sink that takes whatever is asked for grants every request. -/
theorem granted_of_accepting {requests : List Request}
    (willing : batcher.inner.Accepting
      (batcher.pendingBytes.length + (Request.offered requests).length)) :
    batcher.granted requests = requests ∧
      (batcher.served requests).inner.Accepting (batcher.served requests).pendingBytes.length := by
  induction requests generalizing batcher with
  | nil => exact ⟨rfl, willing⟩
  | cons request rest ih =>
      rw [Request.offered_cons, List.length_append, ← Nat.add_assoc, ← List.length_append]
        at willing
      obtain ⟨count, next, done⟩ :=
        serve_ok_of_accepting (willing.of_le (Nat.le_add_right _ _))
      obtain ⟨all, last⟩ := ih (accepting_of_serve done willing)
      rw [granted_cons_of_ok done, served_cons done, all]
      exact ⟨rfl, last⟩

theorem flush_of_accepting (willing : batcher.inner.Accepting batcher.pendingBytes.length) :
    ∃ next, batcher.flush = (.ok (), next) := by
  have room : batcher.inner.Accepting (batcher.pendingBytes ++ Request.flush.bytes).length := by
    rw [Request.bytes, List.append_nil]
    exact willing
  obtain ⟨count, next, done⟩ := serve_ok_of_accepting room
  exact ⟨next, (serve_flush_eq_ok done).2⟩

end Batcher

namespace Files

open Batcher (Request)

/-! ## Destinations -/

namespace Tree

variable {tree : Tree}

/-- A path with a name at its end under which a file can be put. -/
def Admits (tree : Tree) (path : String) : Prop :=
  ∃ place, tree.find path = .ok place ∧ place.isDots = false ∧ place.slashed = false ∧
    place.name.utf8ByteSize ≤ Path.longestName ∧ tree.get? place.location ≠ some .directory

/-- A file is moved to where nothing or a file stands. -/
theorem moveTo_of_free {source : Location} {place : Place} {entry : Entry}
    (named : place.isDots = false) (unslashed : place.slashed = false)
    (short : place.name.utf8ByteSize ≤ Path.longestName)
    (free : tree.get? place.location ≠ some .directory) (here : tree.get? source = some entry) :
    tree.moveTo source place = .ok ((tree.erase source).put place.location entry) := by
  rw [moveTo, named, if_neg Bool.false_ne_true, here, lookAt_of_named named short]
  simp only [unslashed, Bool.false_eq_true, if_false]

end Tree

namespace PendingOutput

variable {conditions : Conditions} {output : PendingOutput} {before tree : Tree}

/-- A destination that admits a file is not in the way of the temporary file's move. -/
theorem Stands.rename_of_admits (stands : output.Stands before tree)
    (admits : before.Admits output.destination) :
    ∃ moved, tree.rename output.route output.temporary output.destination = .ok moved := by
  obtain ⟨place, found, named, unslashed, short, free⟩ := admits
  obtain ⟨directory, entered⟩ := stands.reachable
  obtain ⟨bytes, present⟩ := stands.present
  have given := Place.given_location (Tree.given_of_find found)
  have sound : Path.fault? output.destination 0 = none := by
    unfold Tree.find at found
    split at found
    · cases found
    · assumption
  rw [← stands.alike _ given] at free
  rw [← stands.alike.find] at found
  rw [← stands.alike.enter] at entered
  have moved := Tree.moveTo_of_free named unslashed short free present
  refine ⟨_, Eq.trans ?_ moved⟩
  rw [Tree.rename, sound, entered, found]

/-- Behind its move the temporary file is gone. -/
theorem Stands.temporary_of_replaces {next : Tree} {path : String} {bytes : ByteArray}
    (stands : output.Stands before tree) (replaces : before.Replaces next path bytes) :
    next.get? output.temporary = none := by
  obtain ⟨place, found, entries⟩ := replaces.entries
  obtain ⟨directory, serial, named⟩ := stands.named
  have given := Place.given_location (Tree.given_of_find found)
  have apart := given.ne_temporary directory serial
  rw [← named] at apart
  rw [entries, if_neg apart.symm, stands.fresh]

/-! ## Calls on a pending output -/

/-- Deal with a request. -/
def serve (output : PendingOutput) : Request → Except IoError Nat × PendingOutput
  | .write bytes => output.write bytes
  | .flush => (output.flush.1.map fun () => 0, output.flush.2)

/-- The output after some calls, and the tree, in which each of them shows at once. -/
def served (output : PendingOutput) (tree : Tree) : List Request → PendingOutput × Tree
  | [] => (output, tree)
  | request :: rest =>
      let next := (output.serve request).2
      next.served (next.save tree) rest

theorem serve_eq (output : PendingOutput) (request : Request) :
    output.serve request = ((output.batcher.serve request).1,
      { output with batcher := (output.batcher.serve request).2 }) := by
  cases request with
  | write | flush => rfl

/-- Calls go to the batcher, and the output stays pending. -/
theorem Stands.served (stands : output.Stands before tree) (requests : List Request) :
    (output.served tree requests).1 = { output with batcher := output.batcher.served requests } ∧
      (output.served tree requests).1.Stands before (output.served tree requests).2 := by
  induction requests generalizing output tree with
  | nil => exact ⟨rfl, stands⟩
  | cons request rest ih =>
      rw [PendingOutput.served, serve_eq]
      have saved := (stands.rewritten (output.batcher.serve request).2).save.1
      exact ih saved

/-- What is left to commit: a flush, a sync and the move. -/
theorem commit_of_admits (stands : output.Stands before tree)
    (admits : before.Admits output.destination) (synced : conditions.syncing = none)
    (movable : conditions.moving = none)
    (flushed : ∃ batcher, output.batcher.flush = (.ok (), batcher)) :
    ∃ next, output.commit conditions tree = (.ok output.destination, next) := by
  obtain ⟨batcher, flushed⟩ := flushed
  have answer : output.flush = (.ok (), { output with batcher }) := by
    rw [PendingOutput.flush, flushed]
  obtain ⟨moved, renamed⟩ := (stands.rewritten batcher).save.1.rename_of_admits admits
  refine ⟨moved, ?_⟩
  rw [commit, answer]
  simp only [place, synced, movable, Conditions.barred]
  rw [renamed]

/--
Until it is committed an output leaves every path as it was, whatever is written
and however often its buffer fills up. A commit that goes well makes its
destination a file of the bytes of the granted calls in their order, all that was
written when no call failed; a drop and a commit that fails undo everything. No
call fails as long as the temporary file takes what it is given, and then a commit
fails only if the file cannot be synced or moved.
-/
theorem commit_delivers {path : String} {created : Tree}
    (made : create conditions path before = (.ok output, created)) (requests : List Request) :
    let granted := output.batcher.granted requests
    let pending := (output.served created requests).1
    let tree := (output.served created requests).2
    before.get? output.temporary = none ∧
      pending.accepted = (Request.offered granted).length ∧
      (∀ other, tree.openEntry other = before.openEntry other) ∧
      before.Unchanged (pending.discard tree) ∧
      (∀ failure next, pending.commit conditions tree = (.error failure, next) →
        before.Unchanged next) ∧
      (∀ place next, pending.commit conditions tree = (.ok place, next) →
        next.get? output.temporary = none ∧
        ∃ bytes, before.Replaces next path bytes ∧
          (Request.offered granted).Sublist bytes.data.toList ∧
          (granted = requests → bytes.data.toList = Request.offered requests)) ∧
      (conditions.emptySink.Accepting (Request.offered requests).length →
        granted = requests ∧
          (conditions.syncing = none → conditions.moving = none → before.Admits path →
            ∃ next, pending.commit conditions tree = (.ok path, next))) := by
  intro granted pending tree
  obtain ⟨fresh, destination, started⟩ := create_eq_ok made
  obtain ⟨written, stands⟩ := fresh.served requests
  have target : pending.destination = path :=
    (congrArg PendingOutput.destination written).trans destination
  have batched : pending.batcher = output.batcher.served requests :=
    congrArg PendingOutput.batcher written
  have keeps : Batcher.Keeps output.batcher (Request.offered granted) pending.batcher := by
    rw [batched]
    exact (Batcher.Keeps.refl output.batcher).served requests
  have whole : granted = requests → pending.batcher.contents = Request.offered requests := by
    intro all
    unfold granted at all
    rw [started] at all
    rw [batched, started]
    exact Batcher.contents_of_granted all
  refine ⟨fresh.fresh, ?_, stands.alike.openEntry, stands.unchanged_discard, ?_, ?_, ?_⟩
  · rw [started] at keeps
    exact keeps.accepted.trans (Nat.zero_add _)
  · intro failure next failed
    exact commit_eq_error stands failed
  · intro place next done
    obtain ⟨bytes, replaces, same⟩ := commit_eq_ok stands done
    rw [target] at replaces
    refine ⟨fresh.temporary_of_replaces replaces, bytes, replaces, ?_, ?_⟩
    · rw [same]
      exact (List.sublist_append_right _ _).trans keeps.contents
    · intro all
      rw [same]
      exact whole all
  · intro willing
    have room : output.batcher.inner.Accepting
        (output.batcher.pendingBytes.length + (Request.offered requests).length) := by
      rw [started, Batcher.pendingBytes_around, List.length_nil, Nat.zero_add]
      exact willing
    obtain ⟨all, behind⟩ := Batcher.granted_of_accepting room
    refine ⟨all, ?_⟩
    intro synced movable admits
    rw [← target] at admits ⊢
    rw [← batched] at behind
    exact commit_of_admits stands admits synced movable (Batcher.flush_of_accepting behind)

/-- Writes below and above 64 KiB over an old file in a directory. -/
theorem commit_delivers_past_capacity :
    let before : Tree :=
      { entries := [([.given "out"], .directory),
          ([.given "out", .given "disc.bin"], .file ⟨#[9, 9, 9]⟩)] }
    let requests : List Request :=
      [.write [1, 2], .write (List.replicate 65537 7), .flush, .write [3]]
    ∃ output created next, create .calm "out/disc.bin" before = (.ok output, created) ∧
      (output.served created requests).1.accepted = 65540 ∧
      (output.served created requests).2.openEntry "out/disc.bin" =
        .ok (.file ⟨#[9, 9, 9]⟩) ∧
      before.Unchanged
        ((output.served created requests).1.discard (output.served created requests).2) ∧
      (output.served created requests).1.commit .calm (output.served created requests).2 =
        (.ok "out/disc.bin", next) ∧
      next.get? output.temporary = none ∧
      ∃ bytes, next.openEntry "out/disc.bin" = .ok (.file bytes) ∧
        bytes.data.toList = [1, 2] ++ (List.replicate 65537 7 ++ [3]) := by
  intro before requests
  have creatable : (create .calm "out/disc.bin" before).1.isOk = true := by
    decide +kernel
  have opened : before.openEntry "out/disc.bin" = .ok (.file ⟨#[9, 9, 9]⟩) := by
    rfl
  have admits : before.Admits "out/disc.bin" :=
    ⟨⟨[.given "out"], "disc.bin", false⟩, rfl, rfl, rfl, by decide, nofun⟩
  have written : Request.offered requests = [1, 2] ++ (List.replicate 65537 7 ++ [3]) := by
    rfl
  rcases made : create .calm "out/disc.bin" before with ⟨failure | output, created⟩
  · rw [made] at creatable
    cases creatable
  · obtain ⟨-, counted, still, undone, -, done, succeeds⟩ := commit_delivers made requests
    obtain ⟨all, commits⟩ := succeeds (Sink.Accepting.unlimited _)
    obtain ⟨next, committed⟩ := commits rfl rfl admits
    obtain ⟨gone, bytes, replaces, -, whole⟩ := done _ _ committed
    rw [all, written, List.length_append, List.length_append, List.length_replicate] at counted
    exact ⟨output, created, next, rfl, counted, (still _).trans opened, undone, committed, gone,
      bytes, replaces.opens, (whole all).trans written⟩

end PendingOutput

end Files

end TrackImage
