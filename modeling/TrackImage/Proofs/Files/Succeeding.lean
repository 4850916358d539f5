import TrackImage.Proofs.Files.AllOrNothing
import TrackImage.Proofs.Files.Committing
import TrackImage.Proofs.Table.Resuming

/-!
# Runs that nothing stops

A run fails only if something is in its way. If the input can be opened and
read, the temporary file can be made and has room for the result, and the
destination is free to become a file, then the run succeeds, however short the
reads and writes on its way are and however often they are interrupted.
-/

namespace TrackImage

open Device

namespace Files

/-- Nothing lasting goes wrong, and the temporary file has room for so many bytes. -/
structure Conditions.Permit (conditions : Conditions) (count : Nat) : Prop where
  opening : conditions.opening = none
  creating : conditions.creating = none
  syncing : conditions.syncing = none
  moving : conditions.moving = none
  unclaimed : conditions.reading.claimed = none
  reading : conditions.reading.OnlyInterrupted
  writing : conditions.emptySink.Accepting count

theorem Conditions.Permit.onlyInterrupted {conditions : Conditions} {count : Nat}
    (permit : conditions.Permit count) (bytes : ByteArray) :
    (conditions.sourceOf bytes).OnlyInterrupted :=
  ⟨permit.reading.reads, permit.reading.seeks, permit.reading.moves⟩

/-! ## Passes that nothing stops -/

/-- With nothing lasting in its way a pass succeeds, and its output can be flushed again. -/
def Undeterred {ρ : Type} (pass : FilePass ρ) (inMemory : InMemory ρ) : Prop :=
  ∀ (source : Source) (sink : Sink) (capacity : Nat), source.claimed = none →
    source.OnlyInterrupted → sink.Accepting (inMemory source.data).2.size →
    ∃ report last events, pass source (.around sink capacity) = (.ok report, last, events) ∧
      ∃ next, last.flush = (.ok (), next)

section Undeterred

variable {source : Source} {sink : Sink}

/-- A fresh batcher of a sink with room for all pieces delivers them and can be flushed again. -/
theorem deliverAll_of_room (capacity : Nat) {pieces : List (List UInt8)}
    (willing : sink.Accepting pieces.flatten.length) :
    ∃ last, deliverAll (Batcher.around sink capacity) pieces = (.ok (), last) ∧
      ∃ next, last.flush = (.ok (), next) := by
  have room : (Batcher.around sink capacity).inner.Accepting
      ((Batcher.around sink capacity).pendingBytes ++ pieces.flatten).length := by
    rw [Batcher.pendingBytes_around, List.nil_append]
    exact willing
  obtain ⟨last, delivered, empty, free⟩ := Batcher.deliverAll_of_accepting room
  refine ⟨last, delivered, Batcher.flush_of_accepting ?_⟩
  rw [empty]
  exact free

theorem size_eq_length {bytes : ByteArray} {written : List UInt8}
    (same : bytes.data.toList = written) : bytes.size = written.length := by
  rw [← same, Array.length_toList]
  rfl

theorem undeterred_extract : Undeterred Sector.extract extractBytes := by
  intro source sink capacity unclaimed calm willing
  rw [size_eq_length (extractBytes_data unclaimed).2] at willing
  obtain ⟨last, delivered, flushed⟩ := deliverAll_of_room capacity willing
  obtain ⟨answered, sunk⟩ :=
    Sector.extract_of_delivered calm (Sector.readable_of_unclaimed unclaimed) delivered
  exact ⟨_, last, _, Prod.ext answered (Prod.ext sunk rfl), flushed⟩

theorem undeterred_scan : Undeterred Table.scan scanBytes := by
  intro source sink capacity unclaimed calm willing
  rw [size_eq_length (scanBytes_data unclaimed).2] at willing
  obtain ⟨last, delivered, flushed⟩ := deliverAll_of_room capacity willing
  obtain ⟨answered, sunk⟩ :=
    Table.scan_of_delivered calm (Nat.le_of_eq (length_of_unclaimed unclaimed)) delivered
  exact ⟨_, last, _, Prod.ext answered (Prod.ext sunk rfl), flushed⟩

end Undeterred

/-! ## Runs on files -/

variable {ρ : Type} {pass : FilePass ρ} {inMemory : InMemory ρ} {conditions : Conditions}
  {job : Job} {tree : Tree} {bytes : ByteArray}

/-- With nothing in its way a run on files succeeds. -/
theorem ofPass_of_permit (undeterred : Undeterred pass inMemory)
    (announce : ρ → String → Event) (opened : tree.openEntry job.input = .ok (.file bytes))
    (permit : conditions.Permit (inMemory bytes).2.size)
    (entered : ∃ directory, tree.enter (Path.parent job.output) = .ok directory)
    (admits : tree.Admits job.output) :
    ∃ report, (Run.ofPass pass announce conditions job tree).result = .ok report := by
  obtain ⟨directory, entered⟩ := entered
  obtain ⟨output, created, made⟩ : ∃ output created,
      PendingOutput.create conditions job.output tree = (.ok output, created) := by
    unfold PendingOutput.create
    rw [permit.creating, Conditions.barred, entered]
    exact ⟨_, _, rfl⟩
  obtain ⟨stands, destination, fresh⟩ := PendingOutput.create_eq_ok made
  obtain ⟨report, last, events, passed, flushed⟩ := undeterred (conditions.sourceOf bytes)
    conditions.emptySink Batcher.standardCapacity permit.unclaimed (permit.onlyInterrupted bytes)
    permit.writing
  rw [← destination] at admits
  obtain ⟨next, committed⟩ := PendingOutput.commit_of_admits (stands.rewritten last) admits
    permit.syncing permit.moving flushed
  refine ⟨report, ?_⟩
  unfold Run.ofPass Run.ofOpened
  rw [permit.opening, Conditions.barred, opened]
  simp only [made, fresh, Run.passOn, passed, Run.conclude, committed]

/-! ## What a run that succeeds has not met -/

theorem PendingOutput.free_of_create {output : PendingOutput} {path : String} {next : Tree}
    (created : create conditions path tree = (.ok output, next)) : conditions.creating = none := by
  unfold create at created
  split at created
  · cases created
  · next allowed => exact (Conditions.barred_eq_ok allowed).1

theorem PendingOutput.free_of_commit {output : PendingOutput} {path : String} {next : Tree}
    (done : output.commit conditions tree = (.ok path, next)) :
    conditions.syncing = none ∧ conditions.moving = none := by
  unfold commit place at done
  split at done
  · cases done
  · split at done
    · cases done
    · next synced =>
        split at done
        · cases done
        · next allowed => exact ⟨synced, (Conditions.barred_eq_ok allowed).1⟩

theorem Run.free_of_conclude {announce : ρ → String → Event} {output : PendingOutput} {report : ρ}
    {passed : Except Failure ρ × List Event}
    (succeeded : (Run.conclude conditions announce output tree passed).result = .ok report) :
    conditions.syncing = none ∧ conditions.moving = none := by
  unfold conclude at succeeded
  split at succeeded
  · cases succeeded
  · split at succeeded
    · cases succeeded
    · next committed => exact PendingOutput.free_of_commit committed

/-- A run that succeeds met none of the faults around its pass. -/
theorem free_of_ofPass {announce : ρ → String → Event} {report : ρ}
    (succeeded : (Run.ofPass pass announce conditions job tree).result = .ok report) :
    conditions.opening = none ∧ conditions.creating = none ∧ conditions.syncing = none ∧
      conditions.moving = none := by
  unfold Run.ofPass Run.ofOpened at succeeded
  split at succeeded
  · cases succeeded
  · next opened =>
      split at succeeded
      · cases succeeded
      · next created =>
          exact ⟨(Conditions.barred_eq_ok opened).1, PendingOutput.free_of_create created,
            Run.free_of_conclude succeeded⟩

end Files

end TrackImage
