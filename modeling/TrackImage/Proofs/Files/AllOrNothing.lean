import TrackImage.Command.Outcome
import TrackImage.Proofs.Device.Serving
import TrackImage.Proofs.Files.Pending
import TrackImage.Proofs.Sector.Delivering
import TrackImage.Proofs.Table.Complete

/-!
# All or nothing

A run on files either fails and leaves every entry of the tree as it was, or it
succeeds and has replaced its output by what the same pass over the same bytes
gives in memory, where nothing can fail. A tool answers with its exit code which
of the two it was.
-/

namespace TrackImage

open Device

namespace Files

/-! ## Passes in memory -/

/-- The answer of a pass over some bytes when nothing goes wrong, and all that it writes. -/
abbrev InMemory (ρ : Type) : Type :=
  ByteArray → Except Failure ρ × ByteArray

def extractBytes : InMemory Sector.Report := fun bytes =>
  let run := Sector.extract (Source.ofBytes bytes) ({} : Sink)
  (run.1, run.2.1.taken)

def scanBytes : InMemory Table.Report := fun bytes =>
  let run := Table.scan (Source.ofBytes bytes) ({} : Sink)
  (run.1, run.2.1.taken)

/-- Whenever a pass over a file succeeds, it has done what the pass in memory does. -/
def Faithful {ρ : Type} (pass : FilePass ρ) (inMemory : InMemory ρ) : Prop :=
  ∀ (source : Source) (sink : Sink) (capacity : Nat) (report : ρ), source.claimed = none →
    sink.taken = .empty → (pass source (.around sink capacity)).1 = .ok report →
    (inMemory source.data).1 = .ok report ∧
      (pass source (.around sink capacity)).2.1.contents = (inMemory source.data).2.data.toList

section Faithful

variable {source : Source} {sink : Sink}

theorem length_of_unclaimed (unclaimed : source.claimed = none) :
    source.length = source.data.size := by
  rw [Source.length, unclaimed, Option.getD_none]

/-- A fresh batcher of a fresh sink holds what is delivered to it. -/
theorem contents_of_fresh {capacity : Nat} {pieces : List (List UInt8)} {last : Batcher Sink}
    (fresh : sink.taken = .empty)
    (delivered : deliverAll (Batcher.around sink capacity) pieces = (.ok (), last)) :
    last.contents = pieces.flatten := by
  rw [Batcher.contents_of_deliverAll delivered, Batcher.contents_around, Sink.takenBytes, fresh]
  rfl

/-- The extraction in memory, by the length and the bytes of any source of its data. -/
theorem extractBytes_data (unclaimed : source.claimed = none) :
    (extractBytes source.data).1 = .ok (Sector.completeReport source) ∧
      (extractBytes source.data).2.data.toList =
        (Sector.layout.pieces source.bytes (source.length / 2352)).flatten := by
  have same : (Source.ofBytes source.data).length = source.length :=
    (length_of_unclaimed unclaimed).symm
  obtain ⟨answer, written⟩ := Sector.extract_ofBytes source.data
  rw [Sector.completeReport, same] at answer
  rw [same] at written
  exact ⟨answer, written⟩

/-- The scan in memory, by the length and the bytes of any source of its data. -/
theorem scanBytes_data (unclaimed : source.claimed = none) :
    (scanBytes source.data).1 = .ok (Table.completeReport source) ∧
      (scanBytes source.data).2.data.toList =
        (Table.Scan.pieces source.bytes source.length
          (Table.Window.countIn source.length)).flatten := by
  have same : (Source.ofBytes source.data).length = source.length :=
    (length_of_unclaimed unclaimed).symm
  obtain ⟨answer, written⟩ := Table.scan_ofBytes source.data
  rw [Table.completeReport, same] at answer
  rw [same] at written
  exact ⟨answer, written.trans (Table.Scan.flatten_pieces _ _ _).symm⟩

theorem faithful_extract : Faithful Sector.extract extractBytes := by
  intro source sink capacity report unclaimed fresh succeeded
  obtain ⟨rfl, delivered⟩ := Sector.extract_eq_ok succeeded
  obtain ⟨answer, written⟩ := extractBytes_data unclaimed
  exact ⟨answer, (contents_of_fresh fresh delivered).trans written.symm⟩

theorem faithful_scan : Faithful Table.scan scanBytes := by
  intro source sink capacity report unclaimed fresh succeeded
  obtain ⟨rfl, delivered⟩ := Table.scan_eq_ok succeeded
  obtain ⟨answer, written⟩ := scanBytes_data unclaimed
  exact ⟨answer, (contents_of_fresh fresh delivered).trans written.symm⟩

end Faithful

/-! ## Runs -/

/--
A run on an opened input has changed nothing and failed, or replaced its output by
all of the result.
-/
inductive AllOrNothing {ρ : Type} (inMemory : InMemory ρ) (opened : Except IoError Entry)
    (output : String) (before : Tree) : Except Failure ρ → Tree → Prop where
  | nothing {failure : Failure} {after : Tree} (same : before.Unchanged after) :
      AllOrNothing inMemory opened output before (.error failure) after
  | all {report : ρ} {bytes : ByteArray} {after : Tree} (input : opened = .ok (.file bytes))
      (complete : (inMemory bytes).1 = .ok report)
      (replaced : before.Replaces after output (inMemory bytes).2) :
      AllOrNothing inMemory opened output before (.ok report) after

namespace AllOrNothing

variable {ρ φ : Type} {inMemory : InMemory ρ} {opened : Except IoError Entry} {output : String}
  {before after : Tree} {result : Except Failure ρ}

theorem map (settled : AllOrNothing inMemory opened output before result after) (forget : ρ → φ) :
    AllOrNothing (fun bytes => ((inMemory bytes).1.map forget, (inMemory bytes).2)) opened output
      before (result.map forget) after := by
  cases settled with
  | nothing same => exact .nothing same
  | all input complete replaced => exact .all input (by rw [complete]; rfl) replaced

/-- What was opened in spite of a fault was there to be opened. -/
theorem of_barred {fault : Option IoError}
    (settled : AllOrNothing inMemory (Conditions.barred fault opened) output before result after) :
    AllOrNothing inMemory opened output before result after := by
  cases settled with
  | nothing same => exact .nothing same
  | all input complete replaced =>
      exact .all (Conditions.barred_eq_ok input).2 complete replaced

end AllOrNothing

variable {ρ : Type} {pass : FilePass ρ} {inMemory : InMemory ρ} {announce : ρ → String → Event}
  {conditions : Conditions} {job : Job} {opened : Except IoError Entry} {before tree : Tree}
  {output : PendingOutput}

/-- The output of a pass that is over is put in place as a whole or not at all. -/
theorem allOrNothing_conclude (stands : output.Stands before tree) {result : Except Failure ρ}
    (complete : ∀ report, result = .ok report → ∃ bytes, opened = .ok (.file bytes) ∧
      (inMemory bytes).1 = .ok report ∧
        output.batcher.contents = (inMemory bytes).2.data.toList) (events : List Event) :
    let run := Run.conclude conditions announce output tree (result, events)
    AllOrNothing inMemory opened output.destination before run.result run.tree := by
  unfold Run.conclude
  cases result with
  | error failure => exact .nothing stands.unchanged_discard
  | ok report =>
      rcases committed : output.commit conditions tree with ⟨failure | path, after⟩
      · exact .nothing (PendingOutput.commit_eq_error stands committed)
      · obtain ⟨bytes, input, answer, contents⟩ := complete report rfl
        obtain ⟨written, replaces, same⟩ := PendingOutput.commit_eq_ok stands committed
        obtain rfl : written = (inMemory bytes).2 :=
          ByteArray.ext (Array.toList_inj.mp (same.trans contents))
        exact .all input answer replaces

/-- Whatever goes wrong behind the opening of its input, a run is all or nothing. -/
theorem allOrNothing_ofOpened (faithful : Faithful pass inMemory)
    (unclaimed : conditions.reading.claimed = none) (job : Job) (opened : Except IoError Entry)
    (before : Tree) :
    let run := Run.ofOpened pass announce conditions job opened before
    AllOrNothing inMemory opened job.output before run.result run.tree := by
  unfold Run.ofOpened
  cases opened with
  | error error => exact .nothing fun _ => rfl
  | ok input =>
      rcases created : PendingOutput.create conditions job.output before with
        ⟨failure | output, tree⟩
      · obtain rfl := PendingOutput.create_eq_error created
        exact .nothing fun _ => rfl
      · obtain ⟨stands, destination, fresh⟩ := PendingOutput.create_eq_ok created
        have passed := stands.rewritten (Run.passOn pass conditions output.batcher input).2.1
        rw [← destination]
        refine allOrNothing_conclude passed ?_ _
        intro report succeeded
        cases input with
        | directory => cases succeeded
        | file bytes =>
            rw [fresh] at succeeded ⊢
            obtain ⟨answer, contents⟩ := faithful (conditions.sourceOf bytes) conditions.emptySink
              Batcher.standardCapacity report unclaimed rfl succeeded
            exact ⟨bytes, rfl, answer, contents⟩

/-- Whatever goes wrong, and wherever, a run on files is all or nothing. -/
theorem allOrNothing_ofPass (faithful : Faithful pass inMemory)
    (unclaimed : conditions.reading.claimed = none) (job : Job) (before : Tree) :
    let run := Run.ofPass pass announce conditions job before
    AllOrNothing inMemory (before.openEntry job.input) job.output before run.result run.tree :=
  (allOrNothing_ofOpened faithful unclaimed job _ before).of_barred

end Files

end TrackImage
