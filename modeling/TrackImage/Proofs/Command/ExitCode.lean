import TrackImage.Command.Outcome
import TrackImage.Proofs.Files.Succeeding

/-!
# What an exit code says

A tool that is given an input exits with zero just when it has put the complete
result at its default output, and with one when it has changed nothing. Asked
for help or for its version, and refusing its arguments, it changes nothing.
-/

namespace TrackImage.Command

open Device Files

namespace Tool

/-- What a tool makes of some bytes when nothing goes wrong. -/
def inMemory (tool : Tool) : InMemory Unit := fun bytes =>
  match tool with
  | extractData => ((extractBytes bytes).1.map fun _ => (), (extractBytes bytes).2)
  | getTables => ((scanBytes bytes).1.map fun _ => (), (scanBytes bytes).2)

theorem inMemory_extractData (bytes : ByteArray) :
    (extractData.inMemory bytes).2 = (extractBytes bytes).2 :=
  rfl

variable {conditions : Conditions} {tree : Tree}

/-- Whatever was opened as input, a tool changes nothing or does all of its work. -/
theorem allOrNothing_processOpened (unclaimed : conditions.reading.claimed = none) (tool : Tool)
    (input : String) (opened : Except IoError Entry) (tree : Tree) :
    let run := tool.processOpened conditions input opened tree
    AllOrNothing tool.inMemory opened tool.output tree run.result run.tree := by
  cases tool with
  | extractData =>
      exact (allOrNothing_ofOpened faithful_extract unclaimed (.extraction input) opened tree).map _
  | getTables =>
      exact (allOrNothing_ofOpened faithful_scan unclaimed (.scan input) opened tree).map _

theorem allOrNothing_process (unclaimed : conditions.reading.claimed = none) (tool : Tool)
    (input : String) (tree : Tree) :
    let run := tool.process conditions input tree
    AllOrNothing tool.inMemory (tree.openEntry input) tool.output tree run.result run.tree := by
  rw [process_eq]
  exact (allOrNothing_processOpened unclaimed tool input _ tree).of_barred

/-- The output is a name in the working directory, free unless that is itself a directory. -/
theorem admits_output (tool : Tool) (free : tree.get? [.given tool.output] ≠ some .directory) :
    tree.Admits tool.output ∧ tree.enter (Path.parent tool.output) = .ok [] := by
  cases tool with
  | extractData =>
      exact ⟨⟨⟨[], "output.bin", false⟩, rfl, rfl, rfl, by decide, free⟩, rfl⟩
  | getTables =>
      exact ⟨⟨⟨[], "all-tables.txt", false⟩, rfl, rfl, rfl, by decide, free⟩, rfl⟩

theorem forget_eq_ok {ρ : Type} {run : Run ρ} :
    run.forget.result = .ok () ↔ ∃ report, run.result = .ok report := by
  rw [Run.forget]
  rcases run.result with failure | report
  · exact ⟨nofun, nofun⟩
  · exact ⟨fun _ => ⟨report, rfl⟩, fun _ => rfl⟩

/-- With nothing in its way a tool succeeds. -/
theorem process_of_permit {tool : Tool} {input : String} {bytes : ByteArray}
    (opened : tree.openEntry input = .ok (.file bytes))
    (permit : conditions.Permit (tool.inMemory bytes).2.size)
    (free : tree.get? [.given tool.output] ≠ some .directory) :
    (tool.process conditions input tree).result = .ok () := by
  obtain ⟨admits, entered⟩ := tool.admits_output free
  cases tool with
  | extractData =>
      exact forget_eq_ok.mpr
        (ofPass_of_permit undeterred_extract _ opened permit ⟨_, entered⟩ admits)
  | getTables =>
      exact forget_eq_ok.mpr (ofPass_of_permit undeterred_scan _ opened permit ⟨_, entered⟩ admits)

/-- A tool that succeeds met none of the faults around its pass. -/
theorem free_of_process {tool : Tool} {input : String}
    (succeeded : (tool.process conditions input tree).result = .ok ()) :
    conditions.opening = none ∧ conditions.creating = none ∧ conditions.syncing = none ∧
      conditions.moving = none := by
  cases tool with
  | extractData | getTables =>
      obtain ⟨report, complete⟩ := forget_eq_ok.mp succeeded
      exact free_of_ofPass complete

/-- The exit code is zero just when the run succeeds. -/
theorem exitCode_eq_zero_iff {tool : Tool} {arguments : List String} {input : String}
    (asked : Request.of? arguments = some (.process input)) :
    (tool.execute conditions arguments tree).exitCode = 0 ↔
      (tool.process conditions input tree).result = .ok () := by
  rw [execute, asked]
  simp only [Outcome.ofRun]
  cases (tool.process conditions input tree).result with
  | error => exact ⟨nofun, nofun⟩
  | ok => exact ⟨fun _ => rfl, fun _ => rfl⟩

/--
Runs on files are all or nothing, and the exit code of a tool that is given an
input tells which of the two it was.
-/
theorem execute_allOrNothing (unclaimed : conditions.reading.claimed = none) (tree : Tree) :
    (∀ job, AllOrNothing extractBytes (tree.openEntry job.input) job.output tree
        (extractFile conditions job tree).result (extractFile conditions job tree).tree) ∧
      (∀ job, AllOrNothing scanBytes (tree.openEntry job.input) job.output tree
        (scanFile conditions job tree).result (scanFile conditions job tree).tree) ∧
      ∀ (tool : Tool) (arguments : List String),
        let outcome := tool.execute conditions arguments tree
        match Request.of? arguments with
        | some (.process input) =>
            (outcome.exitCode = 0 ∧ ∃ bytes, tree.openEntry input = .ok (.file bytes) ∧
              (tool.inMemory bytes).1 = .ok () ∧
              tree.Replaces outcome.tree tool.output (tool.inMemory bytes).2) ∨
            outcome.exitCode = 1 ∧ tree.Unchanged outcome.tree
        | some .help | some .version => outcome.exitCode = 0 ∧ outcome.tree = tree
        | none => outcome.exitCode = 2 ∧ outcome.tree = tree := by
  refine ⟨fun job => allOrNothing_ofPass faithful_extract unclaimed job tree,
    fun job => allOrNothing_ofPass faithful_scan unclaimed job tree, ?_⟩
  intro tool arguments
  unfold execute
  rcases Request.of? arguments with _ | ⟨input⟩ | _ | _
  · exact ⟨rfl, rfl⟩
  · have settled := allOrNothing_process unclaimed tool input tree
    simp only [Outcome.ofRun]
    generalize tool.process conditions input tree = run at settled ⊢
    obtain ⟨result, after, events⟩ := run
    cases settled with
    | nothing same => exact .inr ⟨rfl, same⟩
    | @all _ bytes _ opened complete replaced => exact .inl ⟨rfl, bytes, opened, complete, replaced⟩
  · exact ⟨rfl, rfl⟩
  · exact ⟨rfl, rfl⟩

/--
The payload of one sector, read and written in pieces, takes an old output's place;
when it cannot be moved there the old output stays.
-/
theorem execute_allOrNothing_one_sector :
    let interruption : Lapse := .fails ⟨.interrupted, "interrupted", []⟩
    let image : ByteArray := ⟨Array.replicate 2352 7⟩
    let tree : Tree :=
      { entries := [([.given "disc.raw"], .file image), ([.given "output.bin"], .file ⟨#[1, 2]⟩)] }
    let slow : Conditions :=
      { reading := { data := .empty, maxRead := some 1000, readFaults := [⟨1, interruption⟩] }
        writing := { maxWrite := some 100 } }
    let stuck : Conditions := { slow with moving := some IoError.resourceBusy }
    ∃ payload : ByteArray, payload.data.toList = List.replicate 2048 7 ∧
      (extractData.execute slow ["disc.raw"] tree).exitCode = 0 ∧
      tree.Replaces (extractData.execute slow ["disc.raw"] tree).tree "output.bin" payload ∧
      (extractData.execute stuck ["disc.raw"] tree).exitCode = 1 ∧
      tree.Unchanged (extractData.execute stuck ["disc.raw"] tree).tree := by
  intro interruption image tree slow stuck
  have written : (extractData.inMemory image).2.data.toList = List.replicate 2048 7 := by
    have sectors : (Source.ofBytes image).length / 2352 = 1 := by
      rw [show (Source.ofBytes image).length = image.data.size from rfl, Array.size_replicate]
    have bytes : (Source.ofBytes image).bytes = List.replicate 2352 7 := Array.toList_replicate
    have payload : Sector.layout.payloadOf (List.replicate 2352 7) 0 = List.replicate 2048 7 := by
      rw [Sector.Layout.payloadOf, List.extract_eq_take_drop, List.drop_replicate,
        List.take_replicate]
      rfl
    have pieces := (extractBytes_data (Eq.refl (Source.ofBytes image).claimed)).2
    rw [sectors, bytes, Sector.Layout.pieces, List.range_one, List.map_singleton,
      List.flatten_singleton, payload] at pieces
    rw [inMemory_extractData]
    exact pieces
  have permit (count : Nat) : slow.Permit count := by
    refine ⟨rfl, rfl, rfl, rfl, rfl, ⟨?_, rfl, ?_⟩, ⟨?_, rfl, ?_, ?_⟩⟩
    · simp [slow, interruption, IoError.Passing]
    · simp [slow]
    · simp [slow, Conditions.emptySink]
    · simp [slow, Conditions.emptySink]
    · simp [slow, Conditions.emptySink]
  clear_value image
  have asked : Request.of? ["disc.raw"] = some (.process "disc.raw") := by decide
  have opened : tree.openEntry "disc.raw" = .ok (.file image) := by rfl
  have free : tree.get? [.given extractData.output] ≠ some .directory := by
    intro directory
    cases directory
  have succeeded : (extractData.execute slow ["disc.raw"] tree).exitCode = 0 :=
    (exitCode_eq_zero_iff asked).mpr (process_of_permit opened (permit _) free)
  have told := (@execute_allOrNothing slow rfl tree).2.2 extractData ["disc.raw"]
  have told' := (@execute_allOrNothing stuck rfl tree).2.2 extractData ["disc.raw"]
  simp only [asked] at told told'
  refine ⟨_, written, succeeded, ?_, ?_⟩
  · rcases told with ⟨-, bytes, input, -, replaced⟩ | ⟨refused, -⟩
    · rw [opened] at input
      cases input
      exact replaced
    · rw [succeeded] at refused
      cases refused
  · rcases told' with ⟨done, -⟩ | failed
    · obtain ⟨-, -, -, movable⟩ := free_of_process ((exitCode_eq_zero_iff asked).mp done)
      cases movable
    · exact failed

/-- Asked for help, a tool succeeds, and there is no output. -/
theorem execute_help_without_output :
    let outcome := extractData.execute .calm ["--help"] {}
    outcome.exitCode = 0 ∧ ∀ bytes, ¬ Tree.Replaces {} outcome.tree extractData.output bytes := by
  refine ⟨by decide, ?_⟩
  intro bytes replaced
  have missing : Tree.openEntry {} extractData.output = .error .notFound := rfl
  have opens := replaced.opens
  rw [show (extractData.execute .calm ["--help"] {}).tree = {} from rfl, missing] at opens
  cases opens

end Tool

end TrackImage.Command
