import TrackImage.Proofs.Sector.Resuming

/-!
# Bytes reported and bytes handed on

A report counts sectors and checks bytes for its own pass, but its count of bytes
is the reader's. The two agree on a fresh reader; behind sectors that were passed
step by step the count is larger than the bytes that the pass handed on by just
these sectors.
-/

namespace TrackImage.Sector

open Device

/-- What a report counts beside the bytes of its pass, when some sectors were passed before. -/
structure Report.Counts (report : Report) (behind : Nat) (handed : List UInt8) : Prop where
  sectors : handed.length = 2048 * report.sectors
  emitted : report.emitted = 2048 * behind + handed.length
  emitted_iff : report.emitted = handed.length ↔ behind = 0

namespace PayloadReader

variable {σ : Type} [ByteSource σ]

theorem emitted_of_start {source : σ} {reader : PayloadReader σ}
    (started : (start source).1 = .ok reader) : reader.emitted = 0 := by
  unfold start at started
  split at started
  · cases started
  · cases started
    rfl

/-- The report on some payloads, from a reader that was fresh so many steps before. -/
theorem counts_reportOn {reader last : PayloadReader σ} (fresh : reader.emitted = 0) {steps : Nat}
    {run : List (List UInt8)} (gives : (reader.stepped steps).Gives run last) :
    ((reader.stepped steps).reportOn run).Counts (reader.passed steps) run.flatten := by
  obtain ⟨before, -⟩ := emitted_stepped reader fresh steps
  have counted : ((reader.stepped steps).reportOn run).emitted =
      2048 * reader.passed steps + run.flatten.length :=
    congrArg (· + run.flatten.length) before
  refine ⟨gives.emitted_eq.1, counted, ?_⟩
  rw [counted]
  omega

/--
However a reader got to where it stands, an extraction from there that succeeds
reports the bytes that it handed on and, on top of them, those of the sectors
passed before, given or lost at their footers. What it reports is what it handed
on just when there are none.
-/
theorem emitted_eq_handed_iff {source : σ} {reader : PayloadReader σ}
    (started : (start source).1 = .ok reader) (steps : Nat) (sink : Sink) (capacity : Nat) :
    let behind := reader.tally .gave steps + reader.tally .missedFooter steps
    let plain := (reader.stepped steps).extractTo sink
    let batched := (reader.stepped steps).extractTo (Batcher.around sink capacity)
    (∀ report, plain.1 = .ok report → ∃ handed,
        plain.2.sink.takenBytes = sink.takenBytes ++ handed ∧ report.Counts behind handed) ∧
      ∀ report, batched.1 = .ok report → ∃ handed,
        batched.2.sink.inner.takenBytes = sink.takenBytes ++ handed ∧
          batched.2.sink.accepted = handed.length ∧ report.Counts behind handed := by
  intro behind plain batched
  have fresh := emitted_of_start started
  refine ⟨?_, ?_⟩
  · intro report succeeded
    obtain ⟨run, last, gives, -, delivered, rfl⟩ := extractTo_gives succeeded
    exact ⟨run.flatten, Sink.takenBytes_of_deliverAll delivered, counts_reportOn fresh gives⟩
  · intro report succeeded
    obtain ⟨run, last, gives, -, delivered, rfl⟩ := extractTo_gives succeeded
    obtain ⟨-, accepted, taken⟩ := Batcher.takenBytes_of_deliverAll delivered
    rw [Batcher.contents_around] at taken
    exact ⟨run.flatten, taken, accepted.trans (Nat.zero_add _), counts_reportOn fresh gives⟩

/-- Behind the only sector an extraction hands nothing on and reports 2048 bytes. -/
theorem emitted_eq_handed_iff_behind_last_sector :
    let source : Source := { data := ⟨Array.replicate 2352 0⟩ }
    ∃ reader report, (start source).1 = .ok reader ∧
      (reader.stepped 0).next.result = .ok (some 0) ∧
      ((reader.stepped 1).extractTo ({} : Sink)).1 = .ok report ∧
      ((reader.stepped 1).extractTo ({} : Sink)).2.sink.takenBytes = [] ∧
      report.sectors = 0 ∧ report.emitted = 2048 := by
  intro source
  have size : source.data.size = 2352 := Array.size_replicate
  have length : source.length = 2352 := Option.getD_none.trans size
  have calm : source.OnlyInterrupted := by
    refine ⟨?_, rfl, ?_⟩
    · simp [source]
    · simp [source]
  have readable : readablePayloads source = 1 := by
    rw [readablePayloads, length, size]
    rfl
  obtain ⟨answered, -⟩ := @extractTo_stepped source {} calm (by rw [length, readable]) 1
    (by rw [length]) (Sink.Accepting.unlimited _)
  rw [length] at answered
  obtain ⟨_, given⟩ := next_stepped_atSector calm (show 0 < readablePayloads source by omega)
  have started : (start source).1 = .ok (atSector source 0 source.reads) :=
    start_of_clear rfl rfl
  obtain ⟨plain, -⟩ := emitted_eq_handed_iff started 1 {} 0
  obtain ⟨handed, taken, counts⟩ := plain _ answered
  obtain rfl := List.eq_nil_of_length_eq_zero counts.sectors
  exact ⟨_, _, started, congrArg PayloadStep.result given, answered, taken, rfl, rfl⟩

end PayloadReader

end TrackImage.Sector
