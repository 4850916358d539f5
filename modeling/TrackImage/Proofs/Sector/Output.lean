import TrackImage.Proofs.Device.Writing
import TrackImage.Proofs.Sector.Progress

/-!
# What an extraction gives out

As long as nothing fails, an extraction has copied the first so many payloads
of its image, and checksum and counter are those of the copied bytes. From this
follow the output of a run that meets no lasting fault, and what can be relied
on when a run stops early.
-/

namespace TrackImage.Sector

open Device

namespace Extraction

/-- The first so many payloads of a source were read and are in the sink. -/
structure HasCopied (origin : Source) (before : Sink) (count : Nat)
    (pass : Extraction Source Sink) : Prop extends HasRead origin count pass where
  sink : ∃ offers, pass.sink = before.after (layout.payloads origin.bytes count) offers

namespace HasCopied

variable {origin : Source} {before : Sink} {count : Nat} {pass : Extraction Source Sink}

theorem initial (origin : Source) (before : Sink) (reads : Nat) :
    HasCopied origin before 0 { reader := .atSector origin 0 reads, sink := before } where
  toHasRead := .initial origin before reads
  sink := ⟨[], before.after_nil.symm⟩

/-- Copying one payload more. -/
theorem advance {next : Extraction Source Sink} (held : HasCopied origin before count pass)
    (step : pass.advance = (.ok true, next)) : HasCopied origin before (count + 1) next := by
  obtain ⟨offers, taken⟩ := held.sink
  obtain ⟨read, delivered⟩ := held.toHasRead.advance step
  rw [taken, ← deliverEach_singleton] at delivered
  obtain ⟨offers', last⟩ := Sink.after_of_delivered delivered
  refine ⟨read, offers', ?_⟩
  rw [last, Layout.payloads_succ, List.flatten_singleton]

/-- Copying some payloads more. -/
theorem goes {further : Nat} {last : Extraction Source Sink}
    (held : HasCopied origin before count pass) (goes : Goes Extraction.advance further pass last) :
    HasCopied origin before (count + further) last :=
  goes.keeps HasCopied.advance held

theorem length_payloads (held : HasCopied origin before count pass) :
    (layout.payloads origin.bytes count).length = 2048 * count :=
  length_payloads_of_readable held.readable

theorem takenBytes (held : HasCopied origin before count pass) :
    pass.sink.takenBytes = before.takenBytes ++ layout.payloads origin.bytes count := by
  obtain ⟨offers, taken⟩ := held.sink
  rw [taken, Sink.takenBytes_after]

theorem calls (held : HasCopied origin before count pass) :
    ∃ offers : List Nat, pass.sink.calls.toList = before.calls.toList ++ offers.map .write := by
  obtain ⟨offers, taken⟩ := held.sink
  exact ⟨offers, by rw [taken, Sink.calls_after]⟩

/-! ## Devices without lasting faults -/

/-- The next payload is copied when it is there and the sink has room for it. -/
theorem exists_advance (held : HasCopied origin before count pass) (calm : origin.OnlyInterrupted)
    (willing : before.Accepting (2048 * (count + 1))) (behind : count < readablePayloads origin) :
    ∃ next, pass.advance = (.ok true, next) := by
  obtain ⟨offers, taken⟩ := held.sink
  have read := held.exists_read calm behind
  obtain ⟨-, payload, -⟩ := held.of_read read
  have room : pass.sink.Accepting (layout.payloadOf origin.bytes count).length := by
    rw [taken, length_payloadOf_of_lt behind]
    apply Sink.Accepting.after
    rw [held.length_payloads]
    exact willing.of_le (Nat.le_refl _)
  obtain ⟨further, delivered⟩ := room.deliver_eq
  rw [advance_of_read read, payload, delivered]
  exact ⟨_, rfl⟩

/-- All payloads up to one that is there are copied. -/
theorem exists_goes {goal : Nat} (held : HasCopied origin before 0 pass)
    (calm : origin.OnlyInterrupted) (willing : before.Accepting (2048 * goal))
    (whole : goal ≤ readablePayloads origin) :
    ∃ last, Goes Extraction.advance goal pass last ∧ HasCopied origin before goal last := by
  refine Goes.exists_goes HasCopied.advance ?_ held (Nat.zero_le goal)
  intro count pass held behind
  exact held.exists_advance calm (willing.of_le (by omega)) (by omega)

end HasCopied

end Extraction

end TrackImage.Sector
