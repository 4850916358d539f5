import TrackImage.Checksum.Crc32
import TrackImage.Sector.PayloadReader
import TrackImage.Stream.Deliver

/-!
# Extraction

An extraction copies every payload that a reader still has to a sink, one
after the other, and flushes the sink at the end. It stops at the first
failure and never writes a byte that is not part of a payload read in full.
-/

namespace TrackImage.Sector

/-- An extraction under way. -/
structure Extraction (σ τ : Type) where
  reader : PayloadReader σ
  sink : τ
  /-- State of the check over the payloads copied so far. -/
  crc : UInt32 := Crc32.initial
  /-- Payloads copied so far. -/
  sectors : Nat := 0
  events : Array Event := #[]

namespace Extraction

variable {σ τ : Type}

def report (pass : Extraction σ τ) : Report where
  length := pass.reader.length
  sectors := pass.sectors
  emitted := pass.reader.emitted
  droppedTail := layout.tail pass.reader.length
  crc := Crc32.finish pass.crc

/-- What is said about a tail when everything is copied. -/
def tailEvents (length : Nat) : List Event :=
  if layout.tail length = 0 then [] else [.tailDropped (layout.tail length)]

/-- The pass after a step of its reader. -/
def observe (pass : Extraction σ τ) (step : PayloadStep σ) : Extraction σ τ :=
  { pass with reader := step.reader, events := pass.events ++ step.events }

variable [ByteSink τ]

/-- Hand a payload to the sink; it counts once the sink has all of it. -/
def copy (pass : Extraction σ τ) (payload : List UInt8) : Except Failure Unit × Extraction σ τ :=
  match deliver pass.sink payload with
  | (.error error, sink) => (.error (.device error), { pass with sink })
  | (.ok (), sink) =>
      (.ok (),
        { pass with sink, crc := Crc32.update pass.crc payload, sectors := pass.sectors + 1 })

/-- Deal with a step of the reader; the answer is whether there was a payload. -/
def receive (pass : Extraction σ τ) (step : PayloadStep σ) :
    Except Failure Bool × Extraction σ τ :=
  match step.result with
  | .error failure => (.error failure, pass.observe step)
  | .ok none => (.ok false, pass.observe step)
  | .ok (some _) =>
      match (pass.observe step).copy step.delivered with
      | (.error failure, stopped) => (.error failure, stopped)
      | (.ok (), copied) => (.ok true, copied)

variable [ByteSource σ]

/-- Copy at most so many payloads; it ends early when the reader has none left. -/
def copyMany : Nat → Extraction σ τ → Except Failure Unit × Extraction σ τ
  | 0, pass => (.ok (), pass)
  | count + 1, pass =>
      match pass.receive pass.reader.next with
      | (.error failure, stopped) => (.error failure, stopped)
      | (.ok false, done) => (.ok (), done)
      | (.ok true, copied) => copyMany count copied

/-- Copy the payloads that the reader has left. -/
def copyAll (pass : Extraction σ τ) : Except Failure Unit × Extraction σ τ :=
  copyMany pass.reader.left pass

/-- Flush the sink and report. -/
def finish (pass : Extraction σ τ) : Except Failure Report × Extraction σ τ :=
  match ByteSink.flush pass.sink with
  | (.error error, sink) => (.error (.device error), { pass with sink })
  | (.ok (), sink) =>
      (.ok pass.report,
        { pass with sink, events := pass.events ++ tailEvents pass.reader.length })

def run (pass : Extraction σ τ) : Except Failure Report × Extraction σ τ :=
  match pass.copyAll with
  | (.error failure, stopped) => (.error failure, stopped)
  | (.ok (), copied) => copied.finish

end Extraction

namespace PayloadReader

variable {σ τ : Type} [ByteSource σ] [ByteSink τ]

/-- Copy all payloads that are left to a sink. -/
def extractTo (reader : PayloadReader σ) (sink : τ) : Except Failure Report × Extraction σ τ :=
  Extraction.run { reader, sink }

end PayloadReader

/-- Extract a whole source: the answer, the sink, and what was said. -/
def extract {σ τ : Type} [ByteSource σ] [ByteSink τ] (source : σ) (sink : τ) :
    Except Failure Report × τ × List Event :=
  match PayloadReader.start source with
  | (.error failure, _) => (.error failure, sink, [])
  | (.ok reader, _) =>
      let run := reader.extractTo sink
      (run.1, run.2.sink, reader.startEvents ++ run.2.events.toList)

end TrackImage.Sector
