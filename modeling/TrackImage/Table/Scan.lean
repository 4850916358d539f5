import TrackImage.Stream.Deliver
import TrackImage.Table.WindowReader

/-!
# Scans

A scan judges every window that a reader still has, writes a line for each
finding as soon as it is made, and flushes the sink at the end. It begins with
a fresh lookback wherever the reader stands, and stops at the first failure. A
line goes to the sink piece by piece, so a failure can fall between two pieces.
-/

namespace TrackImage.Table

/-- A scan under way. -/
structure Scan (σ τ : Type) where
  reader : WindowReader σ
  sink : τ
  lookback : Lookback := Lookback.fresh
  /-- Verdicts on the windows dealt with so far, in order. -/
  verdicts : Array Verdict := #[]
  events : Array Event := #[]

namespace Scan

variable {σ τ : Type}

def report (pass : Scan σ τ) : Report :=
  Report.ofVerdicts pass.reader.length pass.verdicts.toList

def findingEvents (verdict : Verdict) : List Event :=
  verdict.finding?.toList.map Event.tagFound

/-- What is written for a verdict, in the pieces in which it is written. -/
def findingPieces (verdict : Verdict) : List (List UInt8) :=
  verdict.finding?.toList.flatMap Finding.lineWrites

/-- The pass after a step of its reader. -/
def observe (pass : Scan σ τ) (step : WindowStep σ) : Scan σ τ :=
  { pass with reader := step.reader }

variable [ByteSink τ]

/-- Judge a window, write its line if there is one, and keep the verdict. -/
def settle (pass : Scan σ τ) (offset : Nat) (window : Window) :
    Except Failure Unit × Scan σ τ :=
  let (verdict, lookback) := pass.lookback.classify offset window
  let announced := { pass with lookback, events := pass.events ++ findingEvents verdict }
  match deliverEach pass.sink (findingPieces verdict) with
  | (.error error, sink) => (.error (.device error), { announced with sink })
  | (.ok (), sink) => (.ok (), { announced with sink, verdicts := pass.verdicts.push verdict })

/-- Deal with a step of the reader; the answer is whether there was a window. -/
def receive (pass : Scan σ τ) (step : WindowStep σ) : Except Failure Bool × Scan σ τ :=
  match step.result with
  | .error failure => (.error failure, pass.observe step)
  | .ok none => (.ok false, pass.observe step)
  | .ok (some (offset, window)) =>
      match (pass.observe step).settle offset window with
      | (.error failure, stopped) => (.error failure, stopped)
      | (.ok (), settled) => (.ok true, settled)

variable [ByteSource σ]

/-- Settle at most so many windows; it ends early when the reader has none left. -/
def settleMany : Nat → Scan σ τ → Except Failure Unit × Scan σ τ
  | 0, pass => (.ok (), pass)
  | count + 1, pass =>
      match pass.receive pass.reader.next with
      | (.error failure, stopped) => (.error failure, stopped)
      | (.ok false, done) => (.ok (), done)
      | (.ok true, settled) => settleMany count settled

/-- Settle the windows that the reader has left. -/
def settleAll (pass : Scan σ τ) : Except Failure Unit × Scan σ τ :=
  settleMany pass.reader.left pass

/-- Flush the sink and report. -/
def finish (pass : Scan σ τ) : Except Failure Report × Scan σ τ :=
  match ByteSink.flush pass.sink with
  | (.error error, sink) => (.error (.device error), { pass with sink })
  | (.ok (), sink) => (.ok pass.report, { pass with sink })

def run (pass : Scan σ τ) : Except Failure Report × Scan σ τ :=
  match pass.settleAll with
  | (.error failure, stopped) => (.error failure, stopped)
  | (.ok (), settled) => settled.finish

end Scan

namespace WindowReader

variable {σ τ : Type} [ByteSource σ] [ByteSink τ]

/-- Scan all windows that are left. -/
def scanTo (reader : WindowReader σ) (sink : τ) : Except Failure Report × Scan σ τ :=
  Scan.run { reader, sink }

end WindowReader

/-- Scan a whole source: the answer, the sink, and what was said. -/
def scan {σ τ : Type} [ByteSource σ] [ByteSink τ] (source : σ) (sink : τ) :
    Except Failure Report × τ × List Event :=
  match WindowReader.start source with
  | (.error failure, _) => (.error failure, sink, [])
  | (.ok reader, _) =>
      let run := reader.scanTo sink
      (run.1, run.2.sink, reader.startEvents ++ run.2.events.toList)

end TrackImage.Table
