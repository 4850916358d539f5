import TrackImage.Failure
import TrackImage.Sector.Layout
import TrackImage.Sector.Report
import TrackImage.Table.Report

/-!
# Log events

What a pass has to say while it runs. An event carries the facts; its level
and its message are functions of it.
-/

namespace TrackImage

inductive Level
  | error
  | warn
  | info
  | debug
  | trace
  deriving DecidableEq, Repr

namespace Level

def rank : Level → Nat
  | error => 0
  | warn => 1
  | info => 2
  | debug => 3
  | trace => 4

def name : Level → String
  | error => "ERROR"
  | warn => "WARN"
  | info => "INFO"
  | debug => "DEBUG"
  | trace => "TRACE"

end Level

inductive Event
  /-- A track image of this length was opened. -/
  | trackMeasured (length : Nat)
  | payloadRead (sector : Nat)
  /-- So many bytes follow the last whole sector. -/
  | tailDropped (count : Nat)
  | extracted (report : Sector.Report) (output : String)
  /-- An input of this length was opened for a scan. -/
  | windowsMeasured (length : Nat)
  | tagFound (finding : Table.Finding)
  | scanned (report : Table.Report) (output : String)
  | failed (failure : Failure)
  deriving DecidableEq, Repr

namespace Event

def level : Event → Level
  | trackMeasured _ | windowsMeasured _ | tagFound _ => .debug
  | payloadRead _ => .trace
  | tailDropped _ => .warn
  | extracted .. | scanned .. => .info
  | failed _ => .error

def message : Event → String
  | trackMeasured length =>
      "Input is " ++ toString length ++ " byte(s): " ++
        toString (Sector.Layout.mode2Form1.sectors length) ++ " sector(s), " ++
        toString (Sector.Layout.mode2Form1.output length) ++ " byte(s) of payload"
  | payloadRead sector =>
      "Sector " ++ toString sector ++ ": payload at " ++
        Hex.marked (Sector.Layout.mode2Form1.payloadOffset sector)
  | tailDropped count =>
      "Input does not end on a sector boundary, dropping the last " ++ toString count ++ " byte(s)"
  | extracted report output => "Extracted " ++ report.summary ++ " into " ++ output
  | windowsMeasured length =>
      "Input is " ++ toString length ++ " byte(s), " ++
        toString (Table.Window.countIn length) ++ " window(s)"
  | tagFound finding =>
      "Found table " ++ finding.tag.quoted ++ " at " ++ Hex.marked finding.offset
  | scanned report output => "Scanned " ++ report.summary ++ " into " ++ output
  | failed failure => failure.chain

/-- Whether a log of the given depth shows the event. -/
def shownAt (depth : Level) (event : Event) : Bool :=
  event.level.rank ≤ depth.rank

/-- The line of an event in a log file. -/
def logLine (event : Event) : String :=
  "[" ++ event.level.name ++ "] " ++ event.message ++ "\n"

end Event

end TrackImage
