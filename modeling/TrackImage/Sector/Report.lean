import TrackImage.Text.Hex

/-!
# Extraction reports

What one extraction pass did: the measured length, the sectors it copied, the
payload bytes given out so far, the bytes after the last whole sector, and the
check value of what it copied.
-/

namespace TrackImage.Sector

structure Report where
  /-- Length of the whole input. -/
  length : Nat
  sectors : Nat
  /-- Payload bytes that the reader has given out, in this pass and before it. -/
  emitted : Nat
  droppedTail : Nat
  crc : UInt32
  deriving DecidableEq, Repr

namespace Report

def summary (report : Report) : String :=
  toString report.sectors ++ " sector(s), " ++ toString report.emitted ++
    " byte(s) of payload, crc32 " ++ String.ofList (Hex.padded 8 report.crc.toNat)

end Report

end TrackImage.Sector
