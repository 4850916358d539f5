/-!
# Cyclic redundancy check

The 32-bit check with the reflected polynomial `0xEDB88320`: all ones at the
start, one bit at a time from the low end, complemented at the end. A running
state can take the bytes in pieces; `update_append` says that the pieces do
not show in it.
-/

namespace TrackImage.Crc32

def polynomial : UInt32 := 0xEDB88320

def initial : UInt32 := 0xFFFFFFFF

def shiftBit (state : UInt32) : UInt32 :=
  if state &&& 1 = 1 then (state >>> 1) ^^^ polynomial else state >>> 1

def shiftByte (state : UInt32) (byte : UInt8) : UInt32 :=
  let mixed := state ^^^ byte.toUInt32
  shiftBit (shiftBit (shiftBit (shiftBit (shiftBit (shiftBit (shiftBit (shiftBit mixed)))))))

def update (state : UInt32) (bytes : List UInt8) : UInt32 :=
  bytes.foldl shiftByte state

@[simp] theorem update_nil (state : UInt32) : update state [] = state :=
  rfl

/-- The check value of a finished state. -/
def finish (state : UInt32) : UInt32 := ~~~state

/-- The check value of a byte string. -/
def ofBytes (bytes : List UInt8) : UInt32 :=
  finish (update initial bytes)

theorem update_append (state : UInt32) (first second : List UInt8) :
    update state (first ++ second) = update (update state first) second :=
  List.foldl_append

/-- The check value of the digits from one to nine, by which the check is known. -/
example : ofBytes [0x31, 0x32, 0x33, 0x34, 0x35, 0x36, 0x37, 0x38, 0x39] = 0xCBF43926 := by
  decide +kernel

end TrackImage.Crc32
