import KeepMyJournal.Base.Bytes

/-!
# Base64

`base64Encode`, `common/src/crypto_utils.cpp:13–55`, with its 32-bit accumulator.
-/

namespace KeepMyJournal.Common

open KeepMyJournal.Base

/-- `b64_table`. -/
def b64Table : Bytes :=
  bytes "ABCDEFGHIJKLMNOPQRSTUVWXYZabcdefghijklmnopqrstuvwxyz0123456789+/"

/-- `b64_table[(accumulator >> bits) & 0x3f]`; the mask keeps the index in the table. -/
def b64Digit (accumulator : UInt32) (bits : Nat) : UInt8 :=
  b64Table.getD (((accumulator >>> bits.toUInt32) &&& 0x3f).toNat) 0

/-- The inner loop: full groups of six bits are written out. -/
def drainBits (accumulator : UInt32) (retval : Bytes) : Nat → Nat × Bytes
  | bits + 6 => drainBits accumulator (retval ++ [b64Digit accumulator bits]) bits
  | bits => (bits, retval)

/-- The loop over the input; `retval` is the part written so far. -/
def base64Loop (accumulator : UInt32) (bitsCollected : Nat) (retval : Bytes) :
    Bytes → UInt32 × Nat × Bytes
  | [] => (accumulator, bitsCollected, retval)
  | i :: rest =>
    let accumulator := (accumulator <<< 8) ||| (i.toUInt32 &&& 0xff)
    let drained := drainBits accumulator retval (bitsCollected + 8)
    base64Loop accumulator drained.1 drained.2 rest

/-- `base64Encode`; the string starts as padding only and is written from its front. An input
too long for the length computation cannot be held in memory and is not modelled. -/
def base64Encode (bindata : Bytes) : Bytes :=
  let size := (bindata.length + 2) / 3 * 4
  let (accumulator, bitsCollected, written) := base64Loop 0 0 [] bindata
  let padded (written : Bytes) :=
    if size ≤ written.length + 2 ∧ 2 ≤ size ∧ written.length ≤ size then
      written ++ List.replicate (size - written.length) 61
    else []
  if bitsCollected = 0 then padded written
  else if 6 ≤ bitsCollected then []
  else
    let accumulator := accumulator <<< (6 - bitsCollected).toUInt32
    padded (written ++ [b64Digit accumulator 0])

example : base64Encode (bytes "light wo") = bytes "bGlnaHQgd28=" := by decide +kernel

end KeepMyJournal.Common
