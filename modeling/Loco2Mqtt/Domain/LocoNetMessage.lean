import Loco2Mqtt.Foundations.StdString

/-! `LocoNetMessage`, its printed form, and the LocoNet checksum. A frame is well
summed when the exclusive or of all its bytes, the checksum included, is `0xFF`; the
checksum byte computed from the bytes before it is the one that makes it so. -/

namespace Loco2Mqtt

/-- One frame: its bytes, opcode first. -/
structure LocoNetMessage where
  bytes : List UInt8
  deriving DecidableEq, Repr

def hexDigit (n : ℕ) : Char := "0123456789ABCDEF".toList.getD n '0'

/-- Two upper-case hexadecimal digits, zero-padded. -/
def byteToHex (value : UInt8) : Text := [hexDigit (value.toNat / 16), hexDigit (value.toNat % 16)]

namespace LocoNetMessage

/-- The loop of `describe` from index `i` on: every byte but the first is preceded by a
space. -/
def describeFrom : ℕ → List UInt8 → Text
  | _, [] => []
  | i, byte :: rest => (if i > 0 then [' '] else []) ++ byteToHex byte ++ describeFrom (i + 1) rest

def describe (message : LocoNetMessage) : Text := describeFrom 0 message.bytes

/-- Past the first byte the index does not matter. -/
theorem describeFrom_succ_congr (i j : ℕ) (bytes : List UInt8) :
    describeFrom (i + 1) bytes = describeFrom (j + 1) bytes := by
  induction bytes generalizing i j with
  | nil => rfl
  | cons byte rest ih =>
    rw [describeFrom, describeFrom, ih (i + 1) (j + 1)]
    simp

theorem describeFrom_succ_length (i : ℕ) (bytes : List UInt8) :
    (describeFrom (i + 1) bytes).length = 3 * bytes.length := by
  induction bytes generalizing i with
  | nil => rfl
  | cons byte rest ih =>
    simp only [describeFrom, byteToHex, List.length_append, ih, List.length_cons, List.length_nil]
    simp
    omega

/-- Two characters a byte and one between each two. -/
theorem length_describe (message : LocoNetMessage) :
    message.describe.length = 3 * message.bytes.length - 1 := by
  rcases message with ⟨_ | ⟨byte, rest⟩⟩
  · rfl
  · simp [describe, describeFrom, byteToHex, describeFrom_succ_length]
    omega

end LocoNetMessage

/-! ### The checksum -/

def computeLocoNetChecksum (bytesBeforeChecksum : List UInt8) : UInt8 :=
  bytesBeforeChecksum.foldl (· ^^^ ·) 0 ^^^ 0xFF

/-- The exclusive or of all bytes of a frame. -/
def xorOf (bytes : List UInt8) : UInt8 := bytes.foldl (· ^^^ ·) 0

theorem foldl_xor (acc : UInt8) (bytes : List UInt8) :
    bytes.foldl (· ^^^ ·) acc = acc ^^^ xorOf bytes := by
  induction bytes generalizing acc with
  | nil => simp [xorOf]
  | cons byte rest ih =>
    have hrest : xorOf (byte :: rest) = byte ^^^ xorOf rest := by
      rw [xorOf, List.foldl_cons, ih, UInt8.zero_xor]
    rw [List.foldl_cons, ih, hrest, UInt8.xor_assoc]

@[simp] theorem xorOf_nil : xorOf [] = 0 := rfl

@[simp] theorem xorOf_cons (byte : UInt8) (rest : List UInt8) :
    xorOf (byte :: rest) = byte ^^^ xorOf rest := by
  rw [xorOf, List.foldl_cons, foldl_xor, UInt8.zero_xor]

theorem xorOf_append (front back : List UInt8) :
    xorOf (front ++ back) = xorOf front ^^^ xorOf back := by
  rw [xorOf, List.foldl_append, foldl_xor]; rfl

/-- The last byte is the checksum of the others exactly when all bytes sum to `0xFF`. -/
theorem computeLocoNetChecksum_eq_iff (front : List UInt8) (last : UInt8) :
    computeLocoNetChecksum front = last ↔ xorOf (front ++ [last]) = 0xFF := by
  rw [xorOf_append, xorOf_cons, xorOf_nil, UInt8.xor_zero, computeLocoNetChecksum, ← xorOf]
  constructor
  · rintro rfl
    rw [← UInt8.xor_assoc, UInt8.xor_self, UInt8.zero_xor]
  · intro h
    rw [← h, ← UInt8.xor_assoc, UInt8.xor_self, UInt8.zero_xor]

/-- A frame of an opcode, two data bytes and their checksum, as every encoder builds it. -/
def checksummed (opcode d1 d2 : UInt8) : LocoNetMessage :=
  ⟨[opcode, d1, d2, computeLocoNetChecksum [opcode, d1, d2]]⟩

theorem xorOf_checksummed (opcode d1 d2 : UInt8) : xorOf (checksummed opcode d1 d2).bytes = 0xFF :=
  (computeLocoNetChecksum_eq_iff [opcode, d1, d2] _).mp rfl

end Loco2Mqtt
