import Loco2Mqtt.Adapters.LocoNetOverTcp
import Loco2Mqtt.Foundations.XorSums

/-! What the checksum catches. A frame that is printed on a line and changed on the way, with
its length kept, is accepted exactly when the differences of its bytes sum to zero. So a
change of one byte is always rejected, and so is an odd number of flips of one bit. -/

namespace Loco2Mqtt.LocoNetOverTcpCodec

open Words XorSums

/-- The line printed from these bytes is read as a message. -/
def Accepted (bytes : List UInt8) : Prop :=
  (decodeLine (kReceivePrefix ++ LocoNetMessage.describe ⟨bytes⟩)).isSome

theorem accepted_iff {bytes : List UInt8} :
    Accepted bytes ↔ 2 ≤ bytes.length ∧ xorOf bytes = 0xFF := by
  rw [Accepted, Option.isSome_iff_exists]
  constructor
  · rintro ⟨message, h⟩
    obtain ⟨⟨body, hbody, hparse⟩, hvalid⟩ := decodeLine_eq_some_iff.mp h
    obtain rfl := List.append_cancel_left hbody
    rw [words_describe, parseTokens_map] at hparse
    obtain rfl := Option.some.inj hparse
    exact hvalid
  · rintro ⟨hlen, hsum⟩
    exact ⟨_, decodeLine_describe hlen hsum⟩

theorem toBitVec_xorOf (bytes : List UInt8) :
    (xorOf bytes).toBitVec = xorSum (bytes.map UInt8.toBitVec) := by
  induction bytes with
  | nil => rfl
  | cons byte rest ih => rw [xorOf_cons, UInt8.toBitVec_xor, ih, List.map_cons, xorSum_cons]

/-- The differences of the bytes at each position. -/
def differences (sent received : List UInt8) : List UInt8 :=
  List.zipWith (· ^^^ ·) sent received

theorem xorOf_differences {sent received : List UInt8} (h : sent.length = received.length) :
    xorOf (differences sent received) = xorOf sent ^^^ xorOf received := by
  apply UInt8.toBitVec_inj.mp
  have hmap : (differences sent received).map UInt8.toBitVec =
      List.zipWith (· ^^^ ·) (sent.map UInt8.toBitVec) (received.map UInt8.toBitVec) := by
    rw [differences, List.map_zipWith, List.zipWith_map]
    rfl
  rw [toBitVec_xorOf, hmap, xorSum_zipWith (by simpa using h), UInt8.toBitVec_xor,
    toBitVec_xorOf, toBitVec_xorOf]

theorem xorOf_set {bytes : List UInt8} {i : ℕ} {old : UInt8} (h : bytes[i]? = some old)
    (new : UInt8) : xorOf (bytes.set i new) = xorOf bytes ^^^ (old ^^^ new) := by
  apply UInt8.toBitVec_inj.mp
  have hold : (bytes.map UInt8.toBitVec)[i]? = some old.toBitVec := by
    rw [List.getElem?_map, h, Option.map_some]
  rw [toBitVec_xorOf, List.map_set, xorSum_set hold, UInt8.toBitVec_xor, toBitVec_xorOf,
    UInt8.toBitVec_xor]

theorem accepted_iff_of_accepted {sent received : List UInt8} (hsent : Accepted sent)
    (hlen : sent.length = received.length) :
    Accepted received ↔ xorOf (differences sent received) = 0 := by
  obtain ⟨hlong, hsum⟩ := accepted_iff.mp hsent
  rw [accepted_iff, xorOf_differences hlen, hsum, UInt8.xor_eq_zero_iff]
  constructor
  · exact fun h => h.2.symm
  · exact fun h => ⟨hlen ▸ hlong, h.symm⟩

/-- Of the frames as long as an accepted one, those are accepted whose differences from it
sum to zero. None of them is at odds in a bit column or in one byte only. -/
theorem corruption_detected (sent : List UInt8) (hsent : Accepted sent) :
    (∀ received : List UInt8, sent.length = received.length →
      (Accepted received ↔ xorOf (differences sent received) = 0) ∧
        ∀ bit, Odd ((differences sent received).countP (fun byte => byte.toBitVec.getLsbD bit)) →
          ¬ Accepted received) ∧
      ∀ i old new, sent[i]? = some old → new ≠ old → ¬ Accepted (sent.set i new) := by
  refine ⟨fun received hlen => ⟨accepted_iff_of_accepted hsent hlen, fun bit hodd hreceived => ?_⟩,
    fun i old new hi hne hreceived => ?_⟩
  · have hzero := (accepted_iff_of_accepted hsent hlen).mp hreceived
    have hbit := (getLsbD_xorSum ((differences sent received).map UInt8.toBitVec) bit).mpr (by
      rwa [List.countP_map])
    rw [← toBitVec_xorOf, hzero] at hbit
    simp at hbit
  · obtain ⟨-, hsum⟩ := accepted_iff.mp hsent
    obtain ⟨-, hsum'⟩ := accepted_iff.mp hreceived
    rw [xorOf_set hi, hsum] at hsum'
    have hsame : old ^^^ new = 0 :=
      (UInt8.xor_right_inj 0xFF).mp (hsum'.trans UInt8.xor_zero.symm)
    exact hne (UInt8.xor_eq_zero_iff.mp hsame).symm

/-- A switch report whose position bit is flipped. -/
theorem corruption_detected_flippedPosition :
    Accepted [0xB1, 0x05, 0x10, 0x5B] ∧ ¬ Accepted [0xB1, 0x05, 0x30, 0x5B] := by
  have hsent : Accepted [0xB1, 0x05, 0x10, 0x5B] := accepted_iff.mpr (by decide)
  exact ⟨hsent, (corruption_detected _ hsent).2 2 0x10 0x30 rfl (by decide)⟩

end Loco2Mqtt.LocoNetOverTcpCodec
