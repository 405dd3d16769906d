import Mathlib.Data.List.Forall2
import Loco2Mqtt.Adapters.LocoNetOverTcp

/-! The grammar of the codec's lines. It is stated without the parser: the prefix, tokens
spelled with white space around them, two hexadecimal digits of either case to a token, and
a frame that is well summed. The codec accepts the lines of the grammar and no others, and
it reads from each the bytes that its tokens spell. -/

namespace Loco2Mqtt.LocoNetOverTcpCodec

open Words

/-! ### The grammar -/

/-- `c` is the hexadecimal digit `n`, in either case. -/
def SpellsDigit (c : Char) (n : ℕ) : Prop :=
  "0123456789abcdef".toList[n]? = some c ∨ "0123456789ABCDEF".toList[n]? = some c

/-- Two digits, the high one first. -/
def SpellsByte (token : Text) (byte : UInt8) : Prop :=
  ∃ high low m n, token = [high, low] ∧ SpellsDigit high m ∧ SpellsDigit low n ∧
    byte.toNat = 16 * m + n

/-- The line carries the frame `bytes`. -/
def Carries (line : Text) (bytes : List UInt8) : Prop :=
  ∃ body tokens, line = "RECEIVE ".toList ++ body ∧ Spells isSpace body tokens ∧
    List.Forall₂ SpellsByte tokens bytes ∧ 2 ≤ bytes.length ∧ xorOf bytes = 0xFF

/-! ### Digits and bytes -/

theorem spellsDigit_of_lt : ∀ code < 128, isXDigit (Char.ofNat code) →
    SpellsDigit (Char.ofNat code) (xdigitValue (Char.ofNat code)) := by
  unfold SpellsDigit
  decide

theorem digit_values : ∀ n < 16,
    (isXDigit ("0123456789abcdef".toList.getD n ' ') ∧
      xdigitValue ("0123456789abcdef".toList.getD n ' ') = n) ∧
    isXDigit ("0123456789ABCDEF".toList.getD n ' ') ∧
      xdigitValue ("0123456789ABCDEF".toList.getD n ' ') = n := by
  decide

theorem SpellsDigit.lt {c : Char} {n : ℕ} (h : SpellsDigit c n) : n < 16 := by
  rcases h with h | h <;> exact (List.getElem?_eq_some_iff.mp h).1

theorem spellsDigit_iff {c : Char} {n : ℕ} : SpellsDigit c n ↔ isXDigit c ∧ xdigitValue c = n := by
  constructor
  · intro h
    obtain ⟨hlower, hupper⟩ := digit_values n h.lt
    simp only [List.getD_eq_getElem?_getD] at hlower hupper
    rcases h with h | h
    · rwa [h, Option.getD_some] at hlower
    · rwa [h, Option.getD_some] at hupper
  · rintro ⟨hc, rfl⟩
    -- every digit is an ASCII character
    have hle : c ≤ 'f' := by
      simp only [isXDigit, Bool.or_eq_true, Bool.and_eq_true, decide_eq_true_eq] at hc
      rcases hc with (hc | hc) | hc
      · exact Char.le_trans hc.2 (by decide)
      · exact hc.2
      · exact Char.le_trans hc.2 (by decide)
    have hcode : c.toNat < 128 := lt_of_le_of_lt (show c.toNat ≤ 'f'.toNat from hle) (by decide)
    have hspells := spellsDigit_of_lt c.toNat hcode
    rw [Char.ofNat_toNat] at hspells
    exact hspells hc

theorem spellsByte_iff {token : Text} {byte : UInt8} :
    SpellsByte token byte ↔ isHexByteToken token ∧ UInt8.ofNat (stoi16 token) = byte := by
  constructor
  · rintro ⟨high, low, m, n, rfl, hhigh, hlow, hbyte⟩
    obtain ⟨hhighx, rfl⟩ := spellsDigit_iff.mp hhigh
    obtain ⟨hlowx, rfl⟩ := spellsDigit_iff.mp hlow
    refine ⟨by simp [isHexByteToken, hhighx, hlowx], ?_⟩
    rw [stoi16, ← hbyte, UInt8.ofNat_toNat]
  · rintro ⟨htoken, rfl⟩
    unfold isHexByteToken at htoken
    split at htoken
    · rename_i high low
      rw [Bool.and_eq_true] at htoken
      have hhigh := spellsDigit_iff.mpr ⟨htoken.1, rfl⟩
      have hlow := spellsDigit_iff.mpr ⟨htoken.2, rfl⟩
      refine ⟨high, low, _, _, rfl, hhigh, hlow, ?_⟩
      have hhighlt := hhigh.lt
      have hlowlt := hlow.lt
      rw [stoi16, UInt8.toNat_ofNat']
      omega
    · exact absurd htoken (by decide)

theorem parseTokens_eq_some_iff {tokens : List Text} {bytes : List UInt8} :
    parseTokens tokens = some bytes ↔ List.Forall₂ SpellsByte tokens bytes := by
  induction tokens generalizing bytes with
  | nil => simp [parseTokens, eq_comm]
  | cons token rest ih =>
    rw [parseTokens, List.forall₂_cons_left_iff]
    by_cases htoken : isHexByteToken token
    · simp only [htoken, Bool.not_true, Bool.false_eq_true, if_false, Option.map_eq_some_iff, ih]
      constructor
      · rintro ⟨more, hmore, rfl⟩
        exact ⟨_, more, spellsByte_iff.mpr ⟨htoken, rfl⟩, hmore, rfl⟩
      · rintro ⟨byte, more, hbyte, hmore, rfl⟩
        exact ⟨more, hmore, by rw [(spellsByte_iff.mp hbyte).2]⟩
    · simp only [htoken, Bool.not_false, if_true, reduceCtorEq, false_iff]
      rintro ⟨byte, more, hbyte, -, -⟩
      exact htoken (spellsByte_iff.mp hbyte).1

/-- The codec reads the frames that lines of the grammar carry. -/
theorem decodeLine_iff_carries (line : Text) (message : LocoNetMessage) :
    decodeLine line = some message ↔ Carries line message.bytes := by
  rw [decodeLine_eq_some_iff, Carries]
  constructor
  · rintro ⟨⟨body, hline, hparse⟩, hvalid⟩
    exact ⟨body, _, hline, spells_iff.mpr rfl, parseTokens_eq_some_iff.mp hparse, hvalid⟩
  · rintro ⟨body, tokens, hline, hspells, hbytes, hvalid⟩
    refine ⟨⟨body, hline, ?_⟩, hvalid⟩
    rw [spells_iff.mp hspells]
    exact parseTokens_eq_some_iff.mpr hbytes

theorem isXDigit_of_parseTokens {tokens : List Text} {bytes : List UInt8}
    (h : parseTokens tokens = some bytes) : ∀ token ∈ tokens, ∀ c ∈ token, isXDigit c := by
  intro token htoken c hc
  induction parseTokens_eq_some_iff.mp h with
  | nil => exact absurd htoken List.not_mem_nil
  | cons hbyte hrest ih =>
    rcases List.mem_cons.mp htoken with rfl | htoken
    · obtain ⟨high, low, m, n, rfl, hhigh, hlow, -⟩ := hbyte
      rcases List.mem_cons.mp hc with rfl | hc
      · exact (spellsDigit_iff.mp hhigh).1
      · rw [List.mem_singleton.mp hc]
        exact (spellsDigit_iff.mp hlow).1
    · exact ih (parseTokens_eq_some_iff.mpr hrest) htoken

/-- Behind its prefix a line that carries a message has digits and white space only. -/
theorem decodeLine_characters {line : Text} {message : LocoNetMessage}
    (h : decodeLine line = some message) :
    ∃ body, line = kReceivePrefix ++ body ∧ ∀ c ∈ body, isSpace c ∨ isXDigit c := by
  obtain ⟨⟨body, hline, hparse⟩, -⟩ := decodeLine_eq_some_iff.mp h
  refine ⟨body, hline, fun c hc => ?_⟩
  rcases isSep_or_mem_words isSpace hc with hspace | ⟨token, htoken, hmem⟩
  · exact Or.inl hspace
  · exact Or.inr (isXDigit_of_parseTokens hparse token htoken c hmem)

/-! ### Printing -/

/-- The printed bytes can be read back, so no two frames print alike. -/
theorem describe_injective : Function.Injective LocoNetMessage.describe := by
  intro first second h
  have hwords := congrArg (words isSpace) h
  rw [words_describe, words_describe] at hwords
  have hparsed := congrArg parseTokens hwords
  rw [parseTokens_map, parseTokens_map] at hparsed
  obtain ⟨bytes⟩ := first
  exact congrArg LocoNetMessage.mk (Option.some.inj hparsed)

theorem decodeLine_describe_iff (message : LocoNetMessage) :
    decodeLine (kReceivePrefix ++ message.describe) = some message ↔
      2 ≤ message.bytes.length ∧
        message.bytes.getLast? = some (computeLocoNetChecksum message.bytes.dropLast) := by
  have hvalid : hasValidChecksum message.bytes ↔ 2 ≤ message.bytes.length ∧
      message.bytes.getLast? = some (computeLocoNetChecksum message.bytes.dropLast) := by
    unfold hasValidChecksum
    split_ifs with hlen
    · simp only [false_iff, not_and]
      omega
    · rw [decide_eq_true_eq, eq_comm, and_iff_right (by omega)]
  rw [← hvalid, hasValidChecksum_iff]
  constructor
  · intro h
    exact (decodeLine_eq_some_iff.mp h).2
  · rintro ⟨hlen, hsum⟩
    exact decodeLine_describe hlen hsum

/-- The codec accepts exactly its grammar, inverts printing on the frames that are well
summed, and prints no two frames alike. -/
theorem codec_grammar :
    (∀ line message, decodeLine line = some message ↔ Carries line message.bytes) ∧
      (∀ bytes : List UInt8,
        decodeLine (kReceivePrefix ++ LocoNetMessage.describe ⟨bytes⟩) = some ⟨bytes⟩ ↔
          2 ≤ bytes.length ∧ bytes.getLast? = some (computeLocoNetChecksum bytes.dropLast)) ∧
        Function.Injective LocoNetMessage.describe ∧ Function.Injective encodeSend := by
  refine ⟨decodeLine_iff_carries, fun bytes => decodeLine_describe_iff ⟨bytes⟩,
    describe_injective, ?_⟩
  intro first second h
  exact describe_injective (List.append_cancel_left h)

end Loco2Mqtt.LocoNetOverTcpCodec
