import Loco2Mqtt.Adapters.LocoNetOverTcp
import Loco2Mqtt.Application.MessageRouter

/-! Which lines change turnout state. The codec admits any well-summed run of bytes and the
router only asks for at least four, so besides the genuine four-byte frames also a longer run
is acted upon when it begins like one. -/

namespace Loco2Mqtt.GenuineFrames

open LocoNetOverTcpCodec LocoNetMessageRouter TurnoutLocoNetDecoder Words

/-- A line delivered by the transport: the port skips it or the router handles its message. -/
def handleLine (router : LocoNetMessageRouter) (line : Text) :
    LocoNetMessageRouter × List MqttMessage :=
  match decodeLine line with
  | none => (router, [])
  | some message => router.handleMessage message

/-- The line changes a recorded position, takes a pending ack or publishes something. -/
def Affects (router : LocoNetMessageRouter) (line : Text) : Prop :=
  (handleLine router line).1.decoder.recorded ≠ router.decoder.recorded ∨
    (handleLine router line).1.pendingAcks ≠ router.pendingAcks ∨ (handleLine router line).2 ≠ []

/-- `RECEIVE ` and exactly four byte tokens that form a well-summed frame of a turnout
opcode. -/
def Genuine (line : Text) : Prop :=
  ∃ body tokens, line = kReceivePrefix ++ body ∧ words isSpace body = tokens ∧
    tokens.length = 4 ∧ (∀ token ∈ tokens, isHexByteToken token) ∧
    let bytes := tokens.map (fun token => UInt8.ofNat (stoi16 token))
    xorOf bytes = 0xFF ∧ ∃ opcode ∈ bytes.head?, opcode = 0xB0 ∨ opcode = 0xB1 ∨ opcode = 0xB4

/-- The first bytes of a frame take a pending ack, or report a position that is not the
recorded one. -/
def Effective (router : LocoNetMessageRouter) (message : LocoNetMessage) : Prop :=
  match message.bytes with
  | opcode :: b1 :: b2 :: _ =>
    opcode = 0xB4 ∧ b1 = 0x3C ∧ router.pendingAcks.pendingAddresses ≠ [] ∨
      (opcode = 0xB0 ∨ opcode = 0xB1 ∧ b2 &&& 0x40 = 0) ∧
        router.decoder.recorded (addressOf b1 b2) ≠ some (positionOf b2)
  | _ => False

/-! ### Lines and their bytes -/

theorem parseTokens_eq_some {tokens : List Text} {bytes : List UInt8}
    (h : parseTokens tokens = some bytes) :
    (∀ token ∈ tokens, isHexByteToken token) ∧
      bytes = tokens.map (fun token => UInt8.ofNat (stoi16 token)) := by
  induction tokens generalizing bytes with
  | nil =>
    obtain rfl := Option.some.inj h
    exact ⟨fun _ hmem => absurd hmem List.not_mem_nil, rfl⟩
  | cons token rest ih =>
    rw [parseTokens] at h
    split_ifs at h with htoken
    obtain ⟨more, hmore, rfl⟩ := Option.map_eq_some_iff.mp h
    obtain ⟨htokens, rfl⟩ := ih hmore
    refine ⟨fun t ht => ?_, rfl⟩
    rcases List.mem_cons.mp ht with rfl | ht
    · simpa using htoken
    · exact htokens t ht

theorem canDecode_iff (opcode : UInt8) :
    canDecode opcode ↔ opcode = 0xB0 ∨ opcode = 0xB1 ∨ opcode = 0xB4 := by
  simp only [canDecode, Bool.or_eq_true, decide_eq_true_eq, or_assoc]
  exact Iff.rfl

/-- The lines with a message of four bytes and a turnout opcode are the genuine ones. -/
theorem genuine_iff {line : Text} {message : LocoNetMessage} (h : decodeLine line = some message) :
    Genuine line ↔ message.bytes.length = 4 ∧ ∃ opcode ∈ message.bytes.head?, canDecode opcode := by
  obtain ⟨⟨body, hline, hparse⟩, -, hsum⟩ := decodeLine_eq_some_iff.mp h
  obtain ⟨htokens, hbytes⟩ := parseTokens_eq_some hparse
  constructor
  · rintro ⟨body', tokens, hline', rfl, hlen, -, -, hop⟩
    obtain rfl : body' = body := List.append_cancel_left (hline'.symm.trans hline)
    rw [hbytes]
    refine ⟨by rw [List.length_map, hlen], ?_⟩
    obtain ⟨opcode, hhead, hop⟩ := hop
    exact ⟨opcode, hhead, (canDecode_iff opcode).mpr hop⟩
  · rintro ⟨hlen, opcode, hhead, hop⟩
    rw [hbytes] at hlen hhead hsum
    refine ⟨body, _, hline, rfl, by simpa using hlen, htokens, hsum, opcode, hhead, ?_⟩
    exact (canDecode_iff opcode).mp hop

/-! ### What a message does -/

theorem update_ne_self {recorded : ℤ → Option TurnoutPosition} {a : ℤ} {p : TurnoutPosition} :
    Function.update recorded a (some p) ≠ recorded ↔ recorded a ≠ some p := by
  rw [Ne, Ne, Function.update_eq_self_iff, eq_comm]

/-- Handling a message does something exactly when it reports a change or takes an ack. -/
theorem handleMessage_affects (router : LocoNetMessageRouter) (message : LocoNetMessage) :
    ((router.handleMessage message).1.decoder.recorded ≠ router.decoder.recorded ∨
        (router.handleMessage message).1.pendingAcks ≠ router.pendingAcks ∨
          (router.handleMessage message).2 ≠ []) ↔
      (∃ report ∈ LocoNetMessageRouter.reportOf router.pendingAcks message,
          router.decoder.recorded report.1 ≠ some report.2) ∨
        LocoNetMessageRouter.acksAfter router.pendingAcks message ≠ router.pendingAcks := by
  simp only [handleMessage_eq]
  rcases hreport : LocoNetMessageRouter.reportOf router.pendingAcks message with _ | ⟨a, p⟩
  · simp [absorb]
  · have hpublished : ((router.decoder.absorb (some (a, p))).1.map
        TurnoutMqttEncoder.encode).toList ≠ [] ↔ router.decoder.recorded a ≠ some p := by
      rw [absorb, emitIfChanged_event]
      split_ifs with h <;> simp [h]
    rw [hpublished, absorb, recorded_emitIfChanged, update_ne_self]
    simp only [Option.mem_def, Option.some.injEq, exists_eq_left']
    tauto

theorem effective_iff (router : LocoNetMessageRouter) (message : LocoNetMessage) :
    ((∃ report ∈ LocoNetMessageRouter.reportOf router.pendingAcks message,
          router.decoder.recorded report.1 ≠ some report.2) ∨
        LocoNetMessageRouter.acksAfter router.pendingAcks message ≠ router.pendingAcks) ↔
      Dispatched message ∧ Effective router message := by
  by_cases hdispatched : Dispatched message
  · rw [LocoNetMessageRouter.reportOf, LocoNetMessageRouter.acksAfter, if_pos hdispatched,
      if_pos hdispatched, and_iff_right hdispatched]
    obtain ⟨hlen, opcode, hhead, hop⟩ := hdispatched
    obtain ⟨_ | ⟨b0, _ | ⟨b1, _ | ⟨b2, rest⟩⟩⟩⟩ := message
    iterate 3 simp at hlen
    obtain rfl : b0 = opcode := Option.some.inj hhead
    rcases (canDecode_iff b0).mp hop with rfl | rfl | rfl
    · simp [TurnoutLocoNetDecoder.reportOf, TurnoutLocoNetDecoder.acksAfter, IsStateAck, Effective,
        kOpcLongAck, kOpcSwRep]
    · simp only [TurnoutLocoNetDecoder.reportOf, TurnoutLocoNetDecoder.acksAfter, IsStateAck,
        Effective, kOpcLongAck, kOpcSwRep, kSwRepInputs]
      by_cases hinputs : b2 &&& 0x40 = 0 <;> simp [hinputs]
    · simp only [TurnoutLocoNetDecoder.reportOf, TurnoutLocoNetDecoder.acksAfter, IsStateAck,
        Effective, kOpcLongAck, kSwitchStateAckCode]
      rcases hacks : router.pendingAcks with ⟨_ | ⟨address, pending⟩⟩ <;>
        by_cases hcode : b1 = 0x3C <;> simp [hcode]
  · simp [LocoNetMessageRouter.reportOf, LocoNetMessageRouter.acksAfter, hdispatched]

theorem Effective.dispatched {router : LocoNetMessageRouter} {message : LocoNetMessage}
    (h : Effective router message) (hlen : 4 ≤ message.bytes.length) : Dispatched message := by
  obtain ⟨_ | ⟨b0, _ | ⟨b1, _ | ⟨b2, rest⟩⟩⟩⟩ := message
  iterate 3 simp at hlen
  refine ⟨hlen, b0, rfl, (canDecode_iff b0).mpr ?_⟩
  rcases h with ⟨hack, -⟩ | ⟨hreq | ⟨hrep, -⟩, -⟩
  · exact Or.inr (Or.inr hack)
  · exact Or.inl hreq
  · exact Or.inr (Or.inl hrep)

/-- The line carries a message of five bytes or more that is acted upon like a frame. -/
def ActsOnLonger (router : LocoNetMessageRouter) (line : Text) : Prop :=
  ∃ message ∈ decodeLine line, 5 ≤ message.bytes.length ∧ Effective router message

/-- No read goes past the end of a message, and a line affects the state only if it is
genuine, unless it carries a longer run of bytes that begins like an effective frame. -/
theorem only_genuine_frames_iff (router : LocoNetMessageRouter) (line : Text) :
    (∀ message : LocoNetMessage,
        message.bytes.length < 4 ∨ (router.dispatch message).isSome) ∧
      ((Affects router line → Genuine line) ↔ ¬ ActsOnLonger router line) := by
  constructor
  · intro message
    rcases Nat.lt_or_ge message.bytes.length 4 with hlen | hlen
    · exact Or.inl hlen
    · exact Or.inr (router.dispatch_isSome hlen)
  · rcases hdecode : decodeLine line with _ | message
    · have hnot : ¬ Affects router line := by simp [Affects, handleLine, hdecode]
      have hno : ¬ ActsOnLonger router line := by simp [ActsOnLonger, hdecode]
      exact iff_of_true (fun h => absurd h hnot) hno
    · have haffects : Affects router line ↔ Dispatched message ∧ Effective router message := by
        rw [← effective_iff, ← handleMessage_affects]
        simp only [Affects, handleLine, hdecode]
      rw [haffects, genuine_iff hdecode]
      constructor
      · rintro h ⟨longer, hlonger, hlen, heffective⟩
        obtain rfl : message = longer := Option.some.inj (hdecode.symm.trans hlonger)
        have hfour := (h ⟨heffective.dispatched (by omega), heffective⟩).1
        omega
      · rintro hno ⟨⟨hlen, hopcode⟩, heffective⟩
        refine ⟨?_, hopcode⟩
        by_contra hne
        exact hno ⟨message, hdecode, by omega, heffective⟩

/-- Three reports of turnout 1 spliced into one line. -/
def splicedLine : Text := "RECEIVE B0 00 30 7F B0 00 30 7F B0 00 30 7F".toList

/-- The spliced line is taken for a report although it has twelve bytes. -/
theorem spliced_line_affects :
    Affects LocoNetMessageRouter.initial splicedLine ∧ ¬ Genuine splicedLine := by
  constructor
  · exact Or.inr (Or.inr (by decide))
  · have hdecode : decodeLine splicedLine = some ⟨[0xB0, 0x00, 0x30, 0x7F, 0xB0, 0x00, 0x30, 0x7F,
        0xB0, 0x00, 0x30, 0x7F]⟩ := by decide
    rw [genuine_iff hdecode]
    exact fun h => absurd h.1 (by decide)

end Loco2Mqtt.GenuineFrames
