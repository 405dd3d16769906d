import Loco2Mqtt.Foundations.Runs
import Loco2Mqtt.Turnout.LocoNetDecoder

/-! The decoder against the history of what it was given. Messages of the three families come
in any order, with addresses pushed to the queue in between. The history alone says which
addresses have been claimed and which position each message reports; the decoder emits the
changes among these reports, address by address, and knows the latest of each. -/

namespace Loco2Mqtt.ReportHistory

open TurnoutLocoNetDecoder ChangeLog Runs

inductive Event where
  | expect (address : TurnoutAddress)
  | decode (message : LocoNetMessage)
  deriving DecidableEq

/-- At least four bytes, the first an opcode the decoder takes. -/
def Decodable (message : LocoNetMessage) : Prop :=
  4 ≤ message.bytes.length ∧ message.bytes.head?.any canDecode = true

instance (message : LocoNetMessage) : Decidable (Decodable message) :=
  inferInstanceAs (Decidable (_ ∧ _))

def Event.Decodable : Event → Prop
  | .expect _ => True
  | .decode message => ReportHistory.Decodable message

instance : DecidablePred Event.Decodable
  | .expect _ => isTrue trivial
  | .decode message => inferInstanceAs (Decidable (ReportHistory.Decodable message))

/-! ### The history -/

/-- The addresses pushed to the queue, oldest first, how many of them have been claimed, and
the reports, oldest first. -/
structure History where
  expected : List ℤ
  claimed : ℕ
  reports : List (ℤ × TurnoutPosition)

namespace History

def empty : History := ⟨[], 0, []⟩

/-- What a message reports: its own bytes name the address, or, for a switch-state ack, it is
the oldest expected address not yet claimed. -/
def report (h : History) (message : LocoNetMessage) : Option (ℤ × TurnoutPosition) :=
  match message.bytes with
  | opcode :: d1 :: d2 :: _ =>
    let position : TurnoutPosition := if d2 &&& 0x20 ≠ 0 then .closed else .thrown
    if opcode = 0xB0 ∨ opcode = 0xB1 ∧ d2 &&& 0x40 = 0 then
      some (128 * (d2.toNat % 16) + d1.toNat % 128 + 1, position)
    else if opcode = 0xB4 ∧ d1 = 0x3C then h.expected[h.claimed]?.map (·, position)
    else none
  | _ => none

/-- A switch-state ack claims an address if there is one left to claim. -/
def claimedAfter (h : History) (message : LocoNetMessage) : ℕ :=
  if IsStateAck message ∧ h.claimed < h.expected.length then h.claimed + 1 else h.claimed

def note (h : History) : Event → History
  | .expect address => { h with expected := h.expected ++ [address.value] }
  | .decode message => ⟨h.expected, h.claimedAfter message, h.reports ++ (h.report message).toList⟩

end History

/-- The history of a list of events. -/
def historyOf (events : List Event) : History := run History.note History.empty events

/-! ### The decoder at work -/

/-- The decoder and the queue, the events emitted so far and the addresses claimed so far. -/
structure State where
  decoder : TurnoutLocoNetDecoder
  acks : PendingTurnoutStateAcks
  emitted : List DomainEvent
  claims : List TurnoutAddress

def initial : State := ⟨⟨∅⟩, ⟨[]⟩, [], []⟩

/-- What a message takes from the queue. -/
def claimOf (acks : PendingTurnoutStateAcks) (message : LocoNetMessage) : Option TurnoutAddress :=
  if IsStateAck message then acks.claimNext.1 else none

def step (s : State) : Event → State
  | .expect address => { s with acks := s.acks.expect address }
  | .decode message =>
    match s.decoder.decode s.acks message with
    | none => s
    | some (event, decoder, acks) =>
      ⟨decoder, acks, s.emitted ++ event.toList, s.claims ++ (claimOf s.acks message).toList⟩

def stateAfter (events : List Event) : State := run step initial events

/-! ### The two agree -/

/-- The state of the decoder and the queue is that of the history. -/
structure Agrees (s : State) (h : History) : Prop where
  recorded : s.decoder.recorded = latest h.reports
  pending : s.acks.pendingAddresses = h.expected.drop h.claimed
  bound : h.claimed ≤ h.expected.length
  claims : s.claims.map TurnoutAddress.value = h.expected.take h.claimed
  emitted : s.emitted.map asReport = changes h.reports

theorem Agrees.initial : Agrees initial History.empty := by
  refine ⟨?_, rfl, Nat.le_refl 0, rfl, rfl⟩
  funext a
  exact Std.TreeMap.getElem?_emptyc

theorem Agrees.expect {s : State} {h : History} (agrees : Agrees s h) (address : TurnoutAddress) :
    Agrees (step s (.expect address)) (h.note (.expect address)) := by
  have hbound := agrees.bound
  refine ⟨agrees.recorded, ?_, ?_, ?_, agrees.emitted⟩
  · change s.acks.pendingAddresses ++ [address.value] = _
    rw [agrees.pending, History.note, List.drop_append_of_le_length hbound]
  · rw [History.note, List.length_append]
    exact Nat.le_add_right_of_le hbound
  · rw [History.note, List.take_append_of_le_length hbound]
    exact agrees.claims

theorem Decodable.three_le {message : LocoNetMessage} (h : Decodable message) :
    3 ≤ message.bytes.length :=
  Nat.le_trans (by decide) h.1

theorem decodable_cases {message : LocoNetMessage} (h : Decodable message) :
    ∃ opcode d1 d2 rest, message.bytes = opcode :: d1 :: d2 :: rest ∧
      (opcode = kOpcSwReq ∨ opcode = kOpcSwRep ∨ opcode = kOpcLongAck) := by
  obtain ⟨_ | ⟨opcode, _ | ⟨d1, _ | ⟨d2, rest⟩⟩⟩⟩ := message
  iterate 3 simp [Decodable] at h
  refine ⟨opcode, d1, d2, rest, rfl, ?_⟩
  simpa [canDecode, or_assoc] using h.2

/-- The decoder takes from the message and the queue the report the history expects. -/
theorem Agrees.reportOf_eq {s : State} {h : History} (agrees : Agrees s h)
    {message : LocoNetMessage} (hmessage : Decodable message) :
    reportOf s.acks message = h.report message := by
  obtain ⟨opcode, d1, d2, rest, hbytes, hopcode⟩ := decodable_cases hmessage
  have hposition : (if d2 &&& 0x20 ≠ 0 then .closed else .thrown) = positionOf d2 := rfl
  rw [reportOf, History.report, hbytes, agrees.pending, List.head?_drop]
  simp only [← addressOf_eq, hposition]
  rcases hopcode with rfl | rfl | rfl
  · simp [kOpcSwReq, kOpcSwRep, kOpcLongAck]
  · by_cases hinputs : d2 &&& 0x40 = 0
    · simp [kOpcSwRep, kOpcLongAck, kSwRepInputs, hinputs]
    · simp [kOpcSwRep, kOpcLongAck, kSwRepInputs, hinputs]
  · by_cases hcode : d1 = 0x3C <;> simp [kOpcLongAck, kSwitchStateAckCode, hcode]

/-- What decoding a message comes to, given its report. -/
theorem Agrees.decode_eq {s : State} {h : History} (agrees : Agrees s h) {message : LocoNetMessage}
    (hmessage : Decodable message) :
    s.decoder.decode s.acks message =
      some ((s.decoder.absorb (h.report message)).1, (s.decoder.absorb (h.report message)).2,
        acksAfter s.acks message) := by
  rw [TurnoutLocoNetDecoder.decode_eq _ _ _ hmessage.three_le, agrees.reportOf_eq hmessage]

/-- The event is the report, if that is a change. -/
theorem absorb_event_iff {decoder : TurnoutLocoNetDecoder} {log : List (ℤ × TurnoutPosition)}
    (h : decoder.recorded = latest log) (report : Option (ℤ × TurnoutPosition))
    (event : DomainEvent) :
    (decoder.absorb report).1 = some event ↔
      report = some (asReport event) ∧ latest log event.address.value ≠ some event.position := by
  rcases report with _ | ⟨address, position⟩
  · simp [absorb]
  · obtain ⟨⟨a⟩, p⟩ := event
    rw [absorb, emitIfChanged_event, h]
    simp only [Option.ite_none_left_eq_some, Option.some.injEq, asReport, Prod.mk.injEq,
      TurnoutStateChanged.mk.injEq, TurnoutAddress.mk.injEq]
    constructor
    · rintro ⟨hne, rfl, rfl⟩
      exact ⟨⟨rfl, rfl⟩, hne⟩
    · rintro ⟨⟨rfl, rfl⟩, hne⟩
      exact ⟨hne, rfl, rfl⟩

/-- A claim moves one address from the queue to the claimed ones. -/
theorem Agrees.claim {s : State} {h : History} (agrees : Agrees s h) (message : LocoNetMessage) :
    (acksAfter s.acks message).pendingAddresses = h.expected.drop (h.claimedAfter message) ∧
      h.claimedAfter message ≤ h.expected.length ∧
      (s.claims ++ (claimOf s.acks message).toList).map TurnoutAddress.value =
        h.expected.take (h.claimedAfter message) := by
  have hpending := agrees.pending
  have hbound := agrees.bound
  rw [acksAfter, claimOf, History.claimedAfter, List.map_append, agrees.claims]
  by_cases hack : IsStateAck message
  · rw [if_pos hack, if_pos hack]
    by_cases hlt : h.claimed < h.expected.length
    · rw [List.drop_eq_getElem_cons hlt] at hpending
      rw [if_pos ⟨hack, hlt⟩, PendingTurnoutStateAcks.claimNext, hpending, List.tail_cons,
        List.take_succ_eq_append_getElem hlt]
      exact ⟨rfl, hlt, rfl⟩
    · rw [List.drop_eq_nil_of_le (Nat.not_lt.mp hlt)] at hpending
      rw [if_neg (fun hand => hlt hand.2), PendingTurnoutStateAcks.claimNext, hpending,
        List.drop_eq_nil_of_le (Nat.not_lt.mp hlt)]
      exact ⟨rfl, hbound, List.append_nil _⟩
  · rw [if_neg hack, if_neg hack, if_neg (fun hand => hack hand.1)]
    exact ⟨hpending, hbound, List.append_nil _⟩

theorem Agrees.decode {s : State} {h : History} (agrees : Agrees s h) {message : LocoNetMessage}
    (hmessage : Decodable message) :
    Agrees (step s (.decode message)) (h.note (.decode message)) := by
  obtain ⟨hpending, hbound, hclaims⟩ := agrees.claim message
  rw [step, agrees.decode_eq hmessage]
  obtain ⟨hrecorded, hemitted⟩ := s.decoder.absorb_changes (h.report message)
  rw [agrees.recorded] at hrecorded hemitted
  refine ⟨?_, hpending, hbound, hclaims, ?_⟩
  · exact hrecorded.trans (seenAfter_latest _ _)
  · rw [List.map_append, agrees.emitted, hemitted]
    exact (changes_append _ _).symm

theorem agrees_after (events : List Event) (hevents : ∀ event ∈ events, event.Decodable) :
    Agrees (stateAfter events) (historyOf events) := by
  induction events using List.reverseRecOn with
  | nil => exact Agrees.initial
  | append_singleton front event ih =>
    have agrees := ih (fun e he => hevents e (List.mem_append_left _ he))
    have hlast : event.Decodable := hevents event List.mem_concat_self
    rw [stateAfter, historyOf, run_concat, run_concat]
    cases event with
    | expect address => exact agrees.expect address
    | decode message => exact agrees.decode hlast

/-- The expected addresses are those claimed and those still pending, in this order. -/
theorem Agrees.expected_eq {s : State} {h : History} (agrees : Agrees s h) :
    h.expected = s.claims.map TurnoutAddress.value ++ s.acks.pendingAddresses := by
  rw [agrees.claims, agrees.pending, List.take_append_drop]

/-- The decoder emits the changes of each address's reports and no other event, so that those
of one address alternate. A message without a report changes nothing, the k-th claim is of the
k-th expected address, and the known states are the latest reports. -/
theorem decoder_emits_changes (events : List Event) (hevents : ∀ event ∈ events, event.Decodable) :
    let s := stateAfter events
    let h := historyOf events
    (∀ message, Decodable message → ∃ event decoder acks,
      s.decoder.decode s.acks message = some (event, decoder, acks) ∧
        (∀ e, event = some e ↔ h.report message = some (asReport e) ∧
          latest h.reports e.address.value ≠ some e.position) ∧
        (h.report message = none → decoder = s.decoder ∧ acks = s.acks)) ∧
      (∀ address, (values (s.emitted.map asReport) address).IsChain (· ≠ ·)) ∧
      h.expected = s.claims.map TurnoutAddress.value ++ s.acks.pendingAddresses ∧
      (∀ e, e ∈ s.decoder.allKnownStates ↔
        latest h.reports e.address.value = some e.position) ∧
      (s.decoder.allKnownStates.map (fun e => e.address.value)).Pairwise (· < ·) := by
  intro s h
  have agrees : Agrees s h := agrees_after events hevents
  refine ⟨fun message hmessage => ?_, fun address => ?_, agrees.expected_eq, fun e => ?_,
    allKnownStates_ascending s.decoder⟩
  · refine ⟨_, _, _, agrees.decode_eq hmessage, absorb_event_iff agrees.recorded _, fun hnone => ?_⟩
    have hreport : reportOf s.acks message = none := (agrees.reportOf_eq hmessage).trans hnone
    exact ⟨by rw [hnone, absorb], acksAfter_of_no_report hmessage.three_le hreport⟩
  · rw [agrees.emitted, values_changes]
    exact List.isChain_destutter _ _
  · rw [mem_allKnownStates, agrees.recorded]

/-- Two addresses are expected; an ack, a request and a sensor input follow. -/
def mixed : List Event :=
  [.expect ⟨5⟩, .expect ⟨9⟩, .decode ⟨[0xB4, 0x3C, 0x30, 0x47]⟩, .decode ⟨[0xB0, 0x04, 0x10, 0x5B]⟩,
    .decode ⟨[0xB1, 0x04, 0x70, 0x3A]⟩]

theorem decoder_emits_changes_mixed : ∃ decoder acks,
    (stateAfter mixed).decoder.decode (stateAfter mixed).acks ⟨[0xB4, 0x3C, 0x00, 0x77]⟩ =
      some (some ⟨⟨9⟩, .thrown⟩, decoder, acks) := by
  have hmixed : ∀ event ∈ mixed, event.Decodable := by decide
  obtain ⟨event, decoder, acks, hdecode, hevent, -⟩ :=
    (decoder_emits_changes mixed hmixed).1 ⟨[0xB4, 0x3C, 0x00, 0x77]⟩ (by decide)
  have hthrown := (hevent ⟨⟨9⟩, .thrown⟩).mpr ⟨by decide, by decide⟩
  exact ⟨decoder, acks, hthrown ▸ hdecode⟩

end Loco2Mqtt.ReportHistory
