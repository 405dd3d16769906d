import Loco2Mqtt.Turnout.LocoNetDecoder
import Loco2Mqtt.Turnout.Mqtt

/-! `LocoNetMessageRouter`, with the one pair of decoder and encoder that the firmware
registers. Handling a message publishes exactly the change it makes to the recorded
positions, so what has been published mirrors them: the last payload on each state topic is
the recorded position of its address, and no other topic is used. A full republish makes the
mirror hold of what a client has received since any earlier moment. -/

namespace Loco2Mqtt

open TurnoutMqttEncoder ChangeLog

/-- The router with the decoder and the queue it is wired to. `messageLog` is what has been
recorded through the `MessageLog` port. -/
structure LocoNetMessageRouter where
  decoder : TurnoutLocoNetDecoder
  pendingAcks : PendingTurnoutStateAcks
  lastRepublishAtMilliseconds : UInt32
  messageLog : List LocoNetMessage

namespace LocoNetMessageRouter

def kStateRepublishIntervalMs : UInt32 := 30000

/-- As the composition root constructs it. -/
def initial : LocoNetMessageRouter := ⟨⟨∅⟩, ⟨[]⟩, 0, []⟩

/-- The loop over the registered decoders; `none` is a read past the end of the message.
Every operation also returns what it hands to `MqttPort::publish`, in order. -/
def dispatch (router : LocoNetMessageRouter) (message : LocoNetMessage) :
    Option (LocoNetMessageRouter × List MqttMessage) := do
  let opcode ← message.bytes[0]?
  if !TurnoutLocoNetDecoder.canDecode opcode then return (router, [])
  let (event, decoder, pendingAcks) ← router.decoder.decode router.pendingAcks message
  return ({ router with decoder, pendingAcks }, (event.map encode).toList)

def handleMessage (router : LocoNetMessageRouter) (message : LocoNetMessage) :
    LocoNetMessageRouter × List MqttMessage :=
  let router := { router with messageLog := router.messageLog ++ [message] }
  if message.bytes.length < 4 then (router, [])
  else (router.dispatch message).getD (router, [])

/-- The loop of `update` over the messages that `receive` yields until it yields none. -/
def drain (router : LocoNetMessageRouter) :
    List LocoNetMessage → LocoNetMessageRouter × List MqttMessage
  | [] => (router, [])
  | message :: rest =>
    let (router, published) := router.handleMessage message
    let (router, more) := router.drain rest
    (router, published ++ more)

/-- The clock is read for the comparison and again for the stamp. -/
def republishAllKnownStatesIfDue (router : LocoNetMessageRouter) (now stamp : UInt32) :
    LocoNetMessageRouter × List MqttMessage :=
  if now - router.lastRepublishAtMilliseconds < kStateRepublishIntervalMs then (router, [])
  else ({ router with lastRepublishAtMilliseconds := stamp },
    router.decoder.allKnownStates.map encode)

def update (router : LocoNetMessageRouter) (received : List LocoNetMessage) (now stamp : UInt32) :
    LocoNetMessageRouter × List MqttMessage :=
  let (router, changes) := router.drain received
  let (router, republished) := router.republishAllKnownStatesIfDue now stamp
  (router, changes ++ republished)

/-! ### What a message tells the router -/

/-- A frame the router hands to the decoder. -/
def Dispatched (message : LocoNetMessage) : Prop :=
  4 ≤ message.bytes.length ∧
    ∃ opcode ∈ message.bytes.head?, TurnoutLocoNetDecoder.canDecode opcode

instance (message : LocoNetMessage) : Decidable (Dispatched message) :=
  inferInstanceAs (Decidable (_ ∧ _))

def reportOf (acks : PendingTurnoutStateAcks) (message : LocoNetMessage) :
    Option (ℤ × TurnoutPosition) :=
  if Dispatched message then TurnoutLocoNetDecoder.reportOf acks message else none

def acksAfter (acks : PendingTurnoutStateAcks) (message : LocoNetMessage) :
    PendingTurnoutStateAcks :=
  if Dispatched message then TurnoutLocoNetDecoder.acksAfter acks message else acks

/-- A frame that is no state ack reports the same whatever is expected. -/
theorem reportOf_of_not_isStateAck {message : LocoNetMessage}
    (h : ¬ TurnoutLocoNetDecoder.IsStateAck message) (acks acks' : PendingTurnoutStateAcks) :
    reportOf acks message = reportOf acks' message := by
  obtain ⟨_ | ⟨opcode, _ | ⟨b1, _ | ⟨b2, rest⟩⟩⟩⟩ := message
  iterate 3 rfl
  simp only [reportOf, TurnoutLocoNetDecoder.reportOf]
  by_cases hopcode : opcode = kOpcLongAck
  · have hcode : b1 ≠ kSwitchStateAckCode := fun hcode =>
      h ⟨congrArg some hopcode, congrArg some hcode⟩
    simp only [hcode, if_false]
  · simp only [hopcode, if_false]

/-- No read of `handleMessage` goes past the end of the message. -/
theorem dispatch_isSome (router : LocoNetMessageRouter) {message : LocoNetMessage}
    (h : 4 ≤ message.bytes.length) : (router.dispatch message).isSome := by
  obtain ⟨_ | ⟨opcode, rest⟩⟩ := message
  · simp at h
  · unfold dispatch
    rw [TurnoutLocoNetDecoder.decode_eq _ _ _ (by omega)]
    by_cases hop : TurnoutLocoNetDecoder.canDecode opcode <;> simp [hop]

theorem handleMessage_eq (router : LocoNetMessageRouter) (message : LocoNetMessage) :
    router.handleMessage message =
      ({ router with
          decoder := (router.decoder.absorb (reportOf router.pendingAcks message)).2
          pendingAcks := acksAfter router.pendingAcks message
          messageLog := router.messageLog ++ [message] },
        ((router.decoder.absorb (reportOf router.pendingAcks message)).1.map encode).toList) := by
  unfold handleMessage
  by_cases hlen : message.bytes.length < 4
  · have hd : ¬ Dispatched message := fun h => absurd h.1 (by omega)
    simp [hlen, reportOf, acksAfter, hd, TurnoutLocoNetDecoder.absorb]
  · rw [if_neg hlen]
    obtain ⟨_ | ⟨opcode, rest⟩⟩ := message
    · simp at hlen
    · by_cases hop : TurnoutLocoNetDecoder.canDecode opcode
      · have hd : Dispatched ⟨opcode :: rest⟩ := ⟨not_lt.mp hlen, opcode, rfl, hop⟩
        have hdecode := TurnoutLocoNetDecoder.decode_eq router.decoder router.pendingAcks
          ⟨opcode :: rest⟩ (by simp only [not_lt] at hlen ⊢; omega)
        simp [reportOf, acksAfter, hd, dispatch, hop, hdecode]
      · have hd : ¬ Dispatched ⟨opcode :: rest⟩ := by simp [Dispatched, hop]
        simp [reportOf, acksAfter, hd, dispatch, hop, TurnoutLocoNetDecoder.absorb]

/-- The reports of a sequence of messages. -/
def reportsOf (acks : PendingTurnoutStateAcks) : List LocoNetMessage → List (ℤ × TurnoutPosition)
  | [] => []
  | message :: rest => (reportOf acks message).toList ++ reportsOf (acksAfter acks message) rest

/-- The message that announces a report. -/
def announce (report : ℤ × TurnoutPosition) : MqttMessage := encode ⟨⟨report.1⟩, report.2⟩

/-- What is published of a report announces it, if it is a change. -/
theorem absorb_announces (decoder : TurnoutLocoNetDecoder)
    (report : Option (ℤ × TurnoutPosition)) :
    ((decoder.absorb report).1.map encode).toList =
      (changesFrom decoder.recorded report.toList).map announce := by
  rw [← (decoder.absorb_changes report).2, List.map_map, Option.toList_map]
  rfl

/-- Draining records every report and publishes the ones that are changes. -/
theorem drain_changes (router : LocoNetMessageRouter) (messages : List LocoNetMessage) :
    (router.drain messages).1.decoder.recorded =
        seenAfter router.decoder.recorded (reportsOf router.pendingAcks messages) ∧
      (router.drain messages).2 =
        (changesFrom router.decoder.recorded (reportsOf router.pendingAcks messages)).map
          announce := by
  induction messages generalizing router with
  | nil => exact ⟨rfl, rfl⟩
  | cons message rest ih =>
    have hrec := (router.decoder.absorb_changes (reportOf router.pendingAcks message)).1
    have hpub := absorb_announces router.decoder (reportOf router.pendingAcks message)
    obtain ⟨ihrec, ihpub⟩ := ih (router.handleMessage message).1
    simp only [handleMessage_eq, hrec] at ihrec ihpub
    simp only [drain, reportsOf, handleMessage_eq]
    constructor
    · rw [ihrec]
      funext a
      simp only [seenAfter, latest_append, Option.or_assoc]
    · rw [ihpub, hpub, changesFrom_append, List.map_append]

end LocoNetMessageRouter

/-! ### The mirror -/

/-- What has been published, as reports of payloads on topics. -/
def payloads (published : List MqttMessage) : List (Text × Text) :=
  published.map (fun message => (message.topic, message.payload))

theorem payloads_append (published more : List MqttMessage) :
    payloads (published ++ more) = payloads published ++ payloads more :=
  List.map_append

/-- Every message is a state message of an address with a recorded position. -/
def OnlyKnown (recorded : ℤ → Option TurnoutPosition) (published : List MqttMessage) : Prop :=
  ∀ message ∈ published, ∃ a, recorded a ≠ none ∧ message.topic = stateTopic a

/-- The last payload on each state topic is the recorded position of its address, and there
are no other topics. -/
structure Mirrors (recorded : ℤ → Option TurnoutPosition) (published : List MqttMessage) :
    Prop where
  latest_eq : ∀ a, latest (payloads published) (stateTopic a) = (recorded a).map payloadOf
  only : OnlyKnown recorded published

namespace Mirrors

variable {recorded : ℤ → Option TurnoutPosition} {published : List MqttMessage}

theorem empty : Mirrors (fun _ => none) [] :=
  ⟨fun _ => rfl, fun _ h => absurd h List.not_mem_nil⟩

/-- The topics in use are the state topics of the recorded addresses. -/
theorem topic_iff (h : Mirrors recorded published) (topic : Text) :
    (∃ message ∈ published, message.topic = topic) ↔
      ∃ a, recorded a ≠ none ∧ topic = stateTopic a := by
  constructor
  · rintro ⟨message, hmem, rfl⟩
    exact h.only message hmem
  · rintro ⟨a, ha, rfl⟩
    obtain ⟨p, hp⟩ := Option.ne_none_iff_exists'.mp ha
    have hlatest := h.latest_eq a
    rw [hp, Option.map_some] at hlatest
    obtain ⟨message, hmem, heq⟩ := List.mem_map.mp (mem_of_latest hlatest)
    exact ⟨message, hmem, congrArg Prod.fst heq⟩

end Mirrors

/-- On state topics, the payloads announced are the positions reported. -/
theorem values_payloads_announce (reports : List (ℤ × TurnoutPosition)) (a : ℤ) :
    values (payloads (reports.map LocoNetMessageRouter.announce)) (stateTopic a) =
      (values reports a).map payloadOf := by
  induction reports using List.reverseRecOn with
  | nil => rfl
  | append_singleton reports report ih =>
    obtain ⟨b, p⟩ := report
    rw [List.map_append, payloads_append]
    have hlast : payloads ([(b, p)].map LocoNetMessageRouter.announce) =
        [(stateTopic b, payloadOf p)] := rfl
    rw [hlast, values_concat, values_concat, ih]
    by_cases hab : b = a
    · subst hab; simp
    · rw [if_neg hab, if_neg (fun h => hab (stateTopic_injective h))]

theorem latest_payloads_announce (reports : List (ℤ × TurnoutPosition)) (a : ℤ) :
    latest (payloads (reports.map LocoNetMessageRouter.announce)) (stateTopic a) =
      (latest reports a).map payloadOf := by
  rw [latest, values_payloads_announce, List.getLast?_map, latest]

theorem OnlyKnown.drain {router : LocoNetMessageRouter} {published : List MqttMessage}
    (h : OnlyKnown router.decoder.recorded published) (messages : List LocoNetMessage) :
    OnlyKnown (router.drain messages).1.decoder.recorded
      (published ++ (router.drain messages).2) := by
  obtain ⟨hrec, hpub⟩ := router.drain_changes messages
  intro message hmem
  rw [hrec]
  rcases List.mem_append.mp hmem with hold | hnew
  · obtain ⟨a, ha, htopic⟩ := h message hold
    exact ⟨a, seenAfter_ne_none ha, htopic⟩
  · rw [hpub] at hnew
    obtain ⟨report, hr, rfl⟩ := List.mem_map.mp hnew
    refine ⟨report.1, ?_, rfl⟩
    have hlog : report ∈ _ := changesFrom_subset _ _ hr
    rw [seenAfter, Ne, Option.or_eq_none_iff, not_and_or]
    exact Or.inl (fun hnone => latest_eq_none_iff.mp hnone report hlog rfl)

/-- Draining messages keeps the mirror. -/
theorem Mirrors.drain {router : LocoNetMessageRouter} {published : List MqttMessage}
    (h : Mirrors router.decoder.recorded published) (messages : List LocoNetMessage) :
    Mirrors (router.drain messages).1.decoder.recorded
      (published ++ (router.drain messages).2) := by
  refine ⟨fun a => ?_, h.only.drain messages⟩
  obtain ⟨hrec, hpub⟩ := router.drain_changes messages
  rw [payloads_append, latest_append, hpub, latest_payloads_announce, h.latest_eq, hrec,
    ← seenAfter_changesFrom, seenAfter, Option.map_or]

/-- A topic without a known address has no state message. -/
theorem OnlyKnown.latest_eq_none {recorded : ℤ → Option TurnoutPosition}
    {published : List MqttMessage} (h : OnlyKnown recorded published) {a : ℤ}
    (ha : recorded a = none) : latest (payloads published) (stateTopic a) = none := by
  rw [latest_eq_none_iff]
  intro r hr htopic
  obtain ⟨message, hmem, rfl⟩ := List.mem_map.mp hr
  obtain ⟨b, hb, hbt⟩ := h message hmem
  exact hb (stateTopic_injective (hbt.symm.trans htopic) ▸ ha)

theorem onlyKnown_allKnownStates (decoder : TurnoutLocoNetDecoder) :
    OnlyKnown decoder.recorded (decoder.allKnownStates.map encode) := by
  intro message hmem
  obtain ⟨event, hevent, rfl⟩ := List.mem_map.mp hmem
  have hknown := TurnoutLocoNetDecoder.mem_allKnownStates.mp hevent
  exact ⟨event.address.value, by rw [hknown]; exact Option.some_ne_none _, rfl⟩

/-- A republish announces each known position once. -/
theorem latest_payloads_allKnownStates (decoder : TurnoutLocoNetDecoder) (a : ℤ) :
    latest (payloads (decoder.allKnownStates.map encode)) (stateTopic a) =
      (decoder.recorded a).map payloadOf := by
  rcases hrec : decoder.recorded a with _ | p
  · exact (onlyKnown_allKnownStates decoder).latest_eq_none hrec
  · apply latest_eq_some_of_unique
    · exact List.mem_map.mpr ⟨encode ⟨⟨a⟩, p⟩, List.mem_map.mpr ⟨⟨⟨a⟩, p⟩,
        TurnoutLocoNetDecoder.mem_allKnownStates.mpr hrec, rfl⟩, rfl⟩
    · intro w hw
      obtain ⟨message, hmem, heq⟩ := List.mem_map.mp hw
      obtain ⟨event, hev, rfl⟩ := List.mem_map.mp hmem
      have hknown := TurnoutLocoNetDecoder.mem_allKnownStates.mp hev
      have haddr : event.address.value = a := stateTopic_injective (congrArg Prod.fst heq)
      rw [haddr, hrec, Option.some.injEq] at hknown
      have hw : payloadOf event.position = w := congrArg Prod.snd heq
      rw [← hw, hknown]

/-- A full republish makes the mirror hold, whatever state messages came before. -/
theorem OnlyKnown.republish {decoder : TurnoutLocoNetDecoder} {published : List MqttMessage}
    (h : OnlyKnown decoder.recorded published) :
    Mirrors decoder.recorded (published ++ decoder.allKnownStates.map encode) := by
  refine ⟨fun a => ?_, fun message hmem => ?_⟩
  · rw [payloads_append, latest_append, latest_payloads_allKnownStates]
    rcases hrec : decoder.recorded a with _ | p
    · exact h.latest_eq_none hrec
    · rfl
  · rcases List.mem_append.mp hmem with hold | hnew
    · exact h message hold
    · exact onlyKnown_allKnownStates decoder message hnew

/-! ### Updates -/

namespace LocoNetMessageRouter

theorem drain_lastRepublish (router : LocoNetMessageRouter) (messages : List LocoNetMessage) :
    (router.drain messages).1.lastRepublishAtMilliseconds = router.lastRepublishAtMilliseconds := by
  induction messages generalizing router with
  | nil => rfl
  | cons message rest ih =>
    have hhead :=
      congrArg (fun r => r.1.lastRepublishAtMilliseconds) (router.handleMessage_eq message)
    simp only [drain, ih]
    exact hhead

theorem update_of_not_due {router : LocoNetMessageRouter} {now : UInt32}
    (h : now - router.lastRepublishAtMilliseconds < kStateRepublishIntervalMs)
    (received : List LocoNetMessage) (stamp : UInt32) :
    router.update received now stamp = router.drain received := by
  rw [← router.drain_lastRepublish received] at h
  simp only [update, republishAllKnownStatesIfDue, h, if_true, List.append_nil]

theorem update_of_due {router : LocoNetMessageRouter} {now : UInt32}
    (h : ¬ now - router.lastRepublishAtMilliseconds < kStateRepublishIntervalMs)
    (received : List LocoNetMessage) (stamp : UInt32) :
    router.update received now stamp =
      ({ (router.drain received).1 with lastRepublishAtMilliseconds := stamp },
        (router.drain received).2 ++
          (router.drain received).1.decoder.allKnownStates.map encode) := by
  rw [← router.drain_lastRepublish received] at h
  simp only [update, republishAllKnownStatesIfDue, h, if_false]

theorem update_decoder (router : LocoNetMessageRouter) (received : List LocoNetMessage)
    (now stamp : UInt32) :
    (router.update received now stamp).1.decoder = (router.drain received).1.decoder := by
  by_cases hdue : now - router.lastRepublishAtMilliseconds < kStateRepublishIntervalMs
  · rw [update_of_not_due hdue]
  · rw [update_of_due hdue]

end LocoNetMessageRouter

theorem Mirrors.update {router : LocoNetMessageRouter} {published : List MqttMessage}
    (h : Mirrors router.decoder.recorded published) (received : List LocoNetMessage)
    (now stamp : UInt32) :
    Mirrors (router.update received now stamp).1.decoder.recorded
      (published ++ (router.update received now stamp).2) := by
  have hdrain := h.drain received
  by_cases hdue : now - router.lastRepublishAtMilliseconds <
      LocoNetMessageRouter.kStateRepublishIntervalMs
  · rw [LocoNetMessageRouter.update_of_not_due hdue]
    exact hdrain
  · rw [LocoNetMessageRouter.update_of_due hdue, ← List.append_assoc]
    exact hdrain.only.republish

end Loco2Mqtt
