import Loco2Mqtt.Bridge.CommandPath
import Loco2Mqtt.Bridge.Device

/-! What the device can say. The frames it sends are the two pulses of every command accepted
and the requests of whole rounds of the table, none of them twice and none left out but those
that are pending. The messages it publishes are states of turnouts in range and the status of
the connection, and none of them comes back to it as a command. -/

namespace Loco2Mqtt.Device

open LocoNetOverTcpCodec Lines Runs PendingLocoNetSendScheduler Sessions OutboundTransport
  ChangeLog TurnoutMqttEncoder TurnoutLocoNetDecoder CommandPath
open DelayLine (released_append_kept_perm)
open JmriConnectionStatusPublisher (kTopic)
open TurnoutLocoNetEncoder (buildSwReq)
open TurnoutTableStartupQuery (turnoutAddresses requestsOf requestsOf_messages)

/-- The two frames that a command is encoded as. -/
def pulses (command : ℤ × TurnoutPosition) : List LocoNetMessage :=
  [buildSwReq ⟨⟨command.1⟩, command.2⟩ true, buildSwReq ⟨⟨command.1⟩, command.2⟩ false]

/-- The frames of one round of the startup query. -/
def roundRequests : List LocoNetMessage :=
  turnoutAddresses.map (fun address => TurnoutStateRequestEncoder.encode ⟨address⟩)

/-- The states of turnouts in range, and the status of the connection. -/
inductive Announcement : MqttMessage → Prop where
  | state {address : ℤ} (h : InRange address) (position : TurnoutPosition) :
    Announcement (encode ⟨⟨address⟩, position⟩)
  | status (connected : Bool) :
    Announcement (statusMessage connected)

/-- A topic of the subscription `loconet/+/+/set`. -/
def Subscribed (topic : Text) : Prop :=
  ∃ deviceType address : Text, '/' ∉ deviceType ∧ '/' ∉ address ∧
    topic = "loconet/".toList ++ deviceType ++ '/' :: (address ++ "/set".toList)

/-! ### Frames and messages -/

theorem wellFormed_request {z : ℕ} (hz : z < 2048) :
    WellFormed (TurnoutStateRequestEncoder.encode ⟨z + 1⟩) := by
  have hframe : TurnoutStateRequestEncoder.encode ⟨z + 1⟩ =
      checksummed TurnoutStateRequestEncoder.kOpcSwState (UInt8.ofNat (z % 128))
        (UInt8.ofNat (z / 128)) := by
    have hzero : (z : ℤ) + 1 - 1 = z := by omega
    simp only [TurnoutStateRequestEncoder.encode, hzero, low_bits, high_bits hz]
  have hlt : ∀ n < 128, UInt8.ofNat n < 0x80 := by
    intro n hn
    rw [UInt8.lt_iff_toNat_lt, UInt8.toNat_ofNat']
    exact lt_of_le_of_lt (Nat.mod_le _ _) hn
  have hlow := hlt (z % 128) (by omega)
  have hhigh := hlt (z / 128) (by omega)
  rw [hframe]
  exact ⟨_, _, _, _, rfl, by decide, hlow, hhigh, checksum_lt (by decide) hlow hhigh,
    xorOf_checksummed _ _ _⟩

theorem inRange_of_mem_turnoutAddresses : ∀ address ∈ turnoutAddresses, InRange address := by
  unfold InRange
  decide

theorem exists_zeroBased {address : ℤ} (h : InRange address) :
    ∃ z : ℕ, z < 2048 ∧ address = z + 1 := by
  obtain ⟨hlow, hhigh⟩ := h
  exact ⟨(address - 1).toNat, by omega, by omega⟩

theorem wellFormed_of_mem_roundRequests {frame : LocoNetMessage} (h : frame ∈ roundRequests) :
    WellFormed frame := by
  obtain ⟨address, haddress, rfl⟩ := List.mem_map.mp h
  obtain ⟨z, hz, rfl⟩ := exists_zeroBased (inRange_of_mem_turnoutAddresses address haddress)
  exact wellFormed_request hz

theorem wellFormed_of_mem_pulses {command : ℤ × TurnoutPosition} (hrange : InRange command.1)
    {frame : LocoNetMessage} (h : frame ∈ pulses command) : WellFormed frame := by
  obtain ⟨address, position⟩ := command
  obtain ⟨z, hz, rfl⟩ := exists_zeroBased hrange
  rcases List.mem_cons.mp h with rfl | h
  · exact wellFormed_buildSwReq hz position true
  · rw [List.mem_singleton.mp h]
    exact wellFormed_buildSwReq hz position false

/-- No announcement is subscribed to: the topics end otherwise. -/
theorem Announcement.not_subscribed {message : MqttMessage} (h : Announcement message) :
    ¬ Subscribed message.topic := by
  rintro ⟨deviceType, address, -, -, htopic⟩
  have hset : ("loconet/".toList ++ deviceType ++ '/' :: (address ++ "/set".toList)).getLast? =
      some 't' := by
    simp [List.getLast?_append, List.getLast?_cons]
  have hstate : ∀ front : Text, (front ++ "/state".toList).getLast? = some 'e' := fun front => by
    rw [List.getLast?_append]
    rfl
  have hstatus : kTopic.getLast? ≠ some 't' := by decide
  rw [← htopic] at hset
  cases h with
  | state hrange position => exact absurd ((hstate _).symm.trans hset) (by decide)
  | status connected => exact hstatus hset

theorem nul_not_mem_payloadOf : ∀ position, '\x00' ∉ payloadOf position := by
  intro position
  cases position <;> decide

theorem nul_not_mem_status : ∀ connected,
    '\x00' ∉ kTopic ∧ '\x00' ∉ JmriConnectionStatusPublisher.payloadOf connected := by
  decide

/-- Nor does it hold anything that ends a C string. -/
theorem Announcement.publish_eq {message : MqttMessage} (h : Announcement message) :
    PicoMqttPort.publish message = (message.topic, message.payload) := by
  have hwhole : '\x00' ∉ message.topic ∧ '\x00' ∉ message.payload := by
    cases h with
    | @state address hrange position =>
      obtain ⟨n, rfl⟩ : ∃ n : ℕ, address = n := ⟨address.toNat, by have hlow := hrange.1; omega⟩
      have hdigits : '\x00' ∉ Decimal.print n := fun hc =>
        absurd (Decimal.print_isDigit n hc) (by decide)
      rw [encode_eq, List.mem_append, List.mem_append, not_or, not_or]
      exact ⟨⟨⟨by decide, hdigits⟩, by decide⟩, nul_not_mem_payloadOf position⟩
    | status connected => exact nul_not_mem_status connected
  rw [PicoMqttPort.publish, cStr_eq_self_iff.mpr hwhole.1, cStr_eq_self_iff.mpr hwhole.2]

/-! ### What the router can know -/

theorem inRange_addressOf (sw1 sw2 : UInt8) : InRange (addressOf sw1 sw2) := by
  rw [addressOf_eq, InRange]
  omega

/-- A report is for a turnout that a frame can name, or for one that is expected. -/
theorem reportOf_inRange {acks : PendingTurnoutStateAcks}
    (hacks : ∀ address ∈ acks.pendingAddresses, InRange address) {message : LocoNetMessage}
    {report : ℤ × TurnoutPosition}
    (h : LocoNetMessageRouter.reportOf acks message = some report) : InRange report.1 := by
  obtain ⟨bytes⟩ := message
  simp only [LocoNetMessageRouter.reportOf, Option.ite_none_right_eq_some] at h
  obtain ⟨-, h⟩ := h
  rcases bytes with _ | ⟨opcode, _ | ⟨d1, _ | ⟨d2, rest⟩⟩⟩
  iterate 3 cases h
  simp only [TurnoutLocoNetDecoder.reportOf] at h
  split_ifs at h
  · obtain ⟨address, haddress, rfl⟩ := Option.map_eq_some_iff.mp h
    exact hacks address (List.mem_of_head? haddress)
  · rw [← Option.some.inj h]
    exact inRange_addressOf d1 d2

/-- Every recorded turnout is in range. -/
def KnowsInRange (decoder : TurnoutLocoNetDecoder) : Prop :=
  ∀ a, decoder.recorded a ≠ none → InRange a

theorem knowsInRange_absorb {decoder : TurnoutLocoNetDecoder} (h : KnowsInRange decoder)
    {report : Option (ℤ × TurnoutPosition)} (hreport : ∀ r ∈ report, InRange r.1) :
    KnowsInRange (decoder.absorb report).2 ∧
      ∀ message ∈ ((decoder.absorb report).1.map encode).toList, Announcement message := by
  constructor
  · intro a ha
    rw [(decoder.absorb_changes report).1, seenAfter] at ha
    by_cases hlatest : latest report.toList a = none
    · rw [hlatest, Option.none_or] at ha
      exact h a ha
    · obtain ⟨position, hposition⟩ := Option.ne_none_iff_exists'.mp hlatest
      exact hreport _ (Option.mem_toList.mp (mem_of_latest hposition))
  · intro message hmessage
    rw [LocoNetMessageRouter.absorb_announces] at hmessage
    obtain ⟨r, hr, rfl⟩ := List.mem_map.mp hmessage
    exact .state (hreport r (Option.mem_toList.mp (changesFrom_subset _ _ hr))) r.2

theorem announcement_of_known {decoder : TurnoutLocoNetDecoder} (h : KnowsInRange decoder)
    {message : MqttMessage} (hmessage : message ∈ decoder.allKnownStates.map encode) :
    Announcement message := by
  obtain ⟨event, hevent, rfl⟩ := List.mem_map.mp hmessage
  rw [mem_allKnownStates] at hevent
  exact .state (h _ (by rw [hevent]; exact Option.some_ne_none _)) event.position

/-! ### Runs -/

/-- The frames are those of the commands and of so many rounds, the acks expected are the last
of these rounds, and everything known and published is about turnouts in range. -/
structure Tame (s : State) (rounds : ℕ) : Prop where
  frames : (s.handed ++ s.scheduler.pending.map PendingLocoNetSend.message).Perm
    (s.commands.flatMap pulses ++ (List.replicate rounds roundRequests).flatten)
  commands : ∀ command ∈ s.commands, InRange command.1
  expected : s.router.pendingAcks.pendingAddresses.IsSuffix
    (List.replicate rounds turnoutAddresses).flatten
  known : KnowsInRange s.router.decoder
  published : ∀ message ∈ s.published, Announcement message

theorem tame_initial (start : ℕ) : Tame (initial start) 0 where
  frames := List.Perm.refl _
  commands := fun _ h => absurd h List.not_mem_nil
  expected := List.suffix_refl _
  known := fun _ h => absurd Std.TreeMap.getElem?_emptyc h
  published := fun _ h => absurd h List.not_mem_nil

theorem Tame.inRange_expected {s : State} {rounds : ℕ} (h : Tame s rounds) :
    ∀ address ∈ s.router.pendingAcks.pendingAddresses, InRange address := by
  intro address haddress
  obtain ⟨round, hround, hmem⟩ := List.mem_flatten.mp (h.expected.subset haddress)
  rw [List.eq_of_mem_replicate hround] at hmem
  exact inRange_of_mem_turnoutAddresses address hmem

theorem tame_handleMessage {s : State} {rounds : ℕ} (h : Tame s rounds)
    (message : LocoNetMessage) : Tame (handleMessage s message) rounds := by
  obtain ⟨hknown, hannounced⟩ :=
    knowsInRange_absorb h.known (fun r hr => reportOf_inRange h.inRange_expected hr)
  have hacks :
      (LocoNetMessageRouter.acksAfter s.router.pendingAcks message).pendingAddresses.IsSuffix
        s.router.pendingAcks.pendingAddresses := by
    rw [LocoNetMessageRouter.acksAfter, TurnoutLocoNetDecoder.acksAfter]
    split_ifs
    · exact List.tail_suffix _
    · exact List.suffix_refl _
    · exact List.suffix_refl _
  simp only [handleMessage, LocoNetMessageRouter.handleMessage_eq]
  refine ⟨h.frames, h.commands, hacks.trans h.expected, hknown, fun m hm => ?_⟩
  rcases List.mem_append.mp hm with hm | hm
  · exact h.published m hm
  · exact hannounced m hm

theorem tame_handleCommand {s : State} {rounds : ℕ} (h : Tame s rounds) (sending : Sending)
    (elapsed : ℕ) : Tame (step s (.handleCommand sending elapsed)) rounds := by
  rcases step_handleCommand s sending elapsed with ⟨-, hstep⟩ | ⟨command, hrange, -, hstep⟩
  · rw [hstep]
    exact ⟨h.frames, h.commands, h.expected, h.known, h.published⟩
  · rw [hstep]
    refine ⟨?_, fun c hc => ?_, h.expected, h.known, h.published⟩
    · rw [List.perm_iff_count]
      intro frame
      have hcount := List.perm_iff_count.mp h.frames frame
      have hpulses : pulses (command.address.value, command.position) =
          [buildSwReq command true] ++ [buildSwReq command false] := rfl
      simp only [transmit, sendAfter, List.map_append, List.map_cons, List.map_nil,
        List.flatMap_append, List.flatMap_singleton, hpulses, List.count_append] at hcount ⊢
      omega
    · rcases List.mem_append.mp hc with hc | hc
      · exact h.commands c hc
      · rw [List.mem_singleton.mp hc]
        exact hrange

theorem tame_queryUpdate {s : State} {rounds : ℕ} (h : Tame s rounds) (alive : Bool)
    (clock : ℕ → UInt32) : ∃ rounds, Tame (step s (.queryUpdate alive clock)) rounds := by
  obtain ⟨query, hstep | ⟨clock', hstep⟩⟩ := step_queryUpdate s alive clock
  · refine ⟨rounds, ?_⟩
    rw [hstep]
    exact ⟨h.frames, h.commands, h.expected, h.known, h.published⟩
  · refine ⟨rounds + 1, ?_⟩
    have hnext : ∀ {α : Type} (round : List α), (List.replicate (rounds + 1) round).flatten =
        (List.replicate rounds round).flatten ++ round := by
      intro α round
      rw [List.replicate_succ', List.flatten_append, List.flatten_singleton]
    rw [hstep]
    refine ⟨?_, h.commands, ?_, h.known, h.published⟩
    · rw [List.map_append, requestsOf_messages, hnext, ← List.append_assoc, ← List.append_assoc]
      exact h.frames.append_right _
    · obtain ⟨claimed, hclaimed⟩ := h.expected
      refine ⟨claimed, ?_⟩
      rw [hnext, ← hclaimed, List.append_assoc]

theorem tame_step (s : State) (e : Event) (h : ∃ rounds, Tame s rounds) :
    ∃ rounds, Tame (step s e) rounds := by
  obtain ⟨rounds, h⟩ := h
  cases e with
  | tick | arrive | command | ledUpdate =>
    exact ⟨rounds, h.frames, h.commands, h.expected, h.known, h.published⟩
  | schedulerUpdate sendings =>
    refine ⟨rounds, ?_, h.commands, h.expected, h.known, h.published⟩
    simp only [step, transmit, update_eq, List.append_assoc, ← List.map_append]
    exact (((released_append_kept_perm _ _).map _).append_left _).trans h.frames
  | readLine answers serving =>
    rcases step_readLine s answers serving with ⟨-, hstep⟩ | ⟨message, -, hstep⟩
    · rw [hstep]
      exact ⟨rounds, h.frames, h.commands, h.expected, h.known, h.published⟩
    · have hline :
          Tame { s with line := Sessions.step s.line (.readLine answers serving) } rounds :=
        ⟨h.frames, h.commands, h.expected, h.known, h.published⟩
      rw [hstep]
      exact ⟨rounds, tame_handleMessage hline message⟩
  | republish elapsed =>
    refine ⟨rounds, ?_⟩
    rcases step_republish s elapsed with hstep | hstep
    · rw [hstep]
      exact ⟨h.frames, h.commands, h.expected, h.known, h.published⟩
    · rw [hstep]
      refine ⟨h.frames, h.commands, h.expected, h.known, fun m hm => ?_⟩
      rcases List.mem_append.mp hm with hm | hm
      · exact h.published m hm
      · exact announcement_of_known h.known hm
  | publisherUpdate alive clock =>
    obtain ⟨publisher, statuses, hstep⟩ := step_publisherUpdate s alive clock
    rw [hstep]
    refine ⟨rounds, h.frames, h.commands, h.expected, h.known, fun m hm => ?_⟩
    rcases List.mem_append.mp hm with hm | hm
    · exact h.published m hm
    · obtain ⟨connected, -, rfl⟩ := List.mem_map.mp hm
      exact .status connected
  | queryUpdate alive clock => exact tame_queryUpdate h alive clock
  | handleCommand sending elapsed => exact ⟨rounds, tame_handleCommand h sending elapsed⟩

/-! ### The line -/

theorem delivered_sendEvents_sublist (line : Sessions.State) (messages : List LocoNetMessage)
    (sendings : ℕ → Sending) :
    (delivered line (sendEvents messages sendings)).Sublist messages := by
  induction messages generalizing line sendings with
  | nil => exact List.Sublist.refl _
  | cons message rest ih =>
    rw [sendEvents, delivered, deliveredBy]
    have hrest := ih (Sessions.step line (.send message (sendings 0).answers (sendings 0).aliveThen
      (sendings 0).serving)) (fun k => sendings (k + 1))
    split_ifs
    · exact hrest.cons_cons message
    · exact hrest.cons message

/-- The line says whole lines only, and nothing but what it was given. -/
structure Spoken (s : State) : Prop where
  whole : AllWhole s.line
  given : (sentSoFar s.line).Sublist s.handed

theorem spoken_transmit {s : State} (h : Spoken s)
    (result : PendingLocoNetSendScheduler × List LocoNetMessage) (sendings : ℕ → Sending) :
    Spoken (transmit s result sendings) := by
  obtain ⟨hwhole, hsent⟩ := allWhole_run h.whole (sendEvents result.2 sendings)
  refine ⟨hwhole, ?_⟩
  simp only [transmit, hsent]
  exact h.given.append (delivered_sendEvents_sublist _ _ _)

theorem spoken_step (s : State) (e : Event) (h : Spoken s) : Spoken (step s e) := by
  have hline : ∀ e : Sessions.Event, deliveredBy s.line e = [] →
      Spoken { s with line := Sessions.step s.line e } := by
    intro e hnone
    obtain ⟨hwhole, hsent⟩ := allWhole_step h.whole e
    refine ⟨hwhole, ?_⟩
    rw [hsent, hnone, List.append_nil]
    exact h.given
  cases e with
  | tick | command | ledUpdate => exact ⟨h.whole, h.given⟩
  | arrive count => exact hline (.arrive count) rfl
  | schedulerUpdate sendings => exact spoken_transmit h _ _
  | readLine answers serving =>
    have hread := hline (.readLine answers serving) rfl
    rcases step_readLine s answers serving with ⟨-, hstep⟩ | ⟨message, -, hstep⟩
    · rw [hstep]
      exact hread
    · rw [hstep]
      exact ⟨hread.whole, hread.given⟩
  | republish elapsed =>
    rcases step_republish s elapsed with hstep | hstep <;> rw [hstep] <;> exact ⟨h.whole, h.given⟩
  | publisherUpdate alive clock => exact ⟨h.whole, h.given⟩
  | queryUpdate alive clock => exact ⟨h.whole, h.given⟩
  | handleCommand sending elapsed =>
    rcases step_handleCommand s sending elapsed with ⟨-, hstep⟩ | ⟨command, -, -, hstep⟩
    · rw [hstep]
      exact ⟨h.whole, h.given⟩
    · rw [hstep]
      apply spoken_transmit
      exact ⟨h.whole, h.given⟩

/-- Whatever comes in, the frames sent or pending are the two pulses of each command accepted
and the requests of whole rounds, each once. All are well formed, and what is printed on any
connection is a number of whole lines of such frames. Every message published is a state of a
turnout in range or the status, reaches the broker as it is, and is not subscribed to. -/
theorem device_vocabulary (start : ℕ) (events : List Event) :
    let s := run step (initial start) events
    (∃ rounds, (s.handed ++ s.scheduler.pending.map PendingLocoNetSend.message).Perm
      (s.commands.flatMap pulses ++ (List.replicate rounds roundRequests).flatten)) ∧
      (∀ frame ∈ s.handed, WellFormed frame) ∧
      (sentSoFar s.line).Sublist s.handed ∧
      (∀ session ∈ s.line.past ++ [s.line.session],
        segments '\r' session.printed = (session.sent.map encodeSend, [])) ∧
      ∀ message ∈ s.published, Announcement message ∧
        PicoMqttPort.publish message = (message.topic, message.payload) ∧
        ¬ Subscribed message.topic := by
  intro s
  obtain ⟨rounds, htame⟩ : ∃ rounds, Tame s rounds :=
    run_invariant_of_step tame_step ⟨0, tame_initial start⟩ events
  have hspoken : Spoken s :=
    run_invariant_of_step spoken_step ⟨allWhole_initial, List.Sublist.refl _⟩ events
  refine ⟨⟨rounds, htame.frames⟩, fun frame hframe => ?_, hspoken.given,
    fun session hsession => (hspoken.whole.whole hsession).segments_printed,
    fun message hmessage => ?_⟩
  · have hmade := htame.frames.subset (List.mem_append_left _ hframe)
    rcases List.mem_append.mp hmade with hmade | hmade
    · obtain ⟨command, hcommand, hpulse⟩ := List.mem_flatMap.mp hmade
      exact wellFormed_of_mem_pulses (htame.commands command hcommand) hpulse
    · obtain ⟨round, hround, hrequest⟩ := List.mem_flatten.mp hmade
      rw [List.eq_of_mem_replicate hround] at hrequest
      exact wellFormed_of_mem_roundRequests hrequest
  · have hannounced := htame.published message hmessage
    exact ⟨hannounced, hannounced.publish_eq, hannounced.not_subscribed⟩

end Loco2Mqtt.Device
