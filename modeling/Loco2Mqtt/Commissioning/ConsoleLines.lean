import Mathlib.Data.List.Induction
import Loco2Mqtt.Adapters.Commissioning
import Loco2Mqtt.Adapters.LocoNetOverTcp
import Loco2Mqtt.Domain.LineFraming
import Loco2Mqtt.Foundations.Runs

/-! The lines of the bench console. The port cuts a line at 256 bytes and the adapter rejects
one of more than 128, so a cut line is always rejected: whatever arrives, and in whatever
chunks, a line is either carried out as it was sent or answered as an unknown command. -/

namespace Loco2Mqtt

universe u

/-- `readLine` loops over what `Serial` has as the transport's does. -/
def EspUartPort.readLine (assembler : LineAssembler) (available : Text) :
    Option Text × Text × LineAssembler :=
  let (line, rest) := WiFiClientLineStream.readLineFrom assembler available
  (line, rest.available, rest.assembler)

namespace ConsoleLines

open LineAssembler Lines Runs EspUartPort SerialCommissioningAdapter

/-- `replies` are the lines written to the console. An exception ends the session. -/
structure State (σ : Type u) where
  available : Text
  assembler : LineAssembler
  session : CommissioningSession
  stored : σ
  replies : List Text
  crashed : Bool

inductive Event where
  | arrive (chunk : Text)
  | update
  deriving DecidableEq, Repr

variable {σ : Type u} (store : ConfigStore σ)

def start (stored : σ) (session : CommissioningSession) : State σ :=
  ⟨[], EspUartPort.initial, session, stored, [], false⟩

/-- The state after a command has been answered, or after an exception. -/
def conclude (s : State σ) : Except StdException (Text × CommissioningSession × σ) → State σ
  | .error _ => { s with crashed := true }
  | .ok (reply, session, stored) =>
    { s with session := session, stored := stored, replies := s.replies ++ [reply] }

def step (s : State σ) : Event → State σ
  | .arrive chunk => { s with available := s.available ++ chunk }
  | .update =>
    if s.crashed then s
    else
      let (line, available, assembler) := readLine s.assembler s.available
      let s := { s with available := available, assembler := assembler }
      match line with
      | none => s
      | some line => conclude s (SerialCommissioningAdapter.update store s.stored s.session line)

/-- All bytes that arrive in the course of the events. -/
def arrived (events : List Event) : Text :=
  events.flatMap (fun e => match e with
    | .arrive chunk => chunk
    | .update => [])

/-- What the console has done, the port apart. -/
def observed (s : State σ) : CommissioningSession × σ × List Text × Bool :=
  (s.session, s.stored, s.replies, s.crashed)

/-- What the console does does not depend on what is left in the port. -/
theorem observed_conclude (s : State σ) (available : Text) (assembler : LineAssembler)
    (result : Except StdException (Text × CommissioningSession × σ)) :
    observed (conclude { s with available := available, assembler := assembler } result) =
      observed (conclude s result) := by
  cases result <;> rfl

/-! ### One line -/

/-- How the adapter answers a line as it was sent. -/
def answer (stored : σ) (session : CommissioningSession) (line : Text) :
    Except StdException (Text × CommissioningSession × σ) :=
  if kMaxLineLength < line.length then .ok ("ERR unknown command".toList, session, stored)
  else (parseCommandLine line).bind (CommissioningSession.apply store stored session)

theorem answer_of_long (stored : σ) (session : CommissioningSession) {line : Text}
    (h : 128 < line.length) :
    answer store stored session line = .ok ("ERR unknown command".toList, session, stored) :=
  if_pos h

theorem answer_of_short (stored : σ) (session : CommissioningSession) {line : Text}
    (h : line.length ≤ 128) : answer store stored session line =
      (parseCommandLine line).bind (CommissioningSession.apply store stored session) :=
  if_neg (Nat.not_lt.mpr h)

theorem length_le_withoutCarriageReturn (segment : Text) :
    segment.length ≤ (withoutCarriageReturn segment).length + 1 := by
  rw [withoutCarriageReturn]
  split_ifs
  · rw [List.length_dropLast]
    omega
  · exact Nat.le_succ _

/-- A line that the port cuts is too long for the adapter before and after the cut. -/
theorem lineOf_cases (segment : Text) :
    lineOf kMaxBufferedBytes '\n' segment = withoutCarriageReturn segment ∨
      kMaxLineLength < (lineOf kMaxBufferedBytes '\n' segment).length ∧
        kMaxLineLength < (withoutCarriageReturn segment).length := by
  have hcap : kMaxLineLength + 1 < kMaxBufferedBytes := by decide
  rw [lineOf_newline]
  rcases Nat.le_total segment.length kMaxBufferedBytes with hfits | hlong
  · exact Or.inl (by rw [List.take_of_length_le hfits])
  · have hwhole := length_le_withoutCarriageReturn segment
    have hcut := length_le_withoutCarriageReturn (segment.take kMaxBufferedBytes)
    rw [List.length_take_of_le hlong] at hcut
    exact Or.inr ⟨by omega, by omega⟩

theorem update_lineOf (stored : σ) (session : CommissioningSession) (segment : Text) :
    SerialCommissioningAdapter.update store stored session
        (lineOf kMaxBufferedBytes '\n' segment) =
      answer store stored session (withoutCarriageReturn segment) := by
  have hrejected : ∀ line : Text, kMaxLineLength < line.length →
      SerialCommissioningAdapter.update store stored session line =
        .ok ("ERR unknown command".toList, session, stored) := by
    intro line hlong
    rw [SerialCommissioningAdapter.update, parseLine, if_pos hlong]
    rfl
  rcases lineOf_cases segment with hwhole | ⟨hcut, hlong⟩
  · rw [hwhole, answer]
    split_ifs with hlong
    · exact hrejected _ hlong
    · rw [SerialCommissioningAdapter.update, parseLine, if_neg hlong]
  · rw [hrejected _ hcut, answer, if_pos hlong]

/-! ### The stream -/

theorem readLine_spec {assembler : LineAssembler} {available current last : Text}
    {waiting : List Text} (hassembler : assembler = during kMaxBufferedBytes '\n' current)
    (hwaiting : segmentsFrom '\n' current available = (waiting, last)) :
    ∃ rest current', readLine assembler available =
        (waiting.head?.map (lineOf kMaxBufferedBytes '\n'), rest,
          during kMaxBufferedBytes '\n' current') ∧
      segmentsFrom '\n' current' rest = (waiting.tail, last) := by
  subst hassembler
  cases waiting with
  | nil =>
    refine ⟨[], last, ?_, rfl⟩
    rw [readLine, WiFiClientLineStream.readLineFrom_of_no_segment hwaiting]
    rfl
  | cons segment more =>
    obtain ⟨rest, hread, hrest⟩ :=
      WiFiClientLineStream.readLineFrom_of_segment kMaxBufferedBytes hwaiting
    refine ⟨rest, [], ?_, hrest⟩
    rw [readLine, hread]
    rfl

/-- Every line but those that are still to be read has had its reply. -/
def Answered (bytes : Text) (s : State σ) : Prop :=
  ∃ current answered waiting last, s.assembler = during kMaxBufferedBytes '\n' current ∧
    segmentsFrom '\n' current s.available = (waiting, last) ∧
    segments '\n' bytes = (answered ++ waiting, last) ∧ answered.length = s.replies.length

theorem answered_start (stored : σ) (session : CommissioningSession) :
    Answered [] (start stored session) :=
  ⟨[], [], [], [], rfl, rfl, rfl, rfl⟩

theorem answered_arrive {bytes : Text} {s : State σ} (h : Answered bytes s) (chunk : Text) :
    Answered (bytes ++ chunk) (step store s (.arrive chunk)) := by
  obtain ⟨current, answered, waiting, last, hassembler, hwaiting, hlines, hcount⟩ := h
  refine ⟨current, answered, waiting ++ (segmentsFrom '\n' last chunk).1,
    (segmentsFrom '\n' last chunk).2, hassembler, ?_, ?_, hcount⟩
  · simp only [step, segmentsFrom_append, hwaiting]
  · rw [segments_append, hlines, List.append_assoc]

/-- The next call of `update` answers the first segment that is still to be read. -/
theorem update_waiting {s : State σ} {current last : Text} {waiting : List Text}
    (hrunning : s.crashed = false)
    (hassembler : s.assembler = during kMaxBufferedBytes '\n' current)
    (hwaiting : segmentsFrom '\n' current s.available = (waiting, last)) :
    ∃ rest current', segmentsFrom '\n' current' rest = (waiting.tail, last) ∧
      step store s .update =
        match waiting.head? with
        | none =>
          { s with available := rest, assembler := during kMaxBufferedBytes '\n' current' }
        | some segment => conclude
          { s with available := rest, assembler := during kMaxBufferedBytes '\n' current' }
          (answer store s.stored s.session (withoutCarriageReturn segment)) := by
  obtain ⟨rest, current', hread, hrest⟩ := readLine_spec hassembler hwaiting
  refine ⟨rest, current', hrest, ?_⟩
  cases waiting with
  | nil => simp [step, hrunning, hread]
  | cons segment more => simp [step, hrunning, hread, update_lineOf]

/-- The next call of `update` answers the line after those that have been answered. -/
theorem update_answered {bytes : Text} {s : State σ} (h : Answered bytes s)
    (hrunning : s.crashed = false) :
    ∃ available assembler, step store s .update =
        (match (linesOf bytes)[s.replies.length]? with
        | none => { s with available := available, assembler := assembler }
        | some line => conclude { s with available := available, assembler := assembler }
          (answer store s.stored s.session line)) ∧
      ((step store s .update).crashed = false → Answered bytes (step store s .update)) := by
  obtain ⟨current, answered, waiting, last, hassembler, hwaiting, hlines, hcount⟩ := h
  obtain ⟨rest, current', hrest, hstep⟩ := update_waiting store hrunning hassembler hwaiting
  have hnext : (linesOf bytes)[s.replies.length]? = waiting.head?.map withoutCarriageReturn := by
    rw [linesOf_eq_segments, hlines, List.getElem?_map, ← hcount,
      List.getElem?_append_right le_rfl, Nat.sub_self, List.head?_eq_getElem?]
  refine ⟨rest, during kMaxBufferedBytes '\n' current', ?_⟩
  rw [hnext, hstep]
  cases waiting with
  | nil => exact ⟨rfl, fun _ => ⟨current', answered, [], last, rfl, hrest, hlines, hcount⟩⟩
  | cons segment more =>
    refine ⟨rfl, ?_⟩
    simp only [List.head?_cons]
    rcases answer store s.stored s.session (withoutCarriageReturn segment) with error | result
    · intro hafter
      cases hafter
    · intro _
      refine ⟨current', answered ++ [segment], more, last, rfl, hrest, ?_, ?_⟩
      · rw [hlines, List.append_assoc, List.singleton_append]
      · simp [conclude, hcount]

theorem answered_step {bytes : Text} {s : State σ} (h : s.crashed = false → Answered bytes s)
    (e : Event) (hafter : (step store s e).crashed = false) :
    Answered (bytes ++ arrived [e]) (step store s e) := by
  cases hcrashed : s.crashed with
  | true =>
    cases e <;> simp [step, hcrashed] at hafter
  | false =>
    cases e with
    | arrive chunk => simpa [arrived] using answered_arrive store (h hcrashed) chunk
    | update =>
      obtain ⟨available, assembler, -, hkept⟩ := update_answered store (h hcrashed) hcrashed
      simpa [arrived] using hkept hafter

theorem answered_run (stored : σ) (session : CommissioningSession) (events : List Event)
    (hrunning : (run (step store) (start stored session) events).crashed = false) :
    Answered (arrived events) (run (step store) (start stored session) events) := by
  induction events using List.reverseRecOn with
  | nil => exact answered_start stored session
  | append_singleton events e ih =>
    rw [run_concat] at hrunning ⊢
    rw [arrived, List.flatMap_append]
    exact answered_step store ih e hrunning

/-- However the bytes of the console arrive, `update` answers its lines one after another, each
as it was sent. One of more than 128 bytes, not counting a carriage return at its end, is an
unknown command and changes nothing. Any other is carried out as the command it parses to. -/
theorem overlong_lines_rejected (stored : σ) (session : CommissioningSession)
    (events : List Event)
    (hrunning : (run (step store) (start stored session) events).crashed = false) :
    let s := run (step store) (start stored session) events
    let after := step store s .update
    let next := (linesOf (arrived events))[s.replies.length]?
    (next = none → observed after = observed s) ∧
      ∀ line ∈ next,
        (128 < line.length → observed after =
          (s.session, s.stored, s.replies ++ ["ERR unknown command".toList], false)) ∧
        (line.length ≤ 128 → observed after = observed
          (conclude s ((parseCommandLine line).bind
            (CommissioningSession.apply store s.stored s.session)))) := by
  intro s after next
  obtain ⟨available, assembler, hafter, -⟩ :=
    update_answered store (answered_run store stored session events hrunning) hrunning
  change after = (match next with | none => _ | some line => _) at hafter
  constructor
  · intro hnext
    rw [hafter, hnext]
    rfl
  · intro line hnext
    have hobserved : observed after =
        observed (conclude s (answer store s.stored s.session line)) := by
      rw [hafter, hnext]
      exact observed_conclude s available assembler _
    refine ⟨fun hlong => ?_, fun hfits => ?_⟩
    · rw [hobserved, answer_of_long store s.stored s.session hlong, ← hrunning]
      rfl
    · rw [hobserved, answer_of_short store s.stored s.session hfits]

/-- A line of 309 bytes, with a carriage return where the port cuts it, after another line. -/
def longSsid : List Event :=
  [.arrive ("show\n".toList ++ "set-ssid ".toList ++ List.replicate 246 'a' ++ ['\r'] ++
    List.replicate 53 'b' ++ "\nsave\n".toList), .update]

theorem overlong_lines_rejected_longSsid :
    let s := run (step NvsConfigStore) (start {} CommissioningSession.initial) longSsid
    observed (step NvsConfigStore s .update) =
      (s.session, s.stored, s.replies ++ ["ERR unknown command".toList], false) := by
  intro s
  have hline : (linesOf (arrived longSsid))[s.replies.length]? =
      some ("set-ssid ".toList ++ List.replicate 246 'a' ++ ['\r'] ++ List.replicate 53 'b') := by
    decide +kernel
  have hrunning : s.crashed = false := by decide +kernel
  exact ((overlong_lines_rejected NvsConfigStore {} CommissioningSession.initial longSsid
    hrunning).2 _ hline).1 (by decide +kernel)

end ConsoleLines
end Loco2Mqtt
