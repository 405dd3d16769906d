import Loco2Mqtt.Application.SendScheduler
import Loco2Mqtt.Foundations.WrappingClock

/-! Delays on the real clock. A sequence of `sendAfter` and `update` calls is made at
instants of unbounded real time, of which the scheduler sees the 32-bit readings. A message
is handed over at the first `update` that looks due, and this is the first that really is
due as long as the counter does not wrap between the due instant and the `update`. -/

namespace Loco2Mqtt.DelayedSends

open PendingLocoNetSendScheduler WrappingClock DelayLine

/-- A call of the scheduler and the instant of real time at which it is made. -/
inductive TimedCall where
  | sendAfter (time : ℕ) (delayMilliseconds : UInt32)
  | update (time : ℕ)
  deriving DecidableEq, Repr

def TimedCall.time : TimedCall → ℕ
  | .sendAfter time _ => time
  | .update time => time

/-- The calls as the firmware can make them: less than `2 ^ 31` milliseconds apart, with
delays below `2 ^ 31`. -/
structure Spaced (calls : List TimedCall) : Prop where
  gaps : calls.IsChain (fun a b => a.time ≤ b.time ∧ b.time < a.time + 2 ^ 31)
  delays : ∀ time d, .sendAfter time d ∈ calls → d.toNat < 2 ^ 31

theorem Spaced.ascending {calls : List TimedCall} (h : Spaced calls) :
    calls.Pairwise (fun a b => a.time ≤ b.time) := by
  have htimes : (calls.map TimedCall.time).IsChain (· ≤ ·) :=
    (List.isChain_map _).mpr (h.gaps.imp (fun _ _ hab => hab.1))
  exact List.pairwise_map.mp (List.isChain_iff_pairwise.mp htimes)

variable (msg : ℕ → LocoNetMessage) (calls : List TimedCall)

/-- The scheduler before call number `n`. The call numbered `j` carries the message `msg j`. -/
def before : ℕ → PendingLocoNetSendScheduler
  | 0 => ⟨[]⟩
  | n + 1 =>
    match calls[n]? with
    | some (.sendAfter time d) => (before n).sendAfter (reading time) (msg n) d
    | some (.update time) => ((before n).update (reading time)).1
    | none => before n

/-- What call number `n` hands to `send`. -/
def handed (n : ℕ) : List LocoNetMessage :=
  match calls[n]? with
  | some (.update time) => ((before msg calls n).update (reading time)).2
  | _ => []

/-! ### First occasions -/

/-- Occasion `i` is the first one after `j` at which `due j` holds. -/
def FirstAt (due : ℕ → ℕ → Prop) (j i : ℕ) : Prop :=
  j < i ∧ due j i ∧ ∀ k < i, j < k → ¬ due j k

instance (due : ℕ → ℕ → Prop) [∀ j, DecidablePred (due j)] (j i : ℕ) :
    Decidable (FirstAt due j i) :=
  inferInstanceAs (Decidable (_ ∧ _))

/-- Two notions of due have the same first occasions exactly when they agree up to the first
occasion of the second. -/
theorem firstAt_congr_iff {P Q : ℕ → ℕ → Prop} {j : ℕ} :
    (∀ i, FirstAt P j i ↔ FirstAt Q j i) ↔
      ∀ i, j < i → (∀ k < i, j < k → ¬ Q j k) → (P j i ↔ Q j i) := by
  constructor
  · intro h i hji hnone
    -- neither has occurred before `i`: a first `P` would be a first `Q`
    have hnoneP : ∀ k < i, j < k → ¬ P j k := by
      intro k
      induction k using Nat.strongRecOn with
      | ind k ih =>
        intro hki hjk hP
        have hfirst : FirstAt P j k := ⟨hjk, hP, fun l hlk hjl => ih l hlk (by omega) hjl⟩
        exact hnone k hki hjk ((h k).mp hfirst).2.1
    constructor
    · intro hP
      exact ((h i).mp ⟨hji, hP, hnoneP⟩).2.1
    · intro hQ
      exact ((h i).mpr ⟨hji, hQ, hnone⟩).2.1
  · intro h i
    constructor
    · rintro ⟨hji, hP, hnone⟩
      have hnoneQ : ∀ k < i, j < k → ¬ Q j k := by
        intro k
        induction k using Nat.strongRecOn with
        | ind k ih =>
          intro hki hjk hQ
          exact hnone k hki hjk
            ((h k hjk (fun l hlk hjl => ih l hlk (by omega) hjl)).mpr hQ)
      exact ⟨hji, (h i hji hnoneQ).mp hP, hnoneQ⟩
    · rintro ⟨hji, hQ, hnone⟩
      refine ⟨hji, (h i hji hnone).mpr hQ, fun k hki hjk hP => ?_⟩
      exact hnone k hki hjk ((h k hjk (fun l hlk hjl => hnone l (by omega) hjl)).mp hP)

/-! ### When the scheduler takes a message for due -/

/-- The instant of real time from which the message of call number `j` is due. -/
def dueInstant (j : ℕ) : Option ℕ :=
  match calls[j]? with
  | some (.sendAfter time d) => some (time + d.toNat)
  | _ => none

def updateTime (i : ℕ) : Option ℕ :=
  match calls[i]? with
  | some (.update time) => some time
  | _ => none

/-- At update `i` the delay of message `j` has really elapsed. -/
def ReallyDue (j i : ℕ) : Prop :=
  ∃ due ∈ dueInstant calls j, ∃ now ∈ updateTime calls i, due ≤ now

/-- At update `i` the reading has reached the stored due time of message `j`. -/
def LooksDue (j i : ℕ) : Prop :=
  ∃ due ∈ dueInstant calls j, ∃ now ∈ updateTime calls i, reading due ≤ reading now

instance (j i : ℕ) : Decidable (ReallyDue calls j i) :=
  inferInstanceAs (Decidable (∃ due ∈ dueInstant calls j, ∃ now ∈ updateTime calls i, due ≤ now))

instance (j i : ℕ) : Decidable (LooksDue calls j i) :=
  inferInstanceAs
    (Decidable (∃ due ∈ dueInstant calls j, ∃ now ∈ updateTime calls i, reading due ≤ reading now))

/-- Message `j` has been scheduled and has not looked due since, up to call number `n`. -/
def Waiting (n j : ℕ) : Prop :=
  (dueInstant calls j).isSome ∧ ∀ k < n, j < k → ¬ LooksDue calls j k

instance (n j : ℕ) : Decidable (Waiting calls n j) := inferInstanceAs (Decidable (_ ∧ _))

/-- What the scheduler stores for message `j`. -/
def entry (j : ℕ) : PendingLocoNetSend := ⟨msg j, reading ((dueInstant calls j).getD 0)⟩

variable {calls}

theorem not_looksDue_of_not_update {j i : ℕ} (h : updateTime calls i = none) :
    ¬ LooksDue calls j i := by
  rintro ⟨_, _, now, hnow, _⟩
  rw [h] at hnow
  cases hnow

theorem looksDue_iff {j i now : ℕ} (hi : updateTime calls i = some now)
    (hj : (dueInstant calls j).isSome) :
    LooksDue calls j i ↔ dueNat (entry msg calls j) ≤ (reading now).toNat := by
  obtain ⟨due, hdue⟩ := Option.isSome_iff_exists.mp hj
  simp [LooksDue, hi, hdue, entry, dueNat, UInt32.le_iff_toNat_le]

theorem waiting_succ {n j : ℕ} (hj : j < n) :
    Waiting calls (n + 1) j ↔ Waiting calls n j ∧ ¬ LooksDue calls j n := by
  constructor
  · rintro ⟨hsome, hnone⟩
    exact ⟨⟨hsome, fun k hk hjk => hnone k (by omega) hjk⟩, hnone n (by omega) hj⟩
  · rintro ⟨⟨hsome, hnone⟩, hn⟩
    refine ⟨hsome, fun k hk hjk => ?_⟩
    rcases Nat.lt_succ_iff_lt_or_eq.mp hk with hk | rfl
    · exact hnone k hk hjk
    · exact hn

theorem waiting_last {n : ℕ} : Waiting calls (n + 1) n ↔ (dueInstant calls n).isSome := by
  constructor
  · exact fun h => h.1
  · exact fun h => ⟨h, fun k hk hnk => absurd hk (by omega)⟩

/-- The messages waiting before call number `n`, in the order of their calls. -/
def waitingList (calls : List TimedCall) (n : ℕ) : List ℕ :=
  (List.range n).filter (fun j => Waiting calls n j)

theorem waitingList_succ (n : ℕ) :
    waitingList calls (n + 1) =
      (waitingList calls n).filter (fun j => ¬ LooksDue calls j n) ++
        if (dueInstant calls n).isSome then [n] else [] := by
  rw [waitingList, List.range_succ, List.filter_append]
  congr 1
  · rw [waitingList, List.filter_filter]
    apply List.filter_congr
    intro j hj
    rw [← Bool.decide_and, decide_eq_decide, waiting_succ (List.mem_range.mp hj), and_comm]
  · simp [List.filter_cons, waiting_last]

/-- The pending list holds what is waiting. -/
theorem before_pending (n : ℕ) :
    (before msg calls n).pending = (waitingList calls n).map (entry msg calls) := by
  induction n with
  | zero => rfl
  | succ n ih =>
    rw [waitingList_succ, List.map_append]
    rcases hcall : calls[n]? with _ | ⟨time, d⟩ | ⟨time⟩
    · have hup : updateTime calls n = none := by simp [updateTime, hcall]
      have hdue : dueInstant calls n = none := by simp [dueInstant, hcall]
      simp [before, hcall, hdue, ih, not_looksDue_of_not_update hup]
    · have hup : updateTime calls n = none := by simp [updateTime, hcall]
      have hdue : dueInstant calls n = some (time + d.toNat) := by simp [dueInstant, hcall]
      simp [before, hcall, hdue, ih, not_looksDue_of_not_update hup, sendAfter, entry, reading_add]
    · have hup : updateTime calls n = some time := by simp [updateTime, hcall]
      have hdue : dueInstant calls n = none := by simp [dueInstant, hcall]
      have hbefore : before msg calls (n + 1) = ((before msg calls n).update (reading time)).1 := by
        simp [before, hcall]
      rw [hbefore, update_eq, ih, hdue]
      simp only [kept, List.filter_map, Option.isSome_none, Bool.false_eq_true, if_false,
        List.map_nil, List.append_nil]
      congr 1
      apply List.filter_congr
      intro j hj
      have hwait : Waiting calls n j := of_decide_eq_true (List.mem_filter.mp hj).2
      rw [Function.comp_apply, decide_eq_decide, looksDue_iff msg hup hwait.1, not_le]

/-- A call hands over the messages for which it is the first to look due. -/
theorem handed_eq (n : ℕ) :
    handed msg calls n =
      ((List.range n).filter (fun j => FirstAt (LooksDue calls) j n)).map msg := by
  rcases hup : updateTime calls n with _ | time
  · have hempty : handed msg calls n = [] := by
      unfold handed
      rcases hcall : calls[n]? with _ | ⟨time, d⟩ | ⟨time⟩
      · rfl
      · rfl
      · simp [updateTime, hcall] at hup
    simp [hempty, FirstAt, not_looksDue_of_not_update hup]
  · have hcall : calls[n]? = some (.update time) := by
      unfold updateTime at hup
      split at hup
      · next t heq => rw [heq, Option.some.inj hup]
      · cases hup
    simp only [handed, hcall, update_eq, before_pending, released, List.filter_map, List.map_map,
      waitingList, List.filter_filter]
    have hmsg : PendingLocoNetSend.message ∘ entry msg calls = msg := rfl
    rw [hmsg]
    congr 1
    apply List.filter_congr
    intro j hj
    rw [Function.comp_apply, ← Bool.decide_and, decide_eq_decide]
    constructor
    · rintro ⟨hle, hsome, hnone⟩
      exact ⟨List.mem_range.mp hj, (looksDue_iff msg hup hsome).mpr hle, hnone⟩
    · rintro ⟨-, hdue, hnone⟩
      have hsome : (dueInstant calls j).isSome := by
        obtain ⟨due, hmem, -⟩ := hdue
        rw [Option.mem_def.mp hmem, Option.isSome_some]
      exact ⟨(looksDue_iff msg hup hsome).mp hdue, hsome, hnone⟩

/-! ### The law -/

/-- However the messages are chosen, every update hands over exactly those whose delay has
really elapsed and had not at any earlier update, once each and in the order of their calls. -/
def RespectsDelays (calls : List TimedCall) : Prop :=
  ∀ (msg : ℕ → LocoNetMessage) (n : ℕ),
    handed msg calls n = ((List.range n).filter (fun j => FirstAt (ReallyDue calls) j n)).map msg

/-- Up to the first update at or after the due instant of a message, the counter does not
wrap between an update and the due instant in a way that shows: before the due instant it is
in the same round, from it on the reading is not below the one due. -/
def NoWrapBetween (calls : List TimedCall) : Prop :=
  ∀ j i due now, j < i → dueInstant calls j = some due → updateTime calls i = some now →
    (∀ k earlier, j < k → k < i → updateTime calls k = some earlier → earlier < due) →
      if now < due then epoch now = epoch due else due % 2 ^ 32 ≤ now % 2 ^ 32

/-- A frame that names the number of its call. -/
def numbered (j : ℕ) : LocoNetMessage := ⟨List.replicate j 0⟩

theorem numbered_injective : Function.Injective numbered := by
  intro j k h
  have hlen := congrArg (fun m => m.bytes.length) h
  simpa [numbered] using hlen

theorem respectsDelays_iff_firstAt :
    RespectsDelays calls ↔
      ∀ j i, FirstAt (LooksDue calls) j i ↔ FirstAt (ReallyDue calls) j i := by
  constructor
  · intro h j i
    have hlists := (handed_eq numbered i).symm.trans (h numbered i)
    have hmem := List.map_injective_iff.mpr numbered_injective hlists
    have hj : j ∈ (List.range i).filter (fun j => FirstAt (LooksDue calls) j i) ↔
        j ∈ (List.range i).filter (fun j => FirstAt (ReallyDue calls) j i) := by rw [hmem]
    simp only [List.mem_filter, List.mem_range, decide_eq_true_eq] at hj
    constructor
    · exact fun hf => (hj.mp ⟨hf.1, hf⟩).2
    · exact fun hf => (hj.mpr ⟨hf.1, hf⟩).2
  · intro h msg n
    rw [handed_eq]
    congr 1
    apply List.filter_congr
    intro j _
    rw [decide_eq_decide]
    exact h j n

theorem not_reallyDue_iff {j k due : ℕ} (hdue : dueInstant calls j = some due) :
    ¬ ReallyDue calls j k ↔ ∀ now, updateTime calls k = some now → now < due := by
  simp [ReallyDue, hdue]

theorem time_le_dueInstant {j due : ℕ} {call : TimedCall} (hcall : calls[j]? = some call)
    (hdue : dueInstant calls j = some due) : call.time ≤ due ∧ due < call.time + 2 ^ 32 := by
  rcases call with ⟨time, d⟩ | ⟨time⟩
  · have hd := d.toNat_lt
    simp only [dueInstant, hcall, Option.some.injEq] at hdue
    simp only [TimedCall.time]
    omega
  · simp [dueInstant, hcall] at hdue

/-- Time does not run backwards from a scheduling to a later update. -/
theorem time_le_updateTime (hasc : calls.Pairwise (fun a b => a.time ≤ b.time)) {j i now : ℕ}
    {call : TimedCall} (hcall : calls[j]? = some call) (hji : j < i)
    (hnow : updateTime calls i = some now) : call.time ≤ now := by
  rcases hi : calls[i]? with _ | ⟨time, d⟩ | ⟨time⟩
  · simp [updateTime, hi] at hnow
  · simp [updateTime, hi] at hnow
  · simp only [updateTime, hi, Option.some.injEq] at hnow
    subst hnow
    obtain ⟨hjlt, rfl⟩ := List.getElem?_eq_some_iff.mp hcall
    obtain ⟨hilt, hival⟩ := List.getElem?_eq_some_iff.mp hi
    have hle := List.pairwise_iff_getElem.mp hasc j i hjlt hilt hji
    rwa [hival] at hle

/-- Before the due instant a message looks due when a wrap lies between, afterwards when the
reading is not below. -/
theorem looksDue_iff_reallyDue_iff (hasc : calls.Pairwise (fun a b => a.time ≤ b.time))
    {j i due now : ℕ} (hji : j < i) (hdue : dueInstant calls j = some due)
    (hnow : updateTime calls i = some now) :
    (LooksDue calls j i ↔ ReallyDue calls j i) ↔
      if now < due then epoch now = epoch due else due % 2 ^ 32 ≤ now % 2 ^ 32 := by
  have hlooks : LooksDue calls j i ↔ reading due ≤ reading now := by simp [LooksDue, hdue, hnow]
  have hreally : ReallyDue calls j i ↔ due ≤ now := by simp [ReallyDue, hdue, hnow]
  rw [hlooks, hreally]
  obtain ⟨call, hcall⟩ : ∃ call, calls[j]? = some call := by
    rcases h : calls[j]? with _ | call
    · simp [dueInstant, h] at hdue
    · exact ⟨call, rfl⟩
  have hspan := time_le_dueInstant hcall hdue
  have hle := time_le_updateTime hasc hcall hji hnow
  split_ifs with hlt
  · rw [due_early_iff hlt (by omega)]
    constructor
    · intro h
      by_contra hne
      exact absurd (h.mp hne) (by omega)
    · intro h
      exact ⟨fun hne => absurd h hne, fun hle' => absurd hle' (by omega)⟩
  · rw [UInt32.le_iff_toNat_le, toNat_reading, toNat_reading]
    exact ⟨fun h => h.mpr (by omega), fun h => ⟨fun _ => by omega, fun _ => h⟩⟩

theorem respectsDelays_iff (hasc : calls.Pairwise (fun a b => a.time ≤ b.time)) :
    RespectsDelays calls ↔ NoWrapBetween calls := by
  rw [respectsDelays_iff_firstAt, forall_congr' fun j => firstAt_congr_iff]
  constructor
  · intro h j i due now hji hdue hnow hnone
    rw [← looksDue_iff_reallyDue_iff hasc hji hdue hnow]
    apply h j i hji
    intro k hki hjk
    rw [not_reallyDue_iff hdue]
    exact fun earlier hk => hnone k earlier hjk hki hk
  · intro h j i hji hnone
    rcases hdue : dueInstant calls j with _ | due
    · simp [LooksDue, ReallyDue, hdue]
    · rcases hnow : updateTime calls i with _ | now
      · simp [LooksDue, ReallyDue, hnow]
      · rw [looksDue_iff_reallyDue_iff hasc hji hdue hnow]
        exact h j i due now hji hdue hnow
          (fun k earlier hjk hki hk => (not_reallyDue_iff hdue).mp (hnone k hki hjk) earlier hk)

/-- Delays are respected exactly when no wrap shows. The off-pulse of a turnout command is
scheduled 250 milliseconds behind its on-pulse, so this is when a coil is released in time. -/
theorem delays_respected_iff_no_wrap {calls : List TimedCall} (h : Spaced calls) :
    (RespectsDelays calls ↔ NoWrapBetween calls) ∧
      ∀ (scheduler : PendingLocoNetSendScheduler) (time : ℕ) (command : DomainCommand),
        scheduler.performAll (reading time) (TurnoutLocoNetEncoder.encode command) =
          (scheduler.sendAfter (reading time) (TurnoutLocoNetEncoder.buildSwReq command false) 250,
            [TurnoutLocoNetEncoder.buildSwReq command true]) :=
  ⟨respectsDelays_iff h.ascending, fun scheduler time command =>
    performAll_encode scheduler (reading time) command⟩

/-- A call 100 milliseconds before the counter wraps, and an update 10 milliseconds later. -/
def nearWrap : List TimedCall := [.sendAfter (2 ^ 32 - 100) 250, .update (2 ^ 32 - 90)]

theorem nearWrap_spaced : Spaced nearWrap := by
  refine ⟨by decide, fun time d hmem => ?_⟩
  simp only [nearWrap, List.mem_cons, TimedCall.sendAfter.injEq, reduceCtorEq, List.not_mem_nil,
    or_false] at hmem
  rw [hmem.2]
  decide

theorem delays_respected_iff_no_wrap_nearWrap :
    RespectsDelays nearWrap ↔ NoWrapBetween nearWrap :=
  (delays_respected_iff_no_wrap nearWrap_spaced).1

/-- The message is handed over 240 milliseconds early. -/
theorem delayed_send_early_before_wrap : Spaced nearWrap ∧ ¬ RespectsDelays nearWrap := by
  refine ⟨nearWrap_spaced, fun h => ?_⟩
  have hsent : handed numbered nearWrap 1 = [numbered 0] := by decide
  have hlaw := h numbered 1
  rw [hsent] at hlaw
  exact absurd hlaw (by decide)

end Loco2Mqtt.DelayedSends
