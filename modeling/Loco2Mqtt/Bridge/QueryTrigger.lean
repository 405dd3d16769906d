import Loco2Mqtt.Application.StartupQuery
import Loco2Mqtt.Foundations.Occasions

/-! When the startup query fires. Each update finds the stream up or down, at some instant, and
finds whatever the rest of the bridge has left in the queue of expected addresses and in the
scheduler. It schedules the whole table once in an unbroken run of connected updates, at the
first of them that comes two seconds after the run began, and otherwise leaves both alone. -/

namespace Loco2Mqtt.QueryTrigger

open TurnoutTableStartupQuery Occasions WrappingClock

/-- What an update finds: the reading of the connection, the real time, the queue and the
scheduler. -/
structure Poll where
  connected : Bool
  time : ℕ
  acks : PendingTurnoutStateAcks
  scheduler : PendingLocoNetSendScheduler

variable (polls : ℕ → Poll)

def updateAt (query : TurnoutTableStartupQuery) (poll : Poll) :
    TurnoutTableStartupQuery × PendingTurnoutStateAcks × PendingLocoNetSendScheduler :=
  query.update poll.connected (fun _ => reading poll.time) poll.acks poll.scheduler

/-- The query before poll number `n`. -/
def before : ℕ → TurnoutTableStartupQuery
  | 0 => TurnoutTableStartupQuery.initial
  | n + 1 => (updateAt (before n) (polls n)).1

/-- The queue and the scheduler after poll number `n`. -/
def outcome (n : ℕ) : PendingTurnoutStateAcks × PendingLocoNetSendScheduler :=
  (updateAt (before polls n) (polls n)).2

/-! ### What is expected of a poll -/

/-- The queue after `expect` of the addresses 1 to 48 in order, and the scheduler after a
`sendAfter` of the request for each, 20 milliseconds apart. -/
def fullQuery (poll : Poll) : PendingTurnoutStateAcks × PendingLocoNetSendScheduler :=
  ((List.range 48).foldl (fun acks (k : ℕ) => acks.expect ⟨1 + k⟩) poll.acks,
    (List.range 48).foldl (fun scheduler (k : ℕ) => scheduler.sendAfter (reading poll.time)
      (TurnoutStateRequestEncoder.encode ⟨1 + k⟩) (UInt32.ofNat (20 * k))) poll.scheduler)

def Schedules (n : ℕ) : Prop := outcome polls n = fullQuery (polls n)

def Disconnected (n : ℕ) : Prop := (polls n).connected = false

/-- Poll `n` is connected, at least 2000 milliseconds after the first poll of its run of
connected polls, and no poll of the run before it has scheduled a query. -/
def Due (n : ℕ) : Prop :=
  ¬ Disconnected polls n ∧ ∃ s, Since (Disconnected polls) s n ∧
    (polls s).time + 2000 ≤ (polls n).time ∧ ∀ k, s ≤ k → k < n → ¬ Schedules polls k

/-! ### One update -/

theorem foldl_expect {α : Type} (address : α → ℤ) (items : List α)
    (acks : PendingTurnoutStateAcks) :
    items.foldl (fun acks k => acks.expect ⟨address k⟩) acks =
      ⟨acks.pendingAddresses ++ items.map address⟩ := by
  induction items generalizing acks with
  | nil => simp
  | cons k rest ih =>
    rw [List.foldl_cons, ih]
    simp [PendingTurnoutStateAcks.expect]

theorem foldl_sendAfter {α : Type} (now : UInt32) (message : α → LocoNetMessage)
    (delay : α → UInt32) (items : List α) (scheduler : PendingLocoNetSendScheduler) :
    items.foldl (fun scheduler k => scheduler.sendAfter now (message k) (delay k)) scheduler =
      ⟨scheduler.pending ++ items.map (fun k => ⟨message k, now + delay k⟩)⟩ := by
  induction items generalizing scheduler with
  | nil => simp
  | cons k rest ih =>
    rw [List.foldl_cons, ih]
    simp [PendingLocoNetSendScheduler.sendAfter]

theorem requestsOf_range (now : UInt32) (i m : ℕ) :
    requestsOf (fun _ => now) ((List.range' i m).map (fun (k : ℕ) => (1 : ℤ) + k))
        (UInt32.ofNat (20 * i)) =
      (List.range' i m).map (fun (k : ℕ) => ⟨TurnoutStateRequestEncoder.encode ⟨1 + k⟩,
        now + UInt32.ofNat (20 * k)⟩) := by
  induction m generalizing i with
  | zero => rfl
  | succ m ih =>
    have hnext : UInt32.ofNat (20 * i) + kQueryStaggerMs = UInt32.ofNat (20 * (i + 1)) := by
      rw [Nat.mul_add, UInt32.ofNat_add]
      rfl
    rw [List.range'_succ, List.map_cons, List.map_cons, requestsOf, hnext, ih]

/-- A round is the whole query. -/
theorem queryAllTurnouts_eq (poll : Poll) :
    queryAllTurnouts (fun _ => reading poll.time) poll.acks poll.scheduler = fullQuery poll := by
  have haddresses : turnoutAddresses = (List.range' 0 48).map (fun (k : ℕ) => (1 : ℤ) + k) := by
    rw [← List.range_eq_range']
    rfl
  have hrequests := requestsOf_range (reading poll.time) 0 48
  rw [queryAllTurnouts, queryTurnouts_eq, fullQuery, foldl_expect, foldl_sendAfter, haddresses,
    List.range_eq_range']
  exact congrArg (fun requests => (_, (⟨poll.scheduler.pending ++ requests⟩ :
    PendingLocoNetSendScheduler))) hrequests

/-- The two outcomes differ. -/
theorem fullQuery_ne (poll : Poll) : (poll.acks, poll.scheduler) ≠ fullQuery poll := by
  intro h
  have hlength := congrArg (fun outcome => outcome.1.pendingAddresses.length) h
  simp [fullQuery, foldl_expect] at hlength

theorem updateAt_down {poll : Poll} (query : TurnoutTableStartupQuery)
    (h : poll.connected = false) :
    updateAt query poll = (⟨none, false⟩, poll.acks, poll.scheduler) := by
  simp [updateAt, update, h, resetForNextConnection]

theorem updateAt_up {poll : Poll} {query : TurnoutTableStartupQuery} {since : UInt32}
    (h : poll.connected = true)
    (hsince : query.connectedSinceMilliseconds.getD (reading poll.time) = since) :
    updateAt query poll =
      if query.queriedThisConnection = false ∧ kStableConnectionMs ≤ reading poll.time - since then
        (⟨some since, true⟩, fullQuery poll)
      else (⟨some since, query.queriedThisConnection⟩, poll.acks, poll.scheduler) := by
  rw [← queryAllTurnouts_eq]
  obtain ⟨connectedSince, queried⟩ := query
  subst hsince
  cases queried with
  | true => cases connectedSince <;> simp [updateAt, update, readyToQuery, h]
  | false =>
    cases connectedSince with
    | none => simp [updateAt, update, readyToQuery, h]
    | some since =>
      by_cases hready : kStableConnectionMs ≤ reading poll.time - since
      · simp [updateAt, update, readyToQuery, h, hready]
      · simp [updateAt, update, readyToQuery, h, hready]

/-! ### What the query remembers -/

/-- Before poll `n`, where the run of connected polls up to it, if there is one, began at `s`. -/
structure Tracks (s n : ℕ) (query : TurnoutTableStartupQuery) : Prop where
  run : Since (Disconnected polls) s n
  started : query.connectedSinceMilliseconds =
    if s = n then none else some (reading (polls s).time)
  queried : query.queriedThisConnection = true ↔ ∃ k, s ≤ k ∧ k < n ∧ Schedules polls k
  young : (∀ k, s ≤ k → k < n → ¬ Schedules polls k) →
    ∀ k, s ≤ k → k < n → (polls k).time < (polls s).time + 2000

variable {polls} {s n : ℕ}

theorem tracks_initial : Tracks polls 0 0 TurnoutTableStartupQuery.initial := by
  refine ⟨since_zero, rfl, iff_of_false Bool.false_ne_true ?_, fun _ k _ hk => by omega⟩
  rintro ⟨k, -, hk, -⟩
  omega

theorem Tracks.not_queried_iff {query : TurnoutTableStartupQuery} (h : Tracks polls s n query) :
    query.queriedThisConnection = false ↔ ∀ k, s ≤ k → k < n → ¬ Schedules polls k := by
  rw [← Bool.not_eq_true, h.queried]
  simp only [not_exists, not_and]

theorem not_schedules_of_disconnected (h : Disconnected polls n) : ¬ Schedules polls n := by
  rw [Schedules, outcome, updateAt_down _ h]
  exact fullQuery_ne (polls n)

/-- A connected poll counts from the first of its run. -/
theorem Tracks.updateAt_eq (h : Tracks polls s n (before polls n)) (hup : ¬ Disconnected polls n) :
    updateAt (before polls n) (polls n) =
      if (before polls n).queriedThisConnection = false ∧
          kStableConnectionMs ≤ reading (polls n).time - reading (polls s).time then
        (⟨some (reading (polls s).time), true⟩, fullQuery (polls n))
      else (⟨some (reading (polls s).time), (before polls n).queriedThisConnection⟩,
        (polls n).acks, (polls n).scheduler) := by
  refine updateAt_up (Bool.not_eq_false _ ▸ hup) ?_
  rw [h.started]
  split_ifs with hs
  · rw [hs, Option.getD_none]
  · exact Option.getD_some

theorem Tracks.schedules_iff_ready (h : Tracks polls s n (before polls n))
    (hup : ¬ Disconnected polls n) :
    Schedules polls n ↔ (before polls n).queriedThisConnection = false ∧
      kStableConnectionMs ≤ reading (polls n).time - reading (polls s).time := by
  rw [Schedules, outcome, h.updateAt_eq hup]
  split_ifs with hready
  · exact iff_of_true rfl hready
  · exact iff_of_false (fullQuery_ne (polls n)) hready

theorem Tracks.schedules_iff (h : Tracks polls s n (before polls n))
    (hspaced : Spaced (fun k => (polls k).time)) : Schedules polls n ↔ Due polls n := by
  by_cases hdown : Disconnected polls n
  · exact iff_of_false (not_schedules_of_disconnected hdown) (fun hdue => hdue.1 hdown)
  · have hms : kStableConnectionMs.toNat = 2000 := rfl
    have hage : (∀ k, s ≤ k → k < n → ¬ Schedules polls k) →
        (kStableConnectionMs ≤ reading (polls n).time - reading (polls s).time ↔
          (polls s).time + 2000 ≤ (polls n).time) := fun hnone =>
      hspaced.age_iff (by rw [hms]; omega) h.run.1 (h.young hnone)
    rw [h.schedules_iff_ready hdown, h.not_queried_iff]
    constructor
    · rintro ⟨hnone, hready⟩
      exact ⟨hdown, s, h.run, (hage hnone).mp hready, hnone⟩
    · rintro ⟨-, s', hrun, hlong, hnone⟩
      obtain rfl := h.run.unique hrun
      exact ⟨hnone, (hage hnone).mpr hlong⟩

theorem tracks_step (h : Tracks polls s n (before polls n))
    (hspaced : Spaced (fun k => (polls k).time)) :
    ∃ s', Tracks polls s' (n + 1) (before polls (n + 1)) := by
  have hle := h.run.1
  by_cases hdown : Disconnected polls n
  · refine ⟨n + 1, since_succ hdown, ?_, ?_, fun _ k hk hkn => by omega⟩
    · rw [before, updateAt_down _ hdown, if_pos rfl]
    · rw [before, updateAt_down _ hdown]
      refine iff_of_false Bool.false_ne_true ?_
      rintro ⟨k, hk, hkn, -⟩
      omega
  · refine ⟨s, h.run.succ hdown, ?_, ?_, fun hnone k hk hkn => ?_⟩
    · rw [before, h.updateAt_eq hdown, if_neg (show s ≠ n + 1 by omega)]
      split_ifs <;> rfl
    · have hqueried : (before polls (n + 1)).queriedThisConnection = true ↔
          (before polls n).queriedThisConnection = true ∨ Schedules polls n := by
        rw [h.schedules_iff_ready hdown, before, h.updateAt_eq hdown]
        split_ifs with hready
        · exact iff_of_true rfl (Or.inr hready)
        · exact (or_iff_left hready).symm
      rw [hqueried, h.queried]
      constructor
      · rintro (⟨k, hk, hkn, hschedules⟩ | hschedules)
        · exact ⟨k, hk, by omega, hschedules⟩
        · exact ⟨n, hle, Nat.lt_succ_self n, hschedules⟩
      · rintro ⟨k, hk, hkn, hschedules⟩
        rcases Nat.lt_succ_iff_lt_or_eq.mp hkn with hkn | rfl
        · exact Or.inl ⟨k, hk, hkn, hschedules⟩
        · exact Or.inr hschedules
    · have hearlier : ∀ k, s ≤ k → k < n → ¬ Schedules polls k :=
        fun k hk hkn => hnone k hk (by omega)
      rcases Nat.lt_succ_iff_lt_or_eq.mp hkn with hkn | rfl
      · exact h.young hearlier k hk hkn
      · -- an older run would have scheduled its query at this poll
        by_contra hlong
        refine hnone k hk (Nat.lt_succ_self k) ((h.schedules_iff hspaced).mpr ?_)
        exact ⟨hdown, s, h.run, Nat.not_lt.mp hlong, hearlier⟩

theorem before_tracks (hspaced : Spaced (fun k => (polls k).time)) (n : ℕ) :
    ∃ s, Tracks polls s n (before polls n) := by
  induction n with
  | zero => exact ⟨0, tracks_initial⟩
  | succ n ih =>
    obtain ⟨s, h⟩ := ih
    exact tracks_step h hspaced

/-- A poll schedules the full query exactly when it is due, and every other poll leaves the
queue and the scheduler as they were. -/
theorem query_fires_exactly (hspaced : Spaced (fun k => (polls k).time)) (n : ℕ) :
    (Schedules polls n ↔ Due polls n) ∧
      (¬ Schedules polls n → outcome polls n = ((polls n).acks, (polls n).scheduler)) := by
  obtain ⟨s, h⟩ := before_tracks hspaced n
  refine ⟨h.schedules_iff hspaced, fun hnone => ?_⟩
  by_cases hdown : Disconnected polls n
  · rw [outcome, updateAt_down _ hdown]
  · rw [h.schedules_iff_ready hdown] at hnone
    rw [outcome, h.updateAt_eq hdown, if_neg hnone]

/-- A connection that drops for one poll in the third second, polled every second. -/
def flapping (n : ℕ) : Poll := ⟨n ≠ 3, 1000 * n, ⟨[]⟩, ⟨[]⟩⟩

theorem query_fires_exactly_flapping :
    Due flapping 2 ∧ outcome flapping 5 = (⟨[]⟩, ⟨[]⟩) ∧ Due flapping 6 := by
  have hspaced : Spaced (fun k => (flapping k).time) := fun k => by
    simp only [flapping]
    omega
  have hschedules : Schedules flapping 2 ∧ ¬ Schedules flapping 5 ∧ Schedules flapping 6 := by
    unfold Schedules
    decide
  exact ⟨(query_fires_exactly hspaced 2).1.mp hschedules.1,
    (query_fires_exactly hspaced 5).2 hschedules.2.1,
    (query_fires_exactly hspaced 6).1.mp hschedules.2.2⟩

end Loco2Mqtt.QueryTrigger
