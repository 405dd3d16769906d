import Loco2Mqtt.Application.SendScheduler

/-! `TurnoutTableStartupQuery`. Once the connection has been up for two seconds, every
turnout of the table is expected in the queue of pending acks and its state request is
scheduled, 20 milliseconds apart. -/

namespace Loco2Mqtt

structure TurnoutTableStartupQuery where
  connectedSinceMilliseconds : Option UInt32
  queriedThisConnection : Bool

namespace TurnoutTableStartupQuery

open WrappingClock DelayLine PendingLocoNetSendScheduler

def kMinTurnoutAddress : ℤ := 1
def kMaxTurnoutAddress : ℤ := 48
def kQueryStaggerMs : UInt32 := 20
def kStableConnectionMs : UInt32 := 2000

def initial : TurnoutTableStartupQuery := ⟨none, false⟩

def resetForNextConnection (_ : TurnoutTableStartupQuery) : TurnoutTableStartupQuery :=
  ⟨none, false⟩

/-- `clock k` is the reading that the clock gives at its `k`-th use; the last component
counts the readings taken. -/
def readyToQuery (query : TurnoutTableStartupQuery) (clock : ℕ → UInt32) :
    Bool × TurnoutTableStartupQuery × ℕ :=
  let (since, next) := match query.connectedSinceMilliseconds with
    | some since => (since, 0)
    | none => (clock 0, 1)
  let query := { query with connectedSinceMilliseconds := some since }
  if query.queriedThisConnection then (false, query, next)
  else (clock next - since ≥ kStableConnectionMs, query, next + 1)

/-- The loop of `queryAllTurnouts` over the addresses that remain. -/
def queryTurnouts (clock : ℕ → UInt32) : List ℤ → UInt32 → PendingTurnoutStateAcks →
    PendingLocoNetSendScheduler → PendingTurnoutStateAcks × PendingLocoNetSendScheduler
  | [], _, acks, scheduler => (acks, scheduler)
  | address :: rest, delayMilliseconds, acks, scheduler =>
    queryTurnouts (fun k => clock (k + 1)) rest (delayMilliseconds + kQueryStaggerMs)
      (acks.expect ⟨address⟩)
      (scheduler.sendAfter (clock 0) (TurnoutStateRequestEncoder.encode ⟨address⟩)
        delayMilliseconds)

/-- The addresses from `kMinTurnoutAddress` to `kMaxTurnoutAddress`. -/
def turnoutAddresses : List ℤ :=
  (List.range (kMaxTurnoutAddress - kMinTurnoutAddress + 1).toNat).map
    (fun k => kMinTurnoutAddress + k)

def queryAllTurnouts (clock : ℕ → UInt32) (acks : PendingTurnoutStateAcks)
    (scheduler : PendingLocoNetSendScheduler) :
    PendingTurnoutStateAcks × PendingLocoNetSendScheduler :=
  queryTurnouts clock turnoutAddresses 0 acks scheduler

def update (query : TurnoutTableStartupQuery) (connected : Bool) (clock : ℕ → UInt32)
    (acks : PendingTurnoutStateAcks) (scheduler : PendingLocoNetSendScheduler) :
    TurnoutTableStartupQuery × PendingTurnoutStateAcks × PendingLocoNetSendScheduler :=
  if !connected then (query.resetForNextConnection, acks, scheduler)
  else
    let (ready, query, used) := query.readyToQuery clock
    if ready then
      let (acks, scheduler) := queryAllTurnouts (fun k => clock (used + k)) acks scheduler
      ({ query with queriedThisConnection := true }, acks, scheduler)
    else (query, acks, scheduler)

/-! ### The requests of one round -/

/-- What the loop schedules. -/
def requestsOf (clock : ℕ → UInt32) : List ℤ → UInt32 → List PendingLocoNetSend
  | [], _ => []
  | address :: rest, delayMilliseconds =>
    ⟨TurnoutStateRequestEncoder.encode ⟨address⟩, clock 0 + delayMilliseconds⟩ ::
      requestsOf (fun k => clock (k + 1)) rest (delayMilliseconds + kQueryStaggerMs)

theorem queryTurnouts_eq (clock : ℕ → UInt32) (addresses : List ℤ) (delay : UInt32)
    (acks : PendingTurnoutStateAcks) (scheduler : PendingLocoNetSendScheduler) :
    queryTurnouts clock addresses delay acks scheduler =
      (⟨acks.pendingAddresses ++ addresses⟩,
        ⟨scheduler.pending ++ requestsOf clock addresses delay⟩) := by
  induction addresses generalizing clock delay acks scheduler with
  | nil => simp [queryTurnouts, requestsOf]
  | cons address rest ih =>
    simp [queryTurnouts, requestsOf, ih, PendingTurnoutStateAcks.expect, sendAfter]

theorem requestsOf_messages (clock : ℕ → UInt32) (addresses : List ℤ) (delay : UInt32) :
    (requestsOf clock addresses delay).map PendingLocoNetSend.message =
      addresses.map (fun address => TurnoutStateRequestEncoder.encode ⟨address⟩) := by
  induction addresses generalizing clock delay with
  | nil => rfl
  | cons address rest ih => simp only [requestsOf, List.map_cons, ih]

/-- As long as no due time wraps, they ascend from the first reading on and stay within the
stagger of the last. -/
theorem requestsOf_due (times : ℕ → ℕ) (hmono : ∀ j k, j ≤ k → times j ≤ times k)
    (addresses : List ℤ) (delay : UInt32) (hdelay : delay.toNat + 20 * addresses.length < 2 ^ 32)
    (hno : ∀ k < addresses.length, DueUnwrapped (times k) (delay.toNat + 20 * k)) :
    Ascending dueNat (requestsOf (fun k => reading (times k)) addresses delay) ∧
      ∀ entry ∈ requestsOf (fun k => reading (times k)) addresses delay,
        times 0 + delay.toNat ≤ dueNat entry ∧
          dueNat entry + 20 ≤ times addresses.length + delay.toNat + 20 * addresses.length := by
  induction addresses generalizing times delay with
  | nil => exact ⟨List.Pairwise.nil, fun _ h => absurd h List.not_mem_nil⟩
  | cons address rest ih =>
    simp only [List.length_cons] at hdelay hno ⊢
    have hstagger : (delay + kQueryStaggerMs).toNat = delay.toNat + 20 := by
      rw [UInt32.toNat_add]
      exact Nat.mod_eq_of_lt (show delay.toNat + 20 < 2 ^ 32 by omega)
    have hfirst := hmono 0 1 (by omega)
    have hlast := hmono 1 (rest.length + 1) (by omega)
    have hdue : dueNat ⟨TurnoutStateRequestEncoder.encode ⟨address⟩, reading (times 0) + delay⟩ =
        times 0 + delay.toNat := dueNat_of_unwrapped (hno 0 (by omega)) _
    obtain ⟨hasc, hbounds⟩ := ih (fun k => times (k + 1)) (fun j k hjk => hmono _ _ (by omega))
      (delay + kQueryStaggerMs) (by rw [hstagger]; omega) (fun k hk => by
        have hnext : times (k + 1) + (delay.toNat + 20 * (k + 1)) < 2 ^ 32 := hno (k + 1) (by omega)
        rw [hstagger, DueUnwrapped]
        omega)
    simp only [hstagger, Nat.zero_add] at hbounds
    simp only [requestsOf]
    refine ⟨List.pairwise_cons.mpr ⟨fun entry hentry => ?_, hasc⟩, fun entry hentry => ?_⟩
    · have hentry := hbounds entry hentry
      rw [hdue]
      omega
    · rcases List.mem_cons.mp hentry with rfl | hentry
      · rw [hdue]
        omega
      · have hentry := hbounds entry hentry
        omega

/-- What an update of a connected query does: nothing but note the time, or, after two stable
seconds, a whole round. -/
theorem update_connected (query : TurnoutTableStartupQuery) (clock : ℕ → UInt32)
    (acks : PendingTurnoutStateAcks) (scheduler : PendingLocoNetSendScheduler) :
    ∃ since used, (query.connectedSinceMilliseconds = some since ∨
        query.connectedSinceMilliseconds = none ∧ since = clock 0) ∧
      (query.update true clock acks scheduler =
          (⟨some since, query.queriedThisConnection⟩, acks, scheduler) ∨
        query.queriedThisConnection = false ∧ kStableConnectionMs ≤ clock used - since ∧
          query.readyToQuery clock = (true, ⟨some since, false⟩, used + 1) ∧
          query.update true clock acks scheduler = (⟨some since, true⟩,
            ⟨acks.pendingAddresses ++ turnoutAddresses⟩, ⟨scheduler.pending ++
              requestsOf (fun k => clock (used + 1 + k)) turnoutAddresses 0⟩)) := by
  obtain ⟨connectedSince, queried⟩ := query
  cases queried with
  | true =>
    rcases connectedSince with _ | since
    · exact ⟨clock 0, 0, Or.inr ⟨rfl, rfl⟩, Or.inl rfl⟩
    · exact ⟨since, 0, Or.inl rfl, Or.inl rfl⟩
  | false =>
    rcases connectedSince with _ | since
    · refine ⟨clock 0, 1, Or.inr ⟨rfl, rfl⟩, ?_⟩
      by_cases hready : kStableConnectionMs ≤ clock 1 - clock 0
      · refine Or.inr ⟨rfl, hready, by simp [readyToQuery, hready], ?_⟩
        simp [update, readyToQuery, hready, queryAllTurnouts, queryTurnouts_eq]
      · refine Or.inl ?_
        simp [update, readyToQuery, hready]
    · refine ⟨since, 0, Or.inl rfl, ?_⟩
      by_cases hready : kStableConnectionMs ≤ clock 0 - since
      · refine Or.inr ⟨rfl, hready, by simp [readyToQuery, hready], ?_⟩
        simp [update, readyToQuery, hready, queryAllTurnouts, queryTurnouts_eq]
      · refine Or.inl ?_
        simp [update, readyToQuery, hready]

theorem length_turnoutAddresses : turnoutAddresses.length = 48 := rfl

end TurnoutTableStartupQuery
end Loco2Mqtt
