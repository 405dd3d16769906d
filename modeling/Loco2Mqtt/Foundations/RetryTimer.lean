import Mathlib.Data.List.Pairwise
import Loco2Mqtt.Foundations.WrappingClock

/-! A throttle on a wrapping clock. Whoever polls in need makes an attempt if the modular age
of the last one has reached the interval. Attempts are then never closer than the interval in
real time, however often the counter wraps, and no need goes without an attempt for longer
than the interval as long as it is polled again before the counter comes round. -/

namespace Loco2Mqtt.RetryTimer

open WrappingClock

/-- A poll reads the clock to check the age and, for an attempt, to stamp it. -/
structure Poll where
  needy : Bool
  checkedAt : ℕ
  stampedAt : ℕ
  deriving DecidableEq, Repr

variable (interval : UInt32)

/-- An attempt is due, where `last` is the reading at the last one. -/
def due (last : UInt32) (p : Poll) : Bool := p.needy && interval ≤ reading p.checkedAt - last

def step (last : UInt32) (p : Poll) : UInt32 :=
  if due interval last p then reading p.stampedAt else last

/-- The polls that make an attempt. -/
def attempts (last : UInt32) : List Poll → List Poll
  | [] => []
  | p :: rest => (if due interval last p then [p] else []) ++ attempts (step interval last p) rest

/-- The polls come one after another, the first of them not before `start`. -/
def Ordered : ℕ → List Poll → Prop
  | _, [] => True
  | start, p :: rest => start ≤ p.checkedAt ∧ p.checkedAt ≤ p.stampedAt ∧ Ordered p.stampedAt rest

instance instDecidableOrdered : ∀ start polls, Decidable (Ordered start polls)
  | _, [] => isTrue trivial
  | start, p :: rest =>
    have : Decidable (Ordered p.stampedAt rest) := instDecidableOrdered _ rest
    inferInstanceAs (Decidable (start ≤ p.checkedAt ∧ p.checkedAt ≤ p.stampedAt ∧ _))

variable {interval}

theorem Ordered.start_le {start : ℕ} {polls : List Poll} (h : Ordered start polls) :
    ∀ p ∈ polls, start ≤ p.checkedAt := by
  induction polls generalizing start with
  | nil => exact fun p hp => absurd hp List.not_mem_nil
  | cons p rest ih =>
    obtain ⟨hstart, hp, hrest⟩ := h
    intro q hq
    rcases List.mem_cons.mp hq with rfl | hq
    · exact hstart
    · have hle := ih hrest q hq
      omega

theorem Ordered.pairwise {start : ℕ} {polls : List Poll} (h : Ordered start polls) :
    polls.Pairwise (fun p q => p.checkedAt ≤ q.checkedAt) := by
  induction polls generalizing start with
  | nil => exact List.Pairwise.nil
  | cons p rest ih =>
    obtain ⟨-, hp, hrest⟩ := h
    refine List.pairwise_cons.mpr ⟨fun q hq => ?_, ih hrest⟩
    exact Nat.le_trans hp (hrest.start_le q hq)

/-- Of the polls of a stretch, the first is the earliest and the last is the latest. -/
theorem Ordered.between {start : ℕ} {before after : List Poll} {p q d : Poll}
    {stretch : List Poll} (h : Ordered start (before ++ (p :: stretch ++ q :: after)))
    (hd : d ∈ p :: stretch ++ [q]) : p.checkedAt ≤ d.checkedAt ∧ d.checkedAt ≤ q.checkedAt := by
  have hpairs := h.pairwise.sublist (List.sublist_append_right before _)
  have hsplit : p :: stretch ++ q :: after = p :: (stretch ++ [q]) ++ after := by simp
  rw [hsplit] at hpairs
  have hpairs := hpairs.sublist (List.sublist_append_left _ after)
  constructor
  · rcases List.mem_cons.mp hd with rfl | hd
    · exact Nat.le_refl _
    · exact (List.pairwise_cons.mp hpairs).1 d hd
  · rw [← List.cons_append, List.pairwise_append] at hpairs
    rcases List.mem_append.mp hd with hd | hd
    · exact hpairs.2.2 d hd q (List.mem_singleton.mpr rfl)
    · exact Nat.le_of_eq (congrArg Poll.checkedAt (List.mem_singleton.mp hd))

theorem attempts_append (last : UInt32) (first second : List Poll) :
    attempts interval last (first ++ second) =
      attempts interval last first ++
        attempts interval (first.foldl (step interval) last) second := by
  induction first generalizing last with
  | nil => rfl
  | cons p rest ih => simp only [List.cons_append, attempts, ih, List.foldl_cons, List.append_assoc]

/-! ### Attempts are apart -/

/-- A modular age is never more than the real one. -/
theorem le_of_le_age {r t : ℕ} (hrt : r ≤ t) (h : interval ≤ reading t - reading r) :
    r + interval.toNat ≤ t := by
  rw [UInt32.le_iff_toNat_le, UInt32.toNat_sub, toNat_reading, toNat_reading] at h
  omega

/-- Each attempt is at least the interval after the one before it, and the first is at least
the interval after the instant whose reading the timer starts from. -/
theorem attempts_apart {r start : ℕ} (hr : r ≤ start) {polls : List Poll}
    (h : Ordered start polls) :
    (∀ p ∈ attempts interval (reading r) polls, r + interval.toNat ≤ p.checkedAt) ∧
      (attempts interval (reading r) polls).Pairwise
        (fun p q => p.stampedAt + interval.toNat ≤ q.checkedAt) := by
  induction polls generalizing r start with
  | nil => exact ⟨fun p hp => absurd hp List.not_mem_nil, List.Pairwise.nil⟩
  | cons p rest ih =>
    obtain ⟨hstart, hp, hrest⟩ := h
    by_cases hdue : due interval (reading r) p
    · have hage : r + interval.toNat ≤ p.checkedAt := by
        simp only [due, Bool.and_eq_true, decide_eq_true_eq] at hdue
        exact le_of_le_age (Nat.le_trans hr hstart) hdue.2
      obtain ⟨hafter, happart⟩ := ih (Nat.le_refl _) hrest
      simp only [attempts, step, if_pos hdue, List.singleton_append]
      refine ⟨?_, List.pairwise_cons.mpr ⟨hafter, happart⟩⟩
      intro q hq
      rcases List.mem_cons.mp hq with rfl | hq
      · exact hage
      · have hlater := hafter q hq
        omega
    · simp only [attempts, step, if_neg hdue, List.nil_append]
      exact ih (by omega) hrest

/-! ### No need waits longer -/

theorem attempts_cons_eq_nil_iff {last : UInt32} {p : Poll} {rest : List Poll} :
    attempts interval last (p :: rest) = [] ↔
      ¬ due interval last p ∧ attempts interval last rest = [] := by
  by_cases hdue : due interval last p
  · simp [attempts, hdue]
  · simp [attempts, step, hdue]

theorem foldl_step_of_no_attempts {last : UInt32} {polls : List Poll}
    (h : attempts interval last polls = []) : polls.foldl (step interval) last = last := by
  induction polls with
  | nil => rfl
  | cons p rest ih =>
    obtain ⟨hp, hrest⟩ := attempts_cons_eq_nil_iff.mp h
    rw [List.foldl_cons, step, if_neg hp, ih hrest]

theorem young_of_not_due {last : UInt32} {p : Poll} (hneedy : p.needy)
    (h : ¬ due interval last p) : reading p.checkedAt - last < interval := by
  simp only [due, hneedy, Bool.true_and, decide_eq_true_eq] at h
  exact UInt32.not_le.mp h

/-- Two polls in need, the second between one interval and one round less an interval after
the first: there is an attempt at one of them or in between. -/
theorem attempt_between (last : UInt32) {p q : Poll} (hp : p.needy) (hq : q.needy)
    (hlong : p.checkedAt + interval.toNat ≤ q.checkedAt)
    (hround : q.checkedAt + interval.toNat ≤ p.checkedAt + 2 ^ 32) (between : List Poll) :
    attempts interval last (p :: between ++ [q]) ≠ [] := by
  intro hnone
  rw [attempts_append, List.append_eq_nil_iff] at hnone
  obtain ⟨hbefore, hlast⟩ := hnone
  rw [foldl_step_of_no_attempts hbefore] at hlast
  have hyoungp := young_of_not_due hp (attempts_cons_eq_nil_iff.mp hbefore).1
  have hyoungq := young_of_not_due hq (attempts_cons_eq_nil_iff.mp hlast).1
  rw [UInt32.lt_iff_toNat_lt, UInt32.toNat_sub, toNat_reading] at hyoungp hyoungq
  have hsize := last.toNat_lt
  omega

/-! ### The two together -/

/-- What a timer that starts from the reading at `start` makes of its polls. -/
structure Throttled (interval : UInt32) (start : ℕ) (polls made : List Poll) : Prop where
  sublist : made.Sublist polls
  needy : ∀ p ∈ made, p.needy
  first : ∀ p ∈ made, start + interval.toNat ≤ p.checkedAt
  apart : made.Pairwise (fun p q => p.stampedAt + interval.toNat ≤ q.checkedAt)
  prompt : ∀ before p stretch q after, polls = before ++ (p :: stretch ++ q :: after) →
    p.needy → q.needy → p.checkedAt + interval.toNat ≤ q.checkedAt →
      q.checkedAt + interval.toNat ≤ p.checkedAt + 2 ^ 32 →
        ∃ d ∈ made, p.checkedAt ≤ d.checkedAt ∧ d.checkedAt ≤ q.checkedAt

theorem attempts_sublist (last : UInt32) (polls : List Poll) :
    (attempts interval last polls).Sublist polls := by
  induction polls generalizing last with
  | nil => exact List.Sublist.refl _
  | cons p rest ih =>
    by_cases hdue : due interval last p
    · simp only [attempts, if_pos hdue, List.singleton_append]
      exact (ih _).cons_cons p
    · simp only [attempts, if_neg hdue, List.nil_append]
      exact (ih _).cons p

theorem needy_of_mem_attempts {last : UInt32} {polls : List Poll} {p : Poll}
    (h : p ∈ attempts interval last polls) : p.needy := by
  induction polls generalizing last with
  | nil => exact absurd h List.not_mem_nil
  | cons q rest ih =>
    rw [attempts, List.mem_append] at h
    rcases h with hq | hrest
    · by_cases hdue : due interval last q
      · rw [if_pos hdue, List.mem_singleton] at hq
        rw [due, Bool.and_eq_true] at hdue
        exact hq ▸ hdue.1
      · rw [if_neg hdue] at hq
        exact absurd hq List.not_mem_nil
    · exact ih hrest

theorem throttled_attempts {start : ℕ} {polls : List Poll} (h : Ordered start polls) :
    Throttled interval start polls (attempts interval (reading start) polls) where
  sublist := attempts_sublist _ polls
  needy := fun _ hp => needy_of_mem_attempts hp
  first := (attempts_apart (Nat.le_refl start) h).1
  apart := (attempts_apart (Nat.le_refl start) h).2
  prompt := by
    rintro before p stretch q after rfl hp hq hlong hround
    have hsplit : before ++ (p :: stretch ++ q :: after) =
        before ++ ((p :: stretch ++ [q]) ++ after) := by simp
    obtain ⟨d, hd⟩ := List.exists_mem_of_ne_nil _ (attempt_between
      (before.foldl (step interval) (reading start)) hp hq hlong hround stretch)
    refine ⟨d, ?_, h.between ((attempts_sublist _ _).subset hd)⟩
    rw [hsplit, attempts_append, attempts_append]
    exact List.mem_append_right _ (List.mem_append_left _ hd)

end Loco2Mqtt.RetryTimer
