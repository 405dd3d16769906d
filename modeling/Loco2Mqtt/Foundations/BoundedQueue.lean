import Mathlib.Data.List.DropRight
import Mathlib.Data.List.Induction
import Mathlib.Data.List.Infix
import Mathlib.Data.List.Nodup
import Mathlib.Data.List.Range
import Loco2Mqtt.Foundations.Runs

/-! A queue of bounded length that drops its oldest element to make room for a new one. What
is taken out comes in the order of arrival, and an element is dropped exactly if as many
others arrive behind it as the queue can hold while it is still waiting. -/

namespace Loco2Mqtt.BoundedQueue

open Runs

variable {α β : Type*} (capacity : ℕ)

def push (queue : List α) (x : α) : List α :=
  (if queue.length ≥ capacity then queue.tail else queue) ++ [x]

inductive Event (α : Type*) where
  | push (x : α)
  | pop
  deriving DecidableEq, Repr

/-- `taken` is what has been taken out so far. -/
structure State (α : Type*) where
  queue : List α
  taken : List α

def initial : State α := ⟨[], []⟩

def step (s : State α) : Event α → State α
  | .push x => { s with queue := push capacity s.queue x }
  | .pop => ⟨s.queue.tail, s.taken ++ s.queue.head?.toList⟩

/-- Everything that arrives in the course of the events. -/
def pushed (events : List (Event α)) : List α :=
  events.flatMap (fun e => match e with
    | .push x => [x]
    | .pop => [])

/-- As many as the queue can hold have arrived behind `x` and it has not been taken out. -/
def Overtaken (events : List (Event α)) (x : α) : Prop :=
  ∃ front earlier later, front.IsPrefix events ∧ pushed front = earlier ++ x :: later ∧
    capacity ≤ later.length ∧ x ∉ (run (step capacity) initial front).taken

/-! ### What is waiting and what was taken -/

theorem pushed_concat (events : List (Event α)) (e : Event α) :
    pushed (events ++ [e]) = pushed events ++ pushed [e] := List.flatMap_append

theorem pushed_sublist {front events : List (Event α)} (h : front.IsPrefix events) :
    (pushed front).Sublist (pushed events) := by
  obtain ⟨rest, rfl⟩ := h
  rw [pushed, pushed, List.flatMap_append]
  exact List.sublist_append_left _ _

theorem push_eq_concat (queue : List α) (x : α) :
    ∃ kept, push capacity queue x = kept ++ [x] ∧ kept.IsSuffix queue ∧
      (0 < capacity → queue.length ≤ capacity → kept.length < capacity) := by
  rw [push]
  split_ifs with hfull
  · refine ⟨queue.tail, rfl, List.tail_suffix _, fun hcapacity hle => ?_⟩
    rw [List.length_tail]
    omega
  · exact ⟨queue, rfl, List.suffix_rfl, fun _ _ => Nat.lt_of_not_ge hfull⟩

/-- What has been taken out and what is waiting arrived in this order, and what is waiting
arrived last. -/
structure Ordered (events : List (Event α)) (s : State α) : Prop where
  inOrder : (s.taken ++ s.queue).Sublist (pushed events)
  newest : s.queue.IsSuffix (pushed events)

theorem ordered_initial : Ordered [] (initial : State α) :=
  ⟨List.Sublist.refl _, List.suffix_rfl⟩

theorem taken_append_pop (s : State α) :
    (step capacity s .pop).taken ++ (step capacity s .pop).queue = s.taken ++ s.queue := by
  obtain ⟨queue, taken⟩ := s
  cases queue with
  | nil => simp [step]
  | cons x rest => simp [step]

theorem ordered_step {events : List (Event α)} {s : State α} (h : Ordered events s)
    (e : Event α) : Ordered (events ++ [e]) (step capacity s e) := by
  cases e with
  | push x =>
    obtain ⟨kept, hpush, hkept, -⟩ := push_eq_concat capacity s.queue x
    have hpushed : pushed (events ++ [.push x]) = pushed events ++ [x] := pushed_concat events _
    constructor
    · simp only [step, hpush]
      rw [hpushed, ← List.append_assoc]
      exact ((hkept.sublist.append_left _).trans h.inOrder).append_right _
    · simp only [step, hpush]
      rw [hpushed]
      obtain ⟨front, hfront⟩ := hkept.trans h.newest
      exact ⟨front, by rw [← hfront, List.append_assoc]⟩
  | pop =>
    have hpushed : pushed (events ++ [.pop]) = pushed events := by
      rw [pushed_concat]
      exact List.append_nil _
    constructor
    · rw [taken_append_pop, hpushed]
      exact h.inOrder
    · rw [hpushed]
      exact (List.tail_suffix _).trans h.newest

theorem ordered_run (events : List (Event α)) :
    Ordered events (run (step capacity) initial events) := by
  induction events using List.reverseRecOn with
  | nil => exact ordered_initial
  | append_singleton events e ih =>
    rw [run_concat]
    exact ordered_step capacity ih e

variable {capacity}

theorem length_step (hcapacity : 0 < capacity) (s : State α) (e : Event α)
    (h : s.queue.length ≤ capacity) : (step capacity s e).queue.length ≤ capacity := by
  cases e with
  | push x =>
    obtain ⟨kept, hpush, -, hlength⟩ := push_eq_concat capacity s.queue x
    have hroom := hlength hcapacity h
    simp only [step, hpush, List.length_append, List.length_singleton]
    omega
  | pop =>
    simp only [step, List.length_tail]
    omega

theorem length_run (hcapacity : 0 < capacity) (events : List (Event α)) :
    (run (step capacity) initial events).queue.length ≤ capacity :=
  run_invariant_of_step (fun s e h => length_step hcapacity s e h) (Nat.zero_le _) events

/-! ### What is dropped -/

theorem not_mem_taken {events : List (Event α)} (hnodup : (pushed events).Nodup) {x : α}
    (hx : x ∈ (run (step capacity) initial events).queue) :
    x ∉ (run (step capacity) initial events).taken := by
  have hdisjoint := (List.nodup_append.mp ((ordered_run capacity events).inOrder.nodup hnodup)).2.2
  exact fun htaken => hdisjoint x htaken x hx rfl

theorem overtaken_mono {events : List (Event α)} {x : α} (h : Overtaken capacity events x)
    (e : Event α) : Overtaken capacity (events ++ [e]) x := by
  obtain ⟨front, earlier, later, hfront, hpushed, hlater, htaken⟩ := h
  exact ⟨front, earlier, later, hfront.trans (List.prefix_append _ _), hpushed, hlater, htaken⟩

/-- An element that a new one pushes out has a full queue behind it. -/
theorem overtaken_of_pushed_out {events : List (Event α)} {x y : α} {rest : List α}
    (hqueue : (run (step capacity) initial events).queue = x :: rest)
    (hfull : capacity ≤ (x :: rest).length) (hnodup : (pushed events).Nodup) :
    Overtaken capacity (events ++ [.push y]) x := by
  obtain ⟨earlier, hnewest⟩ := (ordered_run capacity events).newest
  have htaken := not_mem_taken hnodup (hqueue ▸ List.mem_cons_self)
  refine ⟨events ++ [.push y], earlier, rest ++ [y], List.prefix_rfl, ?_, ?_, ?_⟩
  · rw [pushed_concat, ← hnewest, hqueue, List.append_assoc]
    rfl
  · rw [List.length_append]
    exact hfull
  · rw [run_concat]
    exact htaken

/-- One event leaves an element waiting, or it is taken out or overtaken. -/
theorem fate_step {events : List (Event α)} (hnodup : (pushed events).Nodup) {x : α}
    (h : x ∈ (run (step capacity) initial events).taken ∨
      x ∈ (run (step capacity) initial events).queue ∨ Overtaken capacity events x)
    (e : Event α) :
    x ∈ (step capacity (run (step capacity) initial events) e).taken ∨
      x ∈ (step capacity (run (step capacity) initial events) e).queue ∨
        Overtaken capacity (events ++ [e]) x := by
  rcases h with htaken | hwaiting | hover
  · left
    cases e with
    | push y => exact htaken
    | pop => exact List.mem_append_left _ htaken
  · cases e with
    | push y =>
      right
      simp only [step, push]
      split_ifs with hfull
      · cases hqueue : (run (step capacity) initial events).queue with
        | nil => rw [hqueue] at hwaiting; cases hwaiting
        | cons z rest =>
          rw [hqueue] at hwaiting hfull
          rcases List.mem_cons.mp hwaiting with rfl | hrest
          · exact Or.inr (overtaken_of_pushed_out hqueue hfull hnodup)
          · exact Or.inl (List.mem_append_left _ hrest)
      · exact Or.inl (List.mem_append_left _ hwaiting)
    | pop =>
      have hkept := List.mem_append_right (run (step capacity) initial events).taken hwaiting
      rw [← taken_append_pop capacity, List.mem_append] at hkept
      exact hkept.imp_right Or.inl
  · exact Or.inr (Or.inr (overtaken_mono hover e))

/-- Whatever has arrived is taken out, waiting or overtaken. -/
theorem fate {events : List (Event α)} (hnodup : (pushed events).Nodup) {x : α}
    (hx : x ∈ pushed events) :
    x ∈ (run (step capacity) initial events).taken ∨
      x ∈ (run (step capacity) initial events).queue ∨ Overtaken capacity events x := by
  induction events using List.reverseRecOn with
  | nil => exact absurd hx List.not_mem_nil
  | append_singleton events e ih =>
    have hbefore : (pushed events).Nodup :=
      (pushed_sublist (List.prefix_append events [e])).nodup hnodup
    rw [run_concat]
    rw [pushed_concat, List.mem_append] at hx
    rcases hx with hold | hnew
    · exact fate_step hbefore (ih hbefore hold) e
    · cases e with
      | push y =>
        rw [List.mem_singleton.mp hnew]
        exact Or.inr (Or.inl (List.mem_append_right _ List.mem_cons_self))
      | pop => cases hnew

/-- What is neither waiting nor taken out stays so. -/
theorem gone_run {front rest : List (Event α)} (hnodup : (pushed (front ++ rest)).Nodup) {x : α}
    (hx : x ∈ pushed front) (htaken : x ∉ (run (step capacity) initial front).taken)
    (hqueue : x ∉ (run (step capacity) initial front).queue) :
    x ∉ (run (step capacity) initial (front ++ rest)).taken ∧
      x ∉ (run (step capacity) initial (front ++ rest)).queue := by
  induction rest using List.reverseRecOn with
  | nil => rw [List.append_nil]; exact ⟨htaken, hqueue⟩
  | append_singleton rest e ih =>
    rw [← List.append_assoc] at hnodup ⊢
    obtain ⟨htaken, hqueue⟩ := ih ((pushed_sublist (List.prefix_append _ [e])).nodup hnodup)
    rw [run_concat]
    cases e with
    | push y =>
      refine ⟨htaken, ?_⟩
      have hne : x ≠ y := by
        rw [pushed_concat] at hnodup
        refine (List.nodup_append.mp hnodup).2.2 x ?_ y List.mem_cons_self
        exact (pushed_sublist (List.prefix_append front rest)).mem hx
      obtain ⟨kept, hpush, hkept, -⟩ :=
        push_eq_concat capacity (run (step capacity) initial (front ++ rest)).queue y
      simp only [step, hpush, List.mem_append, List.mem_singleton, not_or]
      exact ⟨fun h => hqueue (hkept.sublist.mem h), hne⟩
    | pop =>
      rw [← not_or, ← List.mem_append, taken_append_pop, List.mem_append, not_or]
      exact ⟨htaken, hqueue⟩

/-- A short end of a list has nothing of what precedes a long one. -/
theorem not_mem_suffix {xs earlier later : List α} {x : α}
    (hnodup : (earlier ++ x :: later).Nodup) (hsuffix : xs.IsSuffix (earlier ++ x :: later))
    (hlength : xs.length ≤ later.length) : x ∉ xs := by
  have hlater : later.IsSuffix (earlier ++ x :: later) :=
    ⟨earlier ++ [x], by rw [List.append_assoc, List.singleton_append]⟩
  have hxs : xs.IsSuffix later := List.suffix_of_suffix_length_le hsuffix hlater hlength
  have hx : x ∉ later := (List.nodup_cons.mp (List.nodup_append.mp hnodup).2.1).1
  exact fun hmem => hx (hxs.sublist.mem hmem)

/-- An element is lost exactly if it is overtaken. -/
theorem lost_iff_overtaken (hcapacity : 0 < capacity) {events : List (Event α)}
    (hnodup : (pushed events).Nodup) {x : α} (hx : x ∈ pushed events) :
    (x ∉ (run (step capacity) initial events).taken ∧
      x ∉ (run (step capacity) initial events).queue) ↔ Overtaken capacity events x := by
  constructor
  · rintro ⟨htaken, hqueue⟩
    rcases fate hnodup hx with h | h | h
    · exact absurd h htaken
    · exact absurd h hqueue
    · exact h
  · rintro ⟨front, earlier, later, ⟨rest, rfl⟩, hpushed, hlater, htaken⟩
    have hfront : (pushed front).Nodup := (pushed_sublist (List.prefix_append _ _)).nodup hnodup
    refine gone_run hnodup ?_ htaken (fun hmem => ?_)
    · rw [hpushed]
      exact List.mem_append_right _ List.mem_cons_self
    · -- the queue is no longer than what arrived behind `x`
      have hnewest := (ordered_run capacity front).newest
      rw [hpushed] at hfront hnewest
      exact not_mem_suffix hfront hnewest ((length_run hcapacity front).trans hlater) hmem

theorem length_rtake_le (n : ℕ) (xs : List α) : (xs.rtake n).length ≤ n := by
  rw [List.rtake, List.length_drop]
  omega

theorem queue_isSuffix_rtake (hcapacity : 0 < capacity) (events : List (Event α)) :
    (run (step capacity) initial events).queue.IsSuffix ((pushed events).rtake capacity) := by
  have hnewest := (ordered_run capacity events).newest
  refine List.suffix_of_suffix_length_le hnewest (List.drop_suffix _ _) ?_
  have hfits := length_run hcapacity events
  have hpushed := hnewest.length_le
  rw [List.rtake, List.length_drop]
  omega

/-- The last arrivals are never lost. -/
theorem recent {events : List (Event α)} (hnodup : (pushed events).Nodup) {x : α}
    (hx : x ∈ (pushed events).rtake capacity) :
    x ∈ (run (step capacity) initial events).taken ∨
      x ∈ (run (step capacity) initial events).queue := by
  have hlast : ((pushed events).rtake capacity).IsSuffix (pushed events) := List.drop_suffix _ _
  rcases fate hnodup (hlast.sublist.mem hx) with h | h | h
  · exact Or.inl h
  · exact Or.inr h
  · obtain ⟨front, earlier, later, ⟨rest, rfl⟩, hpushed, hlater, -⟩ := h
    have hall : pushed (front ++ rest) = earlier ++ x :: (later ++ pushed rest) := by
      rw [pushed, List.flatMap_append, ← pushed, hpushed, List.append_assoc, List.cons_append]
      rfl
    have hlength : capacity ≤ (later ++ pushed rest).length := by
      rw [List.length_append]
      exact hlater.trans (Nat.le_add_right _ _)
    rw [hall] at hnodup hlast hx
    exact absurd hx (not_mem_suffix hnodup hlast ((length_rtake_le _ _).trans hlength))

/-- The queue holds those of the last arrivals that have not been taken out. -/
theorem queue_eq_filter [BEq α] [LawfulBEq α] (hcapacity : 0 < capacity)
    {events : List (Event α)} (hnodup : (pushed events).Nodup) :
    (run (step capacity) initial events).queue =
      ((pushed events).rtake capacity).filter
        (fun x => x ∉ (run (step capacity) initial events).taken) := by
  have hlast : ((pushed events).rtake capacity).Nodup :=
    (List.drop_sublist _ _).nodup hnodup
  obtain ⟨before, hbefore⟩ := queue_isSuffix_rtake hcapacity events
  have htaken : ∀ x ∈ before, x ∈ (run (step capacity) initial events).taken := by
    intro x hx
    rcases recent hnodup (hbefore ▸ List.mem_append_left _ hx) with h | h
    · exact h
    · rw [← hbefore] at hlast
      exact absurd rfl ((List.nodup_append.mp hlast).2.2 x hx x h)
  rw [← hbefore, List.filter_append, List.filter_eq_nil_iff.mpr, List.nil_append,
    List.filter_eq_self.mpr]
  · exact fun x hx => decide_eq_true (not_mem_taken hnodup hx)
  · exact fun x hx => by simpa using htaken x hx

/-! ### Bursts -/

theorem push_eq_rtake (hcapacity : 0 < capacity) {queue : List α}
    (h : queue.length ≤ capacity) (x : α) :
    push capacity queue x = (queue ++ [x]).rtake capacity := by
  obtain ⟨n, rfl⟩ := Nat.exists_eq_succ_of_ne_zero hcapacity.ne'
  rw [push, List.rtake_concat_succ, List.rtake]
  split_ifs with hfull
  · rw [Nat.le_antisymm h hfull, Nat.succ_sub (le_refl n), Nat.sub_self, List.drop_one]
  · rw [Nat.sub_eq_zero_of_le (by omega), List.drop_zero]

theorem rtake_rtake_append (n : ℕ) (xs ys : List α) :
    (xs.rtake n ++ ys).rtake n = (xs ++ ys).rtake n := by
  rw [List.rtake_eq_reverse_take_reverse, List.rtake_eq_reverse_take_reverse,
    List.rtake_eq_reverse_take_reverse]
  simp only [List.reverse_append, List.reverse_reverse, List.take_append, List.take_take,
    Nat.min_eq_left (Nat.sub_le _ _)]

/-- After a burst the queue holds the last of what was waiting and what came. -/
theorem queue_burst (hcapacity : 0 < capacity) (s : State α) (h : s.queue.length ≤ capacity)
    (burst : List α) :
    (run (step capacity) s (burst.map .push)).queue = (s.queue ++ burst).rtake capacity := by
  induction burst using List.reverseRecOn with
  | nil =>
    rw [List.append_nil, List.rtake, Nat.sub_eq_zero_of_le h]
    rfl
  | append_singleton burst x ih =>
    have hlength : (run (step capacity) s (burst.map .push)).queue.length ≤ capacity :=
      run_invariant_of_step (fun s e h => length_step hcapacity s e h) h _
    rw [List.map_append, List.map_singleton, run_concat]
    change push capacity (run (step capacity) s (burst.map .push)).queue x = _
    rw [push_eq_rtake hcapacity hlength, ih, rtake_rtake_append, List.append_assoc]

/-! ### Relabelled elements -/

def Event.map (f : α → β) : Event α → Event β
  | .push x => .push (f x)
  | .pop => .pop

def State.map (f : α → β) (s : State α) : State β := ⟨s.queue.map f, s.taken.map f⟩

theorem step_map (f : α → β) (s : State α) (e : Event α) :
    step capacity (s.map f) (e.map f) = (step capacity s e).map f := by
  obtain ⟨queue, taken⟩ := s
  cases e with
  | push x =>
    simp only [step, State.map, Event.map, push, List.length_map, List.map_append]
    split_ifs
    · rw [List.map_tail]
      rfl
    · rfl
  | pop => cases queue <;> simp [step, State.map, Event.map]

/-- The queue does not look at its elements. -/
theorem run_map (f : α → β) (s : State α) (events : List (Event α)) :
    run (step capacity) (s.map f) (events.map (Event.map f)) =
      (run (step capacity) s events).map f := by
  induction events generalizing s with
  | nil => rfl
  | cons e rest ih => rw [List.map_cons, run_cons, run_cons, step_map, ih]

/-- Numbers the arrivals, so that equal elements can be told apart. -/
def numberedFrom : ℕ → List (Event α) → List (Event (ℕ × α))
  | _, [] => []
  | n, .push x :: rest => .push (n, x) :: numberedFrom (n + 1) rest
  | n, .pop :: rest => .pop :: numberedFrom n rest

theorem map_numberedFrom (n : ℕ) (events : List (Event α)) :
    (numberedFrom n events).map (Event.map Prod.snd) = events := by
  induction events generalizing n with
  | nil => rfl
  | cons e rest ih => cases e <;> simp [numberedFrom, Event.map, ih]

theorem pushed_numberedFrom (n : ℕ) (events : List (Event α)) :
    (pushed (numberedFrom n events)).map Prod.fst = List.range' n (pushed events).length := by
  induction events generalizing n with
  | nil => rfl
  | cons e rest ih =>
    cases e with
    | push x =>
      have hcons : pushed (.push x :: rest) = x :: pushed rest := rfl
      have hnumbered : pushed (numberedFrom n (.push x :: rest)) =
          (n, x) :: pushed (numberedFrom (n + 1) rest) := rfl
      rw [hcons, hnumbered, List.map_cons, ih, List.length_cons, List.range'_succ]
    | pop => exact ih n

theorem nodup_pushed_numberedFrom (n : ℕ) (events : List (Event α)) :
    (pushed (numberedFrom n events)).Nodup := by
  have hnumbers := List.nodup_range' (s := n) (n := (pushed events).length)
  rw [← pushed_numberedFrom] at hnumbers
  exact hnumbers.of_map

variable (capacity)

/-- What the queue would hold, and would have handed out, if it kept the numbers. -/
def ledger (events : List (Event α)) : State (ℕ × α) :=
  run (step capacity) initial (numberedFrom 0 events)

/-- The law of a bounded queue, over the numbered arrivals: it never outgrows its capacity,
hands them out once and in order, and loses one exactly when it is overtaken. -/
structure DropsOldest (events : List (Event α)) : Prop where
  fits : (run (step capacity) initial events).queue.length ≤ capacity
  ledger_eq : run (step capacity) initial events = (ledger capacity events).map Prod.snd
  inOrder : (ledger capacity events).taken.Sublist (pushed (numberedFrom 0 events))
  once : (ledger capacity events).taken.Nodup
  lost : ∀ arrival ∈ pushed (numberedFrom 0 events),
    (arrival ∉ (ledger capacity events).taken ∧ arrival ∉ (ledger capacity events).queue) ↔
      Overtaken capacity (numberedFrom 0 events) arrival

variable {capacity}

theorem dropsOldest (hcapacity : 0 < capacity) (events : List (Event α)) :
    DropsOldest capacity events := by
  have hnodup := nodup_pushed_numberedFrom 0 events
  have horder : (ledger capacity events).taken.Sublist (pushed (numberedFrom 0 events)) :=
    (List.sublist_append_left _ _).trans (ordered_run capacity _).inOrder
  refine ⟨length_run hcapacity events, ?_, horder, horder.nodup hnodup, fun arrival harrival =>
    lost_iff_overtaken hcapacity hnodup harrival⟩
  rw [ledger, ← run_map, map_numberedFrom]
  rfl

end Loco2Mqtt.BoundedQueue
