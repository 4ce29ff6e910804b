import ChainMigration.Engine.Schedule
import ChainMigration.Proofs.PoolHistory
import Mathlib.Data.List.Infix
import Mathlib.Data.List.Induction

/-! # Histories of engines

To a pool an event of its engine is nothing, or its start, or one of its moves
(`Engine.pool_of_step`), so any run of an engine contains the history of each of its pools
(`Engine.history`), whatever else goes on. -/

namespace ChainMigration

variable {e after : Engine} {event : Event} {events : List Event} {pool : Pool} {p : Policy}
  {i : Nat}

/-! ### One event -/

namespace Engine

theorem policy_of_step (h : e.step event = some after) : after.policy = e.policy := by
  cases Step.of_step h <;> rfl

theorem stops_of_step (h : e.step event = some after) (hstops : e.closing.stops = true) :
    after.closing.stops = true := by
  cases Step.of_step h with
  | mark hclosing =>
    rw [hclosing] at hstops
    cases hstops
  | signal | collect | shut => rfl
  | _ => exact hstops

end Engine

/-- The move of a pool that an event is. -/
def Event.moveOf (i : Nat) : Event → List PoolMove
  | .pool j move => if j = i then [move] else []
  | _ => []

/-- The moves of a pool among events. -/
def movesOf (i : Nat) (events : List Event) : List PoolMove := events.flatMap (·.moveOf i)

namespace Engine

/-- **What an event is to a pool**: nothing, or its start, or one of its moves. -/
theorem pool_of_step (h : e.step event = some after) (i : Nat) :
    (event.moveOf i = [] ∧ after.pools[i]? = e.pools[i]?) ∨
      (event.moveOf i = [] ∧ i = e.pools.length ∧ ∃ t capacity, event = .start t capacity ∧
        after.pools[i]? = some (.fresh e.policy t capacity)) ∨
      ∃ move pool next, event = .pool i move ∧ e.pools[i]? = some pool ∧
        after.pools[i]? = some next ∧ pool.Step e.policy e.closing.stops move next := by
  cases Step.of_step h with
  | start t capacity =>
    rcases Nat.lt_trichotomy i e.pools.length with hlt | rfl | hgt
    · exact Or.inl ⟨rfl, List.getElem?_append_left hlt⟩
    · exact Or.inr (Or.inl ⟨rfl, rfl, t, capacity, rfl, List.getElem?_concat_length⟩)
    · refine Or.inl ⟨rfl, ?_⟩
      rw [List.getElem?_eq_none (Nat.le_of_lt hgt), List.getElem?_eq_none]
      rw [List.length_append, List.length_singleton]
      exact hgt
  | @pool j move pool next hj hmove =>
    by_cases hij : j = i
    · subst hij
      have hlt : j < e.pools.length := (List.getElem?_eq_some_iff.mp hj).1
      exact Or.inr (Or.inr ⟨move, pool, next, rfl, hj, List.getElem?_set_self hlt, hmove⟩)
    · exact Or.inl ⟨if_neg hij, List.getElem?_set_ne hij⟩
  | _ => exact Or.inl ⟨rfl, rfl⟩

/-- **No range is taken** once the workers of a pool have exited. -/
theorem step_take_eq_none (hpool : e.pools[i]? = some pool) (hexited : pool.exited = true) (w : Nat)
    (range : BlockRange) : e.step (.pool i (.take w range)) = none := by
  rw [Option.eq_none_iff_forall_ne_some]
  intro after hstep
  cases Step.of_step hstep with
  | pool hi hmove =>
    rw [hpool] at hi
    cases hi
    cases hmove with
    | take hw =>
      have hidle := List.all_eq_true.mp hexited _ (List.mem_of_getElem? hw)
      exact absurd hidle (by decide)

/-! ### Runs -/

theorem run?_append (e : Engine) (events more : List Event) :
    e.run? (events ++ more) = (e.run? events).bind (·.run? more) := by
  induction events generalizing e with
  | nil => rfl
  | cons event events ih =>
    rw [List.cons_append, run?, run?, Option.bind_assoc]
    exact Option.bind_congr fun next _ => ih next

theorem run?_concat (e : Engine) (events : List Event) (event : Event) :
    e.run? (events ++ [event]) = (e.run? events).bind (·.step event) := by
  rw [run?_append]
  exact Option.bind_congr fun next _ => Option.bind_fun_some _

/-- **What every event preserves, every run preserves**, and what is true of every event under it is
true of all events of a run. -/
theorem forall_of_run {P : Engine → Prop} {Q : Event → Prop}
    (hstep : ∀ {e event after}, step e event = some after → P e → P after ∧ Q event)
    (h : e.run? events = some after) (he : P e) : P after ∧ ∀ event ∈ events, Q event := by
  induction events generalizing e with
  | nil =>
    cases h
    exact ⟨he, List.forall_mem_nil _⟩
  | cons event events ih =>
    obtain ⟨next, hnext, hrun⟩ := Option.bind_eq_some_iff.mp h
    obtain ⟨hkept, hevent⟩ := hstep hnext he
    obtain ⟨hafter, hevents⟩ := ih hrun hkept
    exact ⟨hafter, List.forall_mem_cons.mpr ⟨hevent, hevents⟩⟩

theorem preserved_of_run {P : Engine → Prop}
    (hstep : ∀ {e event after}, step e event = some after → P e → P after)
    (h : e.run? events = some after) (he : P e) : P after :=
  (forall_of_run (Q := fun _ => True) (fun hnext he => ⟨hstep hnext he, trivial⟩) h he).1

/-- **Induction along a run** of a fresh engine. -/
theorem run_induction {P : List Event → Engine → Prop} (hfresh : P [] (fresh p))
    (hstep : ∀ {events event before after}, (fresh p).run? events = some before →
      step before event = some after → P events before → P (events ++ [event]) after)
    (h : (fresh p).run? events = some e) : P events e := by
  induction events using List.reverseRecOn generalizing e with
  | nil =>
    cases h
    exact hfresh
  | append_singleton events event ih =>
    rw [run?_concat] at h
    obtain ⟨before, hrun, hevent⟩ := Option.bind_eq_some_iff.mp h
    exact hstep hrun hevent (ih hrun)

theorem policy_of_run (h : e.run? events = some after) : after.policy = e.policy :=
  preserved_of_run (P := (·.policy = e.policy)) (fun hstep hpolicy =>
    (policy_of_step hstep).trans hpolicy) h rfl

theorem Reachable.step (he : e.Reachable) (h : e.step event = some after) : after.Reachable := by
  obtain ⟨p, events, hrun⟩ := he
  refine ⟨p, events ++ [event], ?_⟩
  rw [run?_concat, hrun]
  exact h

theorem reachable_after (he : e.Reachable) (events : List Event) : (e.after events).Reachable := by
  induction events generalizing e with
  | nil => exact he
  | cons event events ih =>
    rw [Engine.after, List.foldl_cons]
    refine ih ?_
    cases h : e.step event with
    | none => exact he
    | some next => exact he.step h

/-- **Every pool of an engine has the history of its own moves**, and a pool that is not started has
made none. -/
theorem history (h : (fresh p).run? events = some e) (i : Nat) :
    (e.pools[i]? = none → movesOf i events = []) ∧
      ∀ pool, e.pools[i]? = some pool → pool.History p (movesOf i events) := by
  refine run_induction (P := fun events e => (e.pools[i]? = none → movesOf i events = []) ∧
    ∀ pool, e.pools[i]? = some pool → pool.History p (movesOf i events)) ?_ ?_ h
  · refine ⟨fun _ => rfl, fun pool hpool => ?_⟩
    cases hpool
  · intro events event before after hrun hstep ⟨hnone, hsome⟩
    have hpolicy : before.policy = p := policy_of_run hrun
    have hmoves : movesOf i (events ++ [event]) = movesOf i events ++ event.moveOf i := by
      rw [movesOf, List.flatMap_append, List.flatMap_singleton]
      rfl
    rw [hmoves]
    rcases pool_of_step hstep i with ⟨hm, heq⟩ | ⟨hm, hi, t, capacity, -, hi'⟩ |
      ⟨move, pool, next, rfl, hi, hi', hmove⟩
    · rw [hm, List.append_nil, heq]
      exact ⟨hnone, hsome⟩
    · rw [hm, List.append_nil, hnone (List.getElem?_eq_none hi.ge), hi', hpolicy]
      refine ⟨nofun, fun pool hpool => ?_⟩
      cases hpool
      exact .fresh t capacity false
    · rw [Event.moveOf, if_pos rfl, hi']
      refine ⟨nofun, fun pool' hpool => ?_⟩
      cases hpool
      rw [hpolicy] at hmove
      exact .move (hsome pool hi) hmove

/-- **Why a worker exits**, in any run of its engine. -/
theorem stop_or_drained (h : (fresh p).run? events = some e) (hpool : e.pools[i]? = some pool)
    (hexited : .exited ∈ pool.workers) :
    (pool.quit = true ∨ e.closing.stops = true) ∨ pool.ended = true ∧ pool.queue = [] := by
  refine run_induction (P := fun _ e => ∀ pool, e.pools[i]? = some pool → .exited ∈ pool.workers →
    (pool.quit = true ∨ e.closing.stops = true) ∨ pool.ended = true ∧ pool.queue = []) ?_ ?_ h
    pool hpool hexited
  · intro pool hpool
    cases hpool
  · intro events event before after _ hstep ih pool hpool hexited
    have hstops := stops_of_step hstep
    rcases pool_of_step hstep i with ⟨-, heq⟩ | ⟨-, -, t, capacity, -, hi'⟩ |
      ⟨move, pool', next, -, hi, hi', hmove⟩
    · rw [heq] at hpool
      exact (ih pool hpool hexited).imp_left (Or.imp_right hstops)
    · rw [hi'] at hpool
      cases hpool
      exact absurd (List.eq_of_mem_replicate hexited) nofun
    · rw [hi'] at hpool
      cases hpool
      exact (hmove.stop_or_drained (ih pool' hi) hexited).imp_left (Or.imp_right hstops)

/-- Whenever a pool is told to stop, by its owner or by the closing of the engine, its source has
ended and its queue is empty. -/
def NeverStoppedEarly (p : Policy) (events : List Event) (i : Nat) : Prop :=
  ∀ early e pool, early <+: events → (fresh p).run? early = some e → e.pools[i]? = some pool →
    (pool.quit = true ∨ e.closing.stops = true) → pool.ended = true ∧ pool.queue = []

instance (p : Policy) (events : List Event) (i : Nat) : Decidable (NeverStoppedEarly p events i) :=
  decidable_of_iff (∀ early ∈ events.inits, ∀ e ∈ (fresh p).run? early, ∀ pool ∈ e.pools[i]?,
    (pool.quit = true ∨ e.closing.stops = true) → pool.ended = true ∧ pool.queue = [])
    ⟨fun h early e pool hearly hrun => h early ((List.mem_inits ..).mpr hearly) e hrun pool,
      fun h early hearly e hrun pool => h early e pool ((List.mem_inits ..).mp hearly) hrun⟩

end Engine

/-! ### Ranges of examples -/

/-- A first range of heights. -/
def lowHeights : BlockRange := ⟨0, 3, by decide, by decide⟩

/-- The range behind it. -/
def highHeights : BlockRange := ⟨4, 9, by decide, by decide⟩

end ChainMigration
