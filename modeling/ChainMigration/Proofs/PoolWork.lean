import ChainMigration.Proofs.EngineHistory
import Mathlib.Data.List.Perm.Subperm

/-! # The work of a pool

However its workers, its owner, its closing engine and other pools interleave, a pool does what one
worker does that works on the taken ranges one after the other (`pool_work`). What shows of the work
on a range is a list of effects (`rangeEffects`), and what a worker in the midst of a range has
still to bring about is `Worker.ahead`: every move of a worker moves some effects from what is ahead
of it to what has happened (`Pool.Step.worker`), and so at any time what has happened and what is
ahead of the workers are the effects of the ranges taken so far (`Pool.History.perm_effects`). -/

namespace ChainMigration

variable {ends : Endpoints} {p : Policy} {t : Table} {closing : Bool} {pool next : Pool}
  {move : PoolMove} {moves : List PoolMove}

/-! ### Effects -/

/-- What shows of the work on ranges. -/
inductive Effect
  /-- A read was answered. -/
  | read (range : BlockRange) (answer : Except MigrationError OldRows)
  /-- Rows were written. -/
  | written (range : BlockRange) (rows : NewRows)
  /-- A gap or a failure was told. -/
  | told (notice : Notice)

/-- The effects of a worker that does nothing but work on one range. -/
def rangeEffects (ends : Endpoints) (p : Policy) (t : Table) (range : BlockRange) : List Effect :=
  let o := processRange ends p t range
  .read range (ends.read t range) :: (o.written.toList.map (.written range) ++ o.notices.map .told)

namespace PoolMove

/-- The effects of a move. -/
def effects : PoolMove → List Effect
  | read _ range answer => [.read range answer]
  | write _ range rows answer => if answer.isOk then [.written range rows] else []
  | tell _ notice => [.told notice]
  | _ => []

/-- A read or a write is answered by the given endpoints. -/
def Follows (ends : Endpoints) (t : Table) : PoolMove → Prop
  | read _ range answer => answer = ends.read t range
  | write _ range rows answer => answer = ends.write t range rows
  | _ => True

/-- The range of which a read is answered. -/
def answered : PoolMove → List BlockRange
  | read _ range _ => [range]
  | _ => []

end PoolMove

namespace Worker

/-- The range of which a worker waits for the rows. -/
def asking : Worker → List BlockRange
  | reading range => [range]
  | _ => []

theorem asking_telling (range : BlockRange) (notices : List Notice) :
    (telling range notices).asking = [] := by
  cases notices <;> rfl

theorem asking_goOn (range : BlockRange) (a : AfterRead) : (goOn range a).asking = [] := by
  cases a with
  | finished notices => exact asking_telling range notices
  | batch => rfl

/-- The effects that a worker has yet to bring about with the range that it has in hand. -/
def ahead (ends : Endpoints) (p : Policy) (t : Table) : Worker → List Effect
  | idle | poised | asleep | exited => []
  | reading range => rangeEffects ends p t range
  | writing range upgraded =>
    let answer := ends.write t range upgraded.rows
    (if answer.isOk then [.written range upgraded.rows] else []) ++
      (afterWrite range upgraded answer).map .told
  | reporting _ notices => notices.map .told

theorem ahead_telling (ends : Endpoints) (p : Policy) (t : Table) (range : BlockRange)
    (notices : List Notice) : (telling range notices).ahead ends p t = notices.map .told := by
  cases notices <;> rfl

theorem ahead_goOn (ends : Endpoints) (p : Policy) (t : Table) (range : BlockRange) :
    rangeEffects ends p t range = .read range (ends.read t range) ::
      (goOn range (afterRead p t range (ends.read t range))).ahead ends p t := by
  unfold rangeEffects processRange
  cases afterRead p t range (ends.read t range) with
  | finished notices =>
    rw [goOn, ahead_telling]
    rfl
  | batch upgraded =>
    unfold goOn ahead
    dsimp only
    cases (ends.write t range upgraded.rows).isOk <;> rfl

theorem range?_telling (range : BlockRange) (notices : List Notice) :
    ∃ finished, finished ++ (telling range notices).range?.toList = [range] := by
  cases notices with
  | nil => exact ⟨[range], rfl⟩
  | cons => exact ⟨[], rfl⟩

theorem range?_goOn (range : BlockRange) (a : AfterRead) :
    ∃ finished, finished ++ (goOn range a).range?.toList = [range] := by
  cases a with
  | finished notices => exact range?_telling range notices
  | batch => exact ⟨[], rfl⟩

end Worker

/-! ### One move -/

theorem perm_flatMap_set {α β : Type} {f : α → List β} {came went : List β} {b : α} :
    ∀ {l : List α} {i : Nat} {a : α}, l[i]? = some a → came ++ f b = f a ++ went →
      (came ++ (l.set i b).flatMap f).Perm (l.flatMap f ++ went)
  | x :: l, 0, a, ha, h => by
    cases ha
    rw [List.set_cons_zero, List.flatMap_cons, List.flatMap_cons, ← List.append_assoc, h,
      List.append_assoc, List.append_assoc]
    exact List.perm_append_comm.append_left _
  | x :: l, i + 1, a, ha, h => by
    rw [List.getElem?_cons_succ] at ha
    rw [List.set_cons_succ, List.flatMap_cons, List.flatMap_cons, List.append_assoc]
    refine List.Perm.trans ?_ ((perm_flatMap_set ha h).append_left _)
    rw [← List.append_assoc, ← List.append_assoc]
    exact List.perm_append_comm.append_right _

theorem flatMap_replicate_nil {α β : Type} {f : α → List β} {a : α} (h : f a = []) {n : Nat} :
    (List.replicate n a).flatMap f = [] :=
  List.flatMap_eq_nil_iff.mpr fun b hb => by rw [List.eq_of_mem_replicate hb, h]

namespace Pool

/-- The ranges that the workers have in hand. -/
def inHand (pool : Pool) : List BlockRange := pool.workers.flatMap (·.range?.toList)

/-- The effects that the workers have yet to bring about. -/
def ahead (ends : Endpoints) (p : Policy) (pool : Pool) : List Effect :=
  pool.workers.flatMap (·.ahead ends p pool.table)

/-- **A move of a worker moves effects from what is ahead of it to what has happened**, and nothing
is ahead of it before it takes a range; any other move leaves the workers alone. -/
theorem Step.worker (h : pool.Step p closing move next) :
    (next.workers = pool.workers ∧ move.effects = [] ∧ move.taken = []) ∨
      ∃ i w w' finished, pool.workers[i]? = some w ∧ next.workers = pool.workers.set i w' ∧
        (∀ ends, move.Follows ends pool.table → move.effects ++ w'.ahead ends p pool.table =
          w.ahead ends p pool.table ++ move.taken.flatMap (rangeEffects ends p pool.table)) ∧
        finished ++ w'.range?.toList = w.range?.toList ++ move.taken := by
  cases h with
  | @look i w hw hlook =>
    refine Or.inr ⟨i, _, _, [], hw, rfl, fun _ _ => ?_, ?_⟩
    · rcases hlook with rfl | ⟨rfl, -⟩ <;> rfl
    · rcases hlook with rfl | ⟨rfl, -⟩ <;> rfl
  | @take i range rest hw =>
    refine Or.inr ⟨i, _, _, [], hw, rfl, fun _ _ => ?_, rfl⟩
    rw [PoolMove.taken, List.flatMap_singleton]
    rfl
  | @sleep i hw => exact Or.inr ⟨i, _, _, [], hw, rfl, fun _ _ => rfl, rfl⟩
  | @read i range answer hw =>
    obtain ⟨finished, hfin⟩ := Worker.range?_goOn range (afterRead p pool.table range answer)
    refine Or.inr ⟨i, _, _, finished, hw, rfl, fun ends hf => ?_, hfin⟩
    obtain rfl : answer = ends.read pool.table range := hf
    rw [Worker.ahead, Worker.ahead_goOn]
    exact (List.append_nil _).symm
  | @write i range upgraded answer hw =>
    obtain ⟨finished, hfin⟩ := Worker.range?_telling range (afterWrite range upgraded answer)
    refine Or.inr ⟨i, _, _, finished, hw, rfl, fun ends hf => ?_, hfin⟩
    obtain rfl : answer = ends.write pool.table range upgraded.rows := hf
    rw [Worker.ahead_telling]
    exact (List.append_nil _).symm
  | @tell i range notice rest hw =>
    obtain ⟨finished, hfin⟩ := Worker.range?_telling range rest
    refine Or.inr ⟨i, _, _, finished, hw, rfl, fun _ _ => ?_, hfin⟩
    rw [Worker.ahead_telling]
    exact (List.append_nil _).symm
  | @exit i w hw hexit =>
    refine Or.inr ⟨i, _, _, [], hw, rfl, fun _ _ => ?_, ?_⟩
    · rcases hexit with ⟨rfl | rfl, -⟩ | ⟨rfl, -⟩ <;> rfl
    · rcases hexit with ⟨rfl | rfl, -⟩ | ⟨rfl, -⟩ <;> rfl
  | _ => exact Or.inl ⟨rfl, rfl, rfl⟩

theorem Step.perm_ahead (h : pool.Step p closing move next) (hf : move.Follows ends pool.table) :
    (move.effects ++ next.ahead ends p).Perm
      (pool.ahead ends p ++ move.taken.flatMap (rangeEffects ends p pool.table)) := by
  unfold Pool.ahead
  rw [h.table]
  rcases h.worker with ⟨hw, heffects, htaken⟩ | ⟨i, w, w', -, hi, hw, heffects, -⟩
  · rw [hw, heffects, htaken, List.flatMap_nil, List.append_nil]
    exact List.Perm.refl _
  · rw [hw]
    exact perm_flatMap_set hi (heffects ends hf)

/-- With one worker the effects come in order. -/
theorem Step.ahead_of_single (h : pool.Step p closing move next)
    (hf : move.Follows ends pool.table) (hone : pool.workers.length = 1) :
    move.effects ++ next.ahead ends p =
      pool.ahead ends p ++ move.taken.flatMap (rangeEffects ends p pool.table) := by
  unfold Pool.ahead
  rw [h.table]
  obtain ⟨single, hsingle⟩ := List.length_eq_one_iff.mp hone
  rcases h.worker with ⟨hw, heffects, htaken⟩ | ⟨i, w, w', -, hi, hw, heffects, -⟩
  · rw [hw, heffects, htaken, List.flatMap_nil, List.append_nil, List.nil_append]
  · obtain ⟨hlt, rfl⟩ := List.getElem?_eq_some_iff.mp hi
    obtain rfl : i = 0 := by omega
    rw [hw]
    simp only [hsingle, List.set_cons_zero, List.flatMap_singleton, List.getElem_cons_zero]
      at heffects ⊢
    exact heffects ends hf

/-- The ranges that workers had in hand or take now are those that they have in hand then and those
that they finish. -/
theorem Step.perm_inHand (h : pool.Step p closing move next) :
    ∃ finished, (finished ++ next.inHand).Perm (pool.inHand ++ move.taken) := by
  unfold Pool.inHand
  rcases h.worker with ⟨hw, -, htaken⟩ | ⟨i, w, w', finished, hi, hw, -, hfinished⟩
  · refine ⟨[], ?_⟩
    rw [hw, htaken, List.append_nil]
    exact List.Perm.refl _
  · rw [hw]
    exact ⟨finished, perm_flatMap_set hi hfinished⟩

/-- The reads that workers waited for or begin now are those that they wait for then and those that
are answered. -/
theorem Step.perm_asking (h : pool.Step p closing move next) :
    (move.answered ++ next.workers.flatMap Worker.asking).Perm
      (pool.workers.flatMap Worker.asking ++ move.taken) := by
  cases h with
  | look hw hlook => rcases hlook with rfl | ⟨rfl, -⟩ <;> exact perm_flatMap_set hw rfl
  | take hw => exact perm_flatMap_set hw rfl
  | sleep hw => exact perm_flatMap_set hw rfl
  | read hw =>
    refine perm_flatMap_set hw ?_
    rw [Worker.asking_goOn]
    rfl
  | write hw =>
    refine perm_flatMap_set hw ?_
    rw [Worker.asking_telling]
    rfl
  | tell hw =>
    refine perm_flatMap_set hw ?_
    rw [Worker.asking_telling]
    rfl
  | exit hw hexit =>
    rcases hexit with ⟨rfl | rfl, -⟩ | ⟨rfl, -⟩ <;> exact perm_flatMap_set hw rfl
  | _ => exact .of_eq (List.append_nil _).symm

namespace History

theorem exists_perm_inHand (h : pool.History p moves) :
    ∃ finished, (finished ++ pool.inHand).Perm (moves.flatMap (·.taken)) := by
  induction h with
  | fresh =>
    refine ⟨[], ?_⟩
    rw [List.nil_append, inHand, begun, Pool.fresh, flatMap_replicate_nil rfl]
    exact .nil
  | @move moves pool next closing move _ h ih =>
    obtain ⟨before, hbefore⟩ := ih
    obtain ⟨finished, hfinished⟩ := h.perm_inHand
    refine ⟨before ++ finished, ?_⟩
    rw [List.flatMap_append, List.flatMap_singleton, List.append_assoc]
    refine (hfinished.append_left _).trans ?_
    rw [← List.append_assoc]
    exact hbefore.append_right _

/-- **Each range that is taken is read once**, or its read is not yet answered. -/
theorem perm_answered (h : pool.History p moves) :
    (moves.flatMap (·.answered) ++ pool.workers.flatMap Worker.asking).Perm
      (moves.flatMap (·.taken)) := by
  induction h with
  | fresh =>
    rw [begun, Pool.fresh, flatMap_replicate_nil rfl]
    exact .nil
  | move _ h ih =>
    rw [List.flatMap_append, List.flatMap_append, List.flatMap_singleton, List.flatMap_singleton,
      List.append_assoc]
    refine (h.perm_asking.append_left _).trans ?_
    rw [← List.append_assoc]
    exact ih.append_right _

/-- **What has happened and what is ahead of the workers** are the effects of the ranges taken. -/
theorem perm_effects (h : pool.History p moves)
    (hf : ∀ move ∈ moves, move.Follows ends pool.table) :
    (moves.flatMap (·.effects) ++ pool.ahead ends p).Perm
      ((moves.flatMap (·.taken)).flatMap (rangeEffects ends p pool.table)) := by
  induction h with
  | fresh =>
    rw [ahead, begun, Pool.fresh, flatMap_replicate_nil rfl]
    exact .nil
  | @move moves pool next closing move _ h ih =>
    rw [h.table, List.forall_mem_append, List.forall_mem_singleton] at hf
    rw [List.flatMap_append, List.flatMap_append, List.flatMap_append, List.flatMap_singleton,
      List.flatMap_singleton, List.append_assoc, h.table]
    refine ((h.perm_ahead hf.2).append_left _).trans ?_
    rw [← List.append_assoc]
    exact (ih hf.1).append_right _

theorem effects_of_single (h : pool.History p moves)
    (hf : ∀ move ∈ moves, move.Follows ends pool.table) (hone : p.workersPerTable = 1) :
    moves.flatMap (·.effects) ++ pool.ahead ends p =
      (moves.flatMap (·.taken)).flatMap (rangeEffects ends p pool.table) := by
  induction h with
  | fresh =>
    rw [ahead, begun, Pool.fresh, flatMap_replicate_nil rfl]
    rfl
  | @move moves pool next closing move hist h ih =>
    rw [h.table, List.forall_mem_append, List.forall_mem_singleton] at hf
    rw [List.flatMap_append, List.flatMap_append, List.flatMap_append, List.flatMap_singleton,
      List.flatMap_singleton, List.append_assoc, h.table,
      h.ahead_of_single hf.2 (hist.workers_length.trans hone), ← List.append_assoc, ih hf.1]

end History

theorem ahead_of_exited (h : pool.exited = true) : pool.ahead ends p = [] := by
  refine List.flatMap_eq_nil_iff.mpr fun w hw => ?_
  rw [decide_eq_true_iff.mp (List.all_eq_true.mp h w hw)]
  rfl

theorem length_inHand_le (pool : Pool) : pool.inHand.length ≤ pool.workers.length := by
  rw [inHand, ← List.filterMap_eq_flatMap_toList]
  exact List.length_filterMap_le _ _

/-! ### The ledger -/

/-- What the moves of a pool amount to, whatever the order in which its workers make them. -/
structure Ledger (ends : Endpoints) (p : Policy) (moves : List PoolMove) (pool : Pool) : Prop where
  /-- The ranges are taken in the order in which they are sent, each by one worker. -/
  sent_eq : moves.flatMap (·.sent) = moves.flatMap (·.taken) ++ pool.queue
  /-- A range that is taken is in the hand of one worker or finished. -/
  perm_inHand : ∃ finished, (finished ++ pool.inHand).Perm (moves.flatMap (·.taken))
  /-- The workers are as many as the policy asks for, and each has at most one range in hand. -/
  inHand_le : pool.inHand.length ≤ p.workersPerTable
  /-- At any time nothing has happened but some of the work on the ranges taken. -/
  subperm : (moves.flatMap (·.effects)).Subperm
    ((moves.flatMap (·.taken)).flatMap (rangeEffects ends p pool.table))
  /-- When the pool is done, all of it has happened. -/
  perm : pool.done = true → (moves.flatMap (·.effects)).Perm
    ((moves.flatMap (·.taken)).flatMap (rangeEffects ends p pool.table))
  /-- A single worker does it range by range in order. -/
  isPrefix : p.workersPerTable = 1 → moves.flatMap (·.effects) <+:
    (moves.flatMap (·.taken)).flatMap (rangeEffects ends p pool.table)
  /-- When it is done, that is all of it. -/
  eq : p.workersPerTable = 1 → pool.done = true → moves.flatMap (·.effects) =
    (moves.flatMap (·.taken)).flatMap (rangeEffects ends p pool.table)
  /-- What is told is received from the channels in the order of telling. -/
  gaps_eq : ∀ kind, moves.flatMap (·.told.filterMap (·.gap? kind)) =
    moves.flatMap (·.gapReceived kind) ++ pool.gapsWaiting kind
  failures_eq : moves.flatMap (·.told.filterMap (·.failure?)) =
    moves.flatMap (·.failureReceived) ++ pool.errors

theorem History.ledger (h : pool.History p moves)
    (hf : ∀ move ∈ moves, move.Follows ends pool.table) : pool.Ledger ends p moves where
  sent_eq := h.sent
  perm_inHand := h.exists_perm_inHand
  inHand_le := h.workers_length ▸ pool.length_inHand_le
  subperm := (List.sublist_append_left ..).subperm.trans (h.perm_effects hf).subperm
  perm hdone := by
    have hperm := h.perm_effects hf
    rw [ahead_of_exited (h.exited_of_done hdone), List.append_nil] at hperm
    exact hperm
  isPrefix hone := ⟨_, h.effects_of_single hf hone⟩
  eq hone hdone := by
    have heq := h.effects_of_single hf hone
    rw [ahead_of_exited (h.exited_of_done hdone), List.append_nil] at heq
    exact heq
  gaps_eq := h.gapsTold
  failures_eq := h.failuresTold

end Pool

/-! ### Pools that are told to stop -/

/-- How many ranges a worker takes of a pool that is told to stop: one if it has seen no stop and is
about to look into the queue. -/
def Worker.mayTake : Worker → Nat
  | poised => 1
  | _ => 0

theorem Worker.mayTake_telling (range : BlockRange) (notices : List Notice) :
    (telling range notices).mayTake = 0 := by
  cases notices <;> rfl

theorem Worker.mayTake_goOn (range : BlockRange) (a : AfterRead) : (goOn range a).mayTake = 0 := by
  cases a with
  | finished notices => exact mayTake_telling range notices
  | batch => rfl

namespace Pool

/-- How many ranges the workers of a pool take at most once it is told to stop. -/
def mayTake (pool : Pool) : Nat := total Worker.mayTake pool.workers

theorem mayTake_put_le {i : Nat} {w v : Worker} (hi : pool.workers[i]? = some w)
    (hv : v.mayTake = 0) : (pool.put i v).mayTake ≤ pool.mayTake := by
  have hset := total_set Worker.mayTake v _ _ _ hi
  simp only [mayTake, put]
  omega

/-- **A pool that is told to stop** has no worker that comes to look into the queue. -/
theorem Step.length_taken_le (h : pool.Step p closing move next)
    (hstop : pool.quit = true ∨ closing = true) :
    move.taken.length + next.mayTake ≤ pool.mayTake := by
  rw [Nat.add_comm]
  cases h with
  | look _ _ hquit hclosing =>
    rw [hquit, hclosing] at hstop
    exact absurd hstop (by decide)
  | @take i range rest hi =>
    have hset := total_set Worker.mayTake (.reading range) _ _ _ hi
    exact Nat.le_of_eq hset
  | sleep hi => exact mayTake_put_le hi rfl
  | read hi => exact mayTake_put_le hi (Worker.mayTake_goOn _ _)
  | write hi => exact mayTake_put_le hi (Worker.mayTake_telling _ _)
  | tell hi => exact mayTake_put_le hi (Worker.mayTake_telling _ _)
  | exit hi => exact mayTake_put_le hi rfl
  | _ => exact Nat.le_refl _

end Pool

/-- A pool that is told to stop takes no more than its workers were about to take. -/
theorem Engine.length_taken_le {e after : Engine} {later : List Event} {i : Nat}
    (hrun : e.run? later = some after) (hpool : e.pools[i]? = some pool)
    (hstop : pool.quit = true ∨ e.closing.stops = true) :
    ((movesOf i later).flatMap (·.taken)).length ≤ pool.mayTake := by
  induction later generalizing e pool with
  | nil => exact Nat.zero_le _
  | cons event later ih =>
    obtain ⟨between, hstep, hrest⟩ := Option.bind_eq_some_iff.mp hrun
    have hstops := stops_of_step hstep
    rw [movesOf, List.flatMap_cons, List.flatMap_append, List.length_append]
    rcases pool_of_step hstep i with ⟨hm, heq⟩ | ⟨-, rfl, -⟩ | ⟨move, _, next, rfl, hi, hi', hmove⟩
    · rw [hm, List.flatMap_nil, List.length_nil, Nat.zero_add]
      exact ih hrest (heq.trans hpool) (hstop.imp_right hstops)
    · rw [List.getElem?_eq_none (Nat.le_refl _)] at hpool
      cases hpool
    · cases hpool.symm.trans hi
      rw [Event.moveOf, if_pos rfl, List.flatMap_singleton]
      have hrest := ih hrest hi' (hstop.imp hmove.quit_mono hstops)
      have hfirst := hmove.length_taken_le hstop
      exact (Nat.add_le_add_left hrest _).trans hfirst

/-! ### Pools of an engine -/

namespace Engine

/-- **A pool of any number of workers does the work of one worker**, in every run of its engine:
with its workers, its owner, the closing of the engine and other pools in any order, where each read
and write of the pool is answered as the endpoints answer it. A pool that is done and was never told
to stop before its source had ended and its queue was empty has taken all ranges. Nothing that
happens elsewhere changes the pool. Once it is told to stop, it takes no more ranges than it has
workers that are just about to look into the queue then. -/
theorem pool_work {e : Engine} {events : List Event} {i : Nat}
    (hrun : (fresh p).run? events = some e) (hpool : e.pools[i]? = some pool)
    (hf : ∀ move ∈ movesOf i events, move.Follows ends pool.table) :
    pool.Ledger ends p (movesOf i events) ∧
      (pool.done = true → NeverStoppedEarly p events i →
        (movesOf i events).flatMap (·.taken) = (movesOf i events).flatMap (·.sent)) ∧
      (∀ event after, e.step event = some after → event.moveOf i = [] →
        after.pools[i]? = some pool) ∧
      (pool.quit = true ∨ e.closing.stops = true → ∀ later after, e.run? later = some after →
        ((movesOf i later).flatMap (·.taken)).length ≤ pool.mayTake) := by
  have hhist := (history hrun i).2 pool hpool
  refine ⟨hhist.ledger hf, fun hdone hearly => ?_, fun event after hstep hmove => ?_,
    fun hstop later after hlater => length_taken_le hlater hpool hstop⟩
  · have hempty : pool.queue = [] := by
      rcases stop_or_drained hrun hpool (hhist.mem_exited_of_done hdone) with hstop | hdrained
      · exact (hearly events e pool (List.prefix_refl _) hrun hpool hstop).2
      · exact hdrained.2
    rw [hhist.sent, hempty, List.append_nil]
  · rcases pool_of_step hstep i with ⟨-, heq⟩ | ⟨-, rfl, -⟩ | ⟨move, _, _, rfl, -⟩
    · rw [heq, hpool]
    · rw [List.getElem?_eq_none (Nat.le_refl _)] at hpool
      cases hpool
    · rw [Event.moveOf, if_pos rfl] at hmove
      cases hmove

end Engine

/-- Endpoints without rows that fail to read what starts at height 4. -/
def brokenAtFour : Endpoints where
  read t range := if range.start = 4 then .error .cancelled else .ok ⟨t, []⟩
  write _ _ new := .ok new.rows.length
  bounds := .ok (0, 0)
  lastPage _ := .ok 0
  copy _ _ := .ok 0

/-- Two workers take a range each; the pool is told to stop when nothing is left to take. -/
def twoRanges : List Event :=
  .start .logs none :: [.handOver, .send lowHeights, .send highHeights, .endSource, .look 1,
    .take 1 lowHeights, .look 0, .take 0 highHeights, .quit,
    .read 0 highHeights (.error .cancelled), .read 1 lowHeights (.ok ⟨.logs, []⟩),
    .tell 0 (.failure .cancelled), .exit 1, .exit 0, .finish].map (.pool 0)

theorem twoRanges_work :
    let p : Policy := ⟨2, [], false⟩
    let ranges := [lowHeights, highHeights]
    ∃ e pool, (Engine.fresh p).run? twoRanges = some e ∧ e.pools[0]? = some pool ∧
      pool.done = true ∧ (movesOf 0 twoRanges).flatMap (·.sent) = ranges ∧
      (movesOf 0 twoRanges).flatMap (·.taken) = ranges ∧
      ((movesOf 0 twoRanges).flatMap (·.effects)).Perm
        (ranges.flatMap (rangeEffects brokenAtFour p .logs)) := by
  have hf : ∀ move ∈ movesOf 0 twoRanges, move.Follows brokenAtFour .logs := by
    simp [movesOf, twoRanges, Event.moveOf, PoolMove.Follows, brokenAtFour, lowHeights, highHeights]
  have hearly : Engine.NeverStoppedEarly ⟨2, [], false⟩ twoRanges 0 := by decide +kernel
  have hrun : (Engine.fresh ⟨2, [], false⟩).run? twoRanges = some _ := rfl
  obtain ⟨hledger, htaken, -⟩ := Engine.pool_work (i := 0) hrun rfl hf
  exact ⟨_, _, rfl, rfl, rfl, rfl, htaken rfl hearly, hledger.perm rfl⟩

end ChainMigration
