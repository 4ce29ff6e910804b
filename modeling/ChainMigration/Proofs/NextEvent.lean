import ChainMigration.Proofs.CopyHistory
import ChainMigration.Run.Migration

/-! # What happens next

`Engine.next?` looks for the first worker or copier that can go on. What it finds can happen
(`Engine.possible_of_next?`). If it finds nothing although no call has to wait, then every worker of
every pool has exited or waits for a range that may still come (`Engine.rests_of_next?`). -/

namespace ChainMigration

variable {r : Replies} {ends : Endpoints} {p : Policy} {closing : Bool} {index i : Nat}
  {pool next : Pool} {move : PoolMove} {moves : List PoolMove} {c : PageCopy} {copyMove : CopyMove}
  {e : Engine} {event : Event}

/-- Someone stops a pool or closes the engine. -/
def Event.isOrder : Event → Bool
  | .pool _ .quit | .mark | .signal | .collect _ => true
  | _ => false

/-- The event is up to the workers and copiers of an engine. -/
def Event.isOwn (event : Event) : Bool := event.isFree && !event.isOrder

theorem Engine.stops_of_not_isOrder {after : Engine} (h : e.step event = some after)
    (horder : event.isOrder = false) (hstops : e.closing.stops = false) :
    after.closing.stops = false := by
  cases Step.of_step h with
  | mark | signal | collect => cases horder
  | shut hclosing =>
    rw [hclosing] at hstops
    cases hstops
  | _ => exact hstops

/-! ### The first that can go on -/

section FindSome

variable {α β : Type} {f : α × Nat → Option β} {l : List α}

theorem exists_of_findSome?_zipIdx {b : β} (h : l.zipIdx.findSome? f = some b) :
    ∃ i a, l[i]? = some a ∧ f (a, i) = some b := by
  obtain ⟨⟨a, i⟩, hmem, hf⟩ := List.exists_of_findSome?_eq_some h
  exact ⟨i, a, List.mem_zipIdx_iff_getElem?.mp hmem, hf⟩

theorem eq_none_of_findSome?_zipIdx (h : l.zipIdx.findSome? f = none) {a : α} {i : Nat}
    (hi : l[i]? = some a) : f (a, i) = none :=
  List.findSome?_eq_none_iff.mp h (a, i) (List.mem_zipIdx_iff_getElem?.mpr hi)

end FindSome

theorem Pool.firstMove?_eq (r : Replies) (closing : Bool) (index : Nat) (pool : Pool) :
    ∀ (ws : List Worker) (i : Nat), pool.firstMove? r closing index i ws =
      (ws.zipIdx i).findSome? fun x => pool.workerMove? r closing index x.2 x.1
  | [], _ => rfl
  | w :: ws, i => by
    rw [firstMove?, List.zipIdx_cons, List.findSome?_cons]
    cases pool.workerMove? r closing index i w with
    | some move => rfl
    | none => exact firstMove?_eq r closing index pool ws (i + 1)

theorem Engine.poolEvent?_eq (r : Replies) (closing : Bool) :
    ∀ (pools : List Pool) (i : Nat), poolEvent? r closing i pools =
      (pools.zipIdx i).findSome? fun x => (x.1.next? r closing x.2).map (.pool x.2)
  | [], _ => rfl
  | pool :: pools, i => by
    rw [poolEvent?, List.zipIdx_cons, List.findSome?_cons]
    cases pool.next? r closing i with
    | some move => rfl
    | none => exact poolEvent?_eq r closing pools (i + 1)

theorem Engine.transferEvent?_eq (r : Replies) (closing : Bool) :
    ∀ (cs : List PageCopy) (i : Nat), transferEvent? r closing i cs =
      (cs.zipIdx i).findSome? fun x => (x.1.next? r closing).map (.transfer x.2)
  | [], _ => rfl
  | c :: cs, i => by
    rw [transferEvent?, List.zipIdx_cons, List.findSome?_cons]
    cases c.next? r closing with
    | some move => rfl
    | none => exact transferEvent?_eq r closing cs (i + 1)

/-! ### What is found can happen -/

theorem Pool.possible_of_workerMove? {w : Worker} (hw : pool.workers[i]? = some w)
    (h : pool.workerMove? r closing index i w = some move) :
    (∃ next, pool.step p closing move = some next) ∧ (Event.pool index move).isOwn = true := by
  cases w with
  | idle =>
    rw [workerMove?] at h
    split at h
    · next hstop =>
      cases h
      exact ⟨⟨_, if_pos (Or.inl ⟨Or.inl hw, hstop⟩)⟩, rfl⟩
    · next hstop =>
      cases h
      refine ⟨⟨_, if_pos ⟨Or.inl hw, ?_⟩⟩, rfl⟩
      rw [Bool.eq_false_iff.mpr hstop]
      rfl
  | poised =>
    rw [workerMove?] at h
    split at h
    · next range rest hqueue =>
      cases h
      refine ⟨⟨{ pool with queue := rest }.put i (.reading range), ?_⟩, rfl⟩
      rw [step, hw, hqueue]
      exact if_pos rfl
    · next hqueue =>
      split at h
      · next hended =>
        cases h
        exact ⟨⟨_, if_pos (Or.inr ⟨hw, hended, hqueue⟩)⟩, rfl⟩
      · next hended =>
        cases h
        refine ⟨⟨_, if_pos ⟨hw, ?_⟩⟩, rfl⟩
        rw [wakes, hqueue, Bool.eq_false_iff.mpr hended]
        rfl
  | asleep =>
    rw [workerMove?] at h
    split at h
    · next hstop =>
      cases h
      exact ⟨⟨_, if_pos (Or.inl ⟨Or.inr hw, hstop⟩)⟩, rfl⟩
    · next hstop =>
      obtain ⟨hwakes, ⟨⟩⟩ := Option.ite_none_right_eq_some.mp h
      refine ⟨⟨_, if_pos ⟨Or.inr ⟨hw, hwakes⟩, ?_⟩⟩, rfl⟩
      rw [Bool.eq_false_iff.mpr hstop]
      rfl
  | reading range =>
    obtain ⟨answer, -, rfl⟩ := Option.map_eq_some_iff.mp h
    exact ⟨⟨_, if_pos hw⟩, rfl⟩
  | writing range upgraded =>
    cases h
    refine ⟨⟨pool.put i (.telling range
      (afterWrite range upgraded (r.written pool.table range upgraded.rows))), ?_⟩, rfl⟩
    rw [step, hw]
    exact if_pos ⟨rfl, rfl⟩
  | reporting range notices =>
    cases notices with
    | nil => cases h
    | cons notice rest =>
      cases h
      refine ⟨⟨(pool.put i (.telling range rest)).post notice, ?_⟩, rfl⟩
      rw [step, hw]
      exact if_pos rfl
  | exited => cases h

theorem Pool.possible_of_next? (h : pool.next? r closing index = some move) :
    (∃ next, pool.step p closing move = some next) ∧ (Event.pool index move).isOwn = true := by
  rw [next?, firstMove?_eq] at h
  split at h
  · next found hfound =>
    cases h
    obtain ⟨i, w, hw, hmove⟩ := exists_of_findSome?_zipIdx hfound
    exact possible_of_workerMove? hw hmove
  · split at h
    · next hheld =>
      cases h
      rw [Bool.not_eq_true'] at hheld
      exact ⟨⟨_, if_neg (Bool.eq_false_iff.mp hheld)⟩, rfl⟩
    · next hheld =>
      obtain ⟨hfinish, ⟨⟩⟩ := Option.ite_none_right_eq_some.mp h
      rw [Bool.not_eq_true', Bool.not_eq_false] at hheld
      rw [Bool.and_eq_true] at hfinish
      refine ⟨⟨_, if_pos ?_⟩, rfl⟩
      rw [hfinish.1, hheld, hfinish.2]
      rfl

theorem PageCopy.possible_of_next? (h : c.next? r closing = some copyMove) (i : Nat) :
    (∃ next, c.step closing copyMove = some next) ∧
      (Event.transfer i copyMove).isOwn = true := by
  rw [next?] at h
  split at h
  · next hc =>
    split at h
    · next pages rest hqueue =>
      cases h
      split
      · next hclosing => exact ⟨⟨_, if_pos ⟨hc, Or.inl hclosing⟩⟩, rfl⟩
      · next hclosing =>
        refine ⟨⟨_, if_pos ⟨hc, ?_, ?_⟩⟩, rfl⟩
        · rw [hqueue]
          exact List.cons_ne_nil _ _
        · rw [Bool.eq_false_iff.mpr hclosing]
          rfl
    · next hqueue =>
      cases h
      exact ⟨⟨_, if_pos ⟨hc, Or.inr hqueue⟩⟩, rfl⟩
  · next hc =>
    obtain ⟨pages, hpages, rfl⟩ := Option.map_eq_some_iff.mp h
    obtain ⟨rest, hqueue⟩ := List.head?_eq_some_iff.mp hpages
    refine ⟨⟨{ c with queue := rest, copier := .copying pages }, ?_⟩, rfl⟩
    rw [step, hc, hqueue]
    exact if_pos rfl
  · next pages hc =>
    obtain ⟨answer, -, rfl⟩ := Option.map_eq_some_iff.mp h
    refine ⟨?_, rfl⟩
    cases answer with
    | ok count => exact ⟨_, if_pos hc⟩
    | error reason => exact ⟨_, if_pos hc⟩
  · next reason hc =>
    cases h
    exact ⟨⟨_, if_pos hc⟩, rfl⟩
  · next hc =>
    have hexited : c.exited = true := decide_eq_true hc
    split at h
    · next hsending =>
      cases h
      refine ⟨⟨_, if_pos ?_⟩, rfl⟩
      rw [hexited, hsending]
      rfl
    · next hsending =>
      obtain ⟨hdone, ⟨⟩⟩ := Option.ite_none_left_eq_some.mp h
      refine ⟨⟨_, if_pos ?_⟩, rfl⟩
      rw [hexited, Bool.eq_false_iff.mpr hsending, Bool.eq_false_iff.mpr hdone]
      rfl

/-- **What is found can happen**, and it is up to a worker or a copier. -/
theorem Engine.possible_of_next? (h : e.next? r = some event) :
    (∃ after, e.step event = some after) ∧ event.isOwn = true := by
  rw [next?, Option.or_eq_some_iff, Option.or_eq_some_iff, poolEvent?_eq, transferEvent?_eq] at h
  rcases h with h | ⟨-, h | ⟨-, h⟩⟩
  · obtain ⟨i, pool, hi, hmap⟩ := exists_of_findSome?_zipIdx h
    obtain ⟨move, hmove, rfl⟩ := Option.map_eq_some_iff.mp hmap
    obtain ⟨⟨next, hstep⟩, hown⟩ := Pool.possible_of_next? (p := e.policy) hmove
    refine ⟨⟨{ e with pools := e.pools.set i next }, ?_⟩, hown⟩
    rw [step, hi]
    exact congrArg (Option.map _) hstep
  · obtain ⟨i, c, hi, hmap⟩ := exists_of_findSome?_zipIdx h
    obtain ⟨move, hmove, rfl⟩ := Option.map_eq_some_iff.mp hmap
    obtain ⟨⟨next, hstep⟩, hown⟩ := PageCopy.possible_of_next? hmove i
    refine ⟨⟨{ e with transfers := e.transfers.set i next }, ?_⟩, hown⟩
    rw [step, hi]
    exact congrArg (Option.map _) hstep
  · split at h
    · next tasks hclosing =>
      obtain ⟨hdone, ⟨⟩⟩ := Option.ite_none_right_eq_some.mp h
      refine ⟨⟨{ e with closing := .shut }, ?_⟩, rfl⟩
      rw [step, hclosing]
      exact if_pos hdone
    · cases h

/-! ### Where nothing is found -/

namespace Worker

theorem telling_ne_silent (range range' : BlockRange) (notices : List Notice) :
    telling range notices ≠ reporting range' [] := by
  cases notices <;> exact nofun

theorem goOn_ne_silent (range range' : BlockRange) (a : AfterRead) :
    goOn range a ≠ reporting range' [] := by
  cases a with
  | finished notices => exact telling_ne_silent range range' notices
  | batch => exact nofun

end Worker

/-- A worker that reports has something left to tell. -/
theorem Pool.History.not_mem_silent (h : pool.History p moves) (range : BlockRange) :
    .reporting range [] ∉ pool.workers := by
  induction h with
  | fresh =>
    intro hmem
    cases List.eq_of_mem_replicate hmem
  | @move moves pool next closing move _ h ih =>
    have hset : ∀ {i : Nat} {w : Worker}, w ≠ .reporting range [] →
        .reporting range [] ∉ pool.workers.set i w := by
      intro i w hw hmem
      rcases List.mem_or_eq_of_mem_set hmem with hmem | heq
      · exact ih hmem
      · exact hw heq.symm
    cases h with
    | look => exact hset nofun
    | take => exact hset nofun
    | sleep => exact hset nofun
    | read => exact hset (Worker.goOn_ne_silent _ _ _)
    | write => exact hset (Worker.telling_ne_silent _ _ _)
    | tell => exact hset (Worker.telling_ne_silent _ _ _)
    | exit => exact hset nofun
    | _ => exact ih

/-- The workers of a pool have nothing to do: each has exited or waits for a range that may still
come. If all have exited, everyone knows. -/
structure Pool.Rests (pool : Pool) : Prop where
  waits : ∀ w ∈ pool.workers, w ≠ .exited → pool.queue = [] ∧ pool.ended = false
  done : pool.exited = true → pool.done = true

/-- **A pool in which nothing is found rests**, if no call has to wait. -/
theorem Pool.rests_of_next? (hsilent : ∀ range, .reporting range [] ∉ pool.workers)
    (h : pool.next? ends.replies closing index = none) : pool.Rests := by
  rw [next?, firstMove?_eq] at h
  split at h
  · cases h
  · next hnone =>
    refine ⟨fun w hmem hw => ?_, fun hexited => ?_⟩
    · obtain ⟨i, hi⟩ := List.mem_iff_getElem?.mp hmem
      have hmove := eq_none_of_findSome?_zipIdx hnone hi
      cases w with
      | idle | reading | writing => cases hmove
      | poised =>
        dsimp only [workerMove?] at hmove
        split at hmove <;> cases hmove
      | asleep =>
        dsimp only [workerMove?] at hmove
        split at hmove
        · cases hmove
        · split at hmove
          · cases hmove
          · next hwakes =>
            rw [Bool.not_eq_true, Pool.wakes, Bool.or_eq_false_iff, Bool.not_eq_false',
              List.isEmpty_iff] at hwakes
            exact hwakes
      | reporting range notices =>
        cases notices with
        | nil => exact absurd hmem (hsilent range)
        | cons => cases hmove
      | exited => exact absurd rfl hw
    · by_contra hdone
      split at h
      · cases h
      · rw [hexited, Bool.eq_false_iff.mpr hdone] at h
        cases h

/-- **Where nothing is found, every pool rests.** -/
theorem Engine.rests_of_next? (he : e.Reachable) (h : e.next? ends.replies = none)
    (hi : e.pools[i]? = some pool) : pool.Rests := by
  obtain ⟨p, events, hrun⟩ := he
  rw [next?, Option.or_eq_none_iff, poolEvent?_eq] at h
  have hpool := eq_none_of_findSome?_zipIdx h.1 hi
  exact Pool.rests_of_next? ((history hrun i).2 pool hi).not_mem_silent
    (Option.map_eq_none_iff.mp hpool)

end ChainMigration
