import ChainMigration.Engine.Progress

/-! # One order of events

`Engine.next?` picks the next thing that workers and copiers do by themselves: the first worker that
can go on goes on, as far as it can, and pools come before transfers. Calls that are under way are
answered by `Replies`; a call that has to wait holds up its worker alone. Main statement:
`Engine.addsWork_of_next?`, what is picked adds no work, so picking comes to an end. -/

namespace ChainMigration

/-- How calls that are under way are answered; none while a call has to wait. -/
structure Replies where
  /-- The answer to the read of a worker of a pool. -/
  rows : (pool worker : Nat) → Table → BlockRange → Option (Except MigrationError OldRows)
  written : Table → BlockRange → NewRows → Except MigrationError Nat
  copied : String → BlockRange → Option (Except MigrationError Nat)

/-- Endpoints that let no call wait. -/
def Endpoints.replies (ends : Endpoints) : Replies :=
  ⟨fun _ _ t range => some (ends.read t range), ends.write,
    fun name pages => some (ends.copy name pages)⟩

/-- What a worker does next by itself, where `index` and `i` tell which one it is. -/
def Pool.workerMove? (r : Replies) (closing : Bool) (index : Nat) (pool : Pool) (i : Nat) :
    Worker → Option PoolMove
  | .idle => some (if pool.quit || closing then .exit i else .look i)
  | .poised =>
    match pool.queue with
    | range :: _ => some (.take i range)
    | [] => some (if pool.ended then .exit i else .sleep i)
  | .asleep =>
    if pool.quit || closing then some (.exit i)
    else if pool.wakes then some (.look i) else none
  | .reading range => (r.rows index i pool.table range).map (.read i range)
  | .writing range upgraded =>
    some (.write i range upgraded.rows (r.written pool.table range upgraded.rows))
  | .reporting _ (notice :: _) => some (.tell i notice)
  | .reporting _ [] | .exited => none

/-- What the first worker that can go on does next, counting workers from `i`. -/
def Pool.firstMove? (r : Replies) (closing : Bool) (index : Nat) (pool : Pool) (i : Nat) :
    List Worker → Option PoolMove
  | [] => none
  | w :: ws =>
    match pool.workerMove? r closing index i w with
    | some move => some move
    | none => pool.firstMove? r closing index (i + 1) ws

/-- What happens next in a pool by itself. -/
def Pool.next? (r : Replies) (closing : Bool) (index : Nat) (pool : Pool) : Option PoolMove :=
  match pool.firstMove? r closing index 0 pool.workers with
  | some move => some move
  | none =>
    if !pool.handedOver then some .handOver
    else if pool.exited && !pool.done then some .finish else none

/-- What happens next in a transfer by itself. -/
def PageCopy.next? (r : Replies) (closing : Bool) (c : PageCopy) : Option CopyMove :=
  match c.copier with
  | .idle =>
    match c.queue with
    | _ :: _ => some (if closing then .exit else .look)
    | [] => some .exit
  | .poised => c.queue.head?.map .start
  | .copying pages => (r.copied c.table pages).map (.copied pages)
  | .failing reason => some (.tell reason)
  | .exited =>
    if c.sending then some .letGo else if c.done then none else some .finish

namespace Engine

/-- What happens next in the first pool that can go on, counting pools from `i`. -/
def poolEvent? (r : Replies) (closing : Bool) (i : Nat) : List Pool → Option Event
  | [] => none
  | pool :: pools =>
    match pool.next? r closing i with
    | some move => some (.pool i move)
    | none => poolEvent? r closing (i + 1) pools

/-- What happens next in the first transfer that can go on, counting transfers from `i`. -/
def transferEvent? (r : Replies) (closing : Bool) (i : Nat) : List PageCopy → Option Event
  | [] => none
  | c :: cs =>
    match c.next? r closing with
    | some move => some (.transfer i move)
    | none => transferEvent? r closing (i + 1) cs

/-- What happens next in an engine by itself; none if it is at rest or all its calls have to wait.
-/
def next? (r : Replies) (e : Engine) : Option Event :=
  (poolEvent? r e.closing.stops 0 e.pools).or <|
    (transferEvent? r e.closing.stops 0 e.transfers).or <|
      match e.closing with
      | .waiting tasks => if tasks.all e.isDone then some .shut else none
      | _ => none

/-! ### Calls of the owner -/

/-- The engine after events that may or may not be possible; those that are not change nothing. -/
def after (e : Engine) (events : List Event) : Engine :=
  events.foldl (fun e event => (e.step event).getD e) e

/-- Starts a pool, hands it over and registers it; its number comes with the engine. -/
def migrate (e : Engine) (t : Table) (capacity : Option Nat) : Nat × Engine :=
  let index := e.pools.length
  (index, e.after [.start t capacity, .pool index .handOver, .register (.pool index)])

/-- Starts a transfer of segments and registers it; its number comes with the engine. -/
def transfer (e : Engine) (name : String) (segments : List BlockRange) : Nat × Engine :=
  (e.transfers.length,
    e.after [.startTransfer name segments, .register (.transfer e.transfers.length)])

/-- Closes an engine where its end can be awaited. A second close changes nothing. -/
def close (e : Engine) : Engine := e.after [.mark, .signal, .collect true]

/-- What the owner of a pool does. -/
def order (e : Engine) (i : Nat) (move : PoolMove) : Engine := e.after [.pool i move]

end Engine

/-! ### What is picked adds no work -/

theorem Pool.workerMove?_ne_send {r : Replies} {closing : Bool} {index : Nat} {pool : Pool}
    {i : Nat} {w : Worker} {range : BlockRange} :
    pool.workerMove? r closing index i w ≠ some (.send range) := by
  unfold workerMove?
  split <;> try split
  all_goals try split
  all_goals simp

theorem Pool.firstMove?_ne_send {r : Replies} {closing : Bool} {index : Nat} {pool : Pool}
    {range : BlockRange} : ∀ {ws : List Worker} {i : Nat},
      pool.firstMove? r closing index i ws ≠ some (.send range)
  | [], _ => by simp [firstMove?]
  | w :: ws, i => by
    simp only [firstMove?]
    split
    · next move h =>
      intro heq
      exact workerMove?_ne_send (h.trans heq)
    · exact firstMove?_ne_send

theorem Pool.next?_ne_send {r : Replies} {closing : Bool} {index : Nat} {pool : Pool}
    {range : BlockRange} : pool.next? r closing index ≠ some (.send range) := by
  unfold next?
  split
  · next move h =>
    intro heq
    exact firstMove?_ne_send (h.trans heq)
  · split <;> simp

theorem Engine.addsWork_of_poolEvent? {r : Replies} {closing : Bool} {event : Event} :
    ∀ {pools : List Pool} {i : Nat}, poolEvent? r closing i pools = some event →
      event.addsWork = false
  | [], _, h => by simp [poolEvent?] at h
  | pool :: pools, i, h => by
    simp only [poolEvent?] at h
    split at h
    · next move hmove =>
      simp only [Option.some.injEq] at h
      subst h
      cases move with
      | send range => exact absurd hmove Pool.next?_ne_send
      | _ => rfl
    · exact addsWork_of_poolEvent? h

theorem Engine.addsWork_of_transferEvent? {r : Replies} {closing : Bool} {event : Event} :
    ∀ {cs : List PageCopy} {i : Nat}, transferEvent? r closing i cs = some event →
      event.addsWork = false
  | [], _, h => by simp [transferEvent?] at h
  | c :: cs, i, h => by
    simp only [transferEvent?] at h
    split at h
    · simp only [Option.some.injEq] at h
      subst h
      rfl
    · exact addsWork_of_transferEvent? h

theorem Engine.addsWork_of_next? {r : Replies} {e : Engine} {event : Event}
    (h : e.next? r = some event) : event.addsWork = false := by
  simp only [next?, Option.or_eq_some_iff] at h
  rcases h with h | ⟨-, h | ⟨-, h⟩⟩
  · exact addsWork_of_poolEvent? h
  · exact addsWork_of_transferEvent? h
  · split at h
    · split at h
      · cases h; rfl
      · simp at h
    · simp at h

end ChainMigration
