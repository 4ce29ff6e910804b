import ChainMigration.Engine.Rehearsal
import ChainMigration.Proofs.Except
import ChainMigration.Proofs.NextEvent

/-! # Rehearsals are runs

Whatever a rehearsal plays is a run of its engine: the orders of the owner, what the engine does by
itself and what is received in the end are events, one after the other. A scene shows the acts of
the events since the scene before it, and of each pool and transfer what was received in these
events (`Rehearsal.Scene.Shows`); nothing is left in the channels. So what is proved of all runs is
true of what is rehearsed. Main statements: `Rehearsal.shown_scenes`,
`Rehearsal.shown_transferScenes`. -/

namespace ChainMigration

variable {e between after : Engine} {events first more : List Event} {i : Nat} {pool : Pool}
  {c : PageCopy}

/-! ### Events that do not show -/

/-- Something is received from a pool. -/
def PoolMove.isReceipt : PoolMove → Bool
  | receiveReadGap _ | receiveWriteGap _ | receiveFailure _ => true
  | _ => false

/-- Something is received from a transfer. -/
def CopyMove.isReceipt : CopyMove → Bool
  | receiveFailed _ | receiveFailure _ => true
  | _ => false

/-- Something is received. -/
def Event.isReceipt : Event → Bool
  | .pool _ move => move.isReceipt
  | .transfer _ move => move.isReceipt
  | _ => false

/-- The event shows no act. -/
def Event.Silent (event : Event) : Prop := ∀ e : Engine, e.act? event = none

theorem Event.silent_pool {move : PoolMove} (h : ∀ pool : Pool, pool.act? move = none) :
    (Event.pool i move).Silent := by
  intro e
  rw [Engine.act?]
  cases e.pools[i]? with
  | none => rfl
  | some pool => exact h pool

theorem Event.silent_of_isReceipt {event : Event} (h : event.isReceipt = true) : event.Silent := by
  cases event with
  | pool i move =>
    refine silent_pool fun pool => ?_
    cases move <;> first | rfl | cases h
  | transfer i move =>
    intro e
    cases move <;> first | rfl | cases h
  | _ => cases h

theorem Event.isReceipt_of_isOwn {event : Event} (h : event.isOwn = true) :
    event.isReceipt = false := by
  cases event with
  | pool i move => cases move <;> first | rfl | cases h
  | transfer i move => cases move <;> first | rfl | cases h
  | _ => rfl

theorem PoolMove.received_eq_nil {move : PoolMove} (h : move.isReceipt = false) :
    (∀ kind, move.gapReceived kind = []) ∧ move.failureReceived = [] := by
  cases move with
  | receiveReadGap | receiveWriteGap | receiveFailure => cases h
  | _ => exact ⟨fun kind => by cases kind <;> rfl, rfl⟩

theorem CopyMove.received_eq_nil {move : CopyMove} (h : move.isReceipt = false) :
    move.failedReceived = [] ∧ move.failureReceived = [] := by
  cases move with
  | receiveFailed | receiveFailure => cases h
  | _ => exact ⟨rfl, rfl⟩

namespace Engine

/-- The acts that events show. -/
def acts (e : Engine) : List Event → List Act
  | [] => []
  | event :: events => (e.act? event).toList ++ ((e.step event).map (·.acts events)).getD []

theorem acts_append (h : e.run? events = some between) (more : List Event) :
    e.acts (events ++ more) = e.acts events ++ between.acts more := by
  induction events generalizing e with
  | nil =>
    cases h
    rfl
  | cons event events ih =>
    obtain ⟨next, hstep, hrest⟩ := Option.bind_eq_some_iff.mp h
    rw [List.cons_append, acts, acts, hstep, Option.map_some, Option.map_some, Option.getD_some,
      Option.getD_some, ih hrest, List.append_assoc]

theorem acts_eq_nil (h : ∀ event ∈ events, event.Silent) : e.acts events = [] := by
  induction events generalizing e with
  | nil => rfl
  | cons event events ih =>
    obtain ⟨hevent, hrest⟩ := List.forall_mem_cons.mp h
    rw [acts, hevent e]
    cases e.step event with
    | none => rfl
    | some next => exact ih hrest

/-- Of events that may or may not be possible, those that are make up a run. -/
theorem exists_run_after (e : Engine) (events : List Event) :
    ∃ possible, possible.Sublist events ∧ e.run? possible = some (e.after events) := by
  induction events generalizing e with
  | nil => exact ⟨[], .slnil, rfl⟩
  | cons event events ih =>
    rw [after, List.foldl_cons]
    cases hstep : e.step event with
    | none =>
      obtain ⟨possible, hsub, hrun⟩ := ih e
      exact ⟨possible, hsub.cons event, hrun⟩
    | some next =>
      obtain ⟨possible, hsub, hrun⟩ := ih next
      refine ⟨event :: possible, hsub.cons_cons event, ?_⟩
      rw [run?, hstep]
      exact hrun

theorem after_of_run (h : e.run? events = some after) : e.after events = after := by
  induction events generalizing e with
  | nil =>
    cases h
    rfl
  | cons event events ih =>
    obtain ⟨next, hstep, hrest⟩ := Option.bind_eq_some_iff.mp h
    rw [Engine.after, List.foldl_cons, hstep]
    exact ih hrest

end Engine

theorem received_movesOf (h : ∀ event ∈ events, event.isReceipt = false) (i : Nat) :
    (∀ kind, (movesOf i events).flatMap (·.gapReceived kind) = []) ∧
      (movesOf i events).flatMap (·.failureReceived) = [] := by
  have hmoves : ∀ move ∈ movesOf i events, move.isReceipt = false := by
    intro move hmove
    obtain ⟨event, hevent, hmem⟩ := List.mem_flatMap.mp hmove
    have hreceipt := h event hevent
    cases event with
    | pool j m =>
      rw [Event.moveOf] at hmem
      split at hmem
      · rw [List.mem_singleton.mp hmem]
        exact hreceipt
      · cases hmem
    | _ => cases hmem
  exact ⟨fun kind => List.flatMap_eq_nil_iff.mpr fun move hmove =>
      (PoolMove.received_eq_nil (hmoves move hmove)).1 kind,
    List.flatMap_eq_nil_iff.mpr fun move hmove => (PoolMove.received_eq_nil (hmoves move hmove)).2⟩

theorem received_copyMovesOf (h : ∀ event ∈ events, event.isReceipt = false) (i : Nat) :
    (copyMovesOf i events).flatMap (·.failedReceived) = [] ∧
      (copyMovesOf i events).flatMap (·.failureReceived) = [] := by
  have hmoves : ∀ move ∈ copyMovesOf i events, move.isReceipt = false := by
    intro move hmove
    obtain ⟨event, hevent, hmem⟩ := List.mem_flatMap.mp hmove
    have hreceipt := h event hevent
    cases event with
    | transfer j m =>
      rw [Event.copyMoveOf] at hmem
      split at hmem
      · rw [List.mem_singleton.mp hmem]
        exact hreceipt
      · cases hmem
    | _ => cases hmem
  exact ⟨List.flatMap_eq_nil_iff.mpr fun move hmove =>
      (CopyMove.received_eq_nil (hmoves move hmove)).1,
    List.flatMap_eq_nil_iff.mpr fun move hmove => (CopyMove.received_eq_nil (hmoves move hmove)).2⟩

/-! ### What waits in the channels -/

/-- The pool once everything in its channels has been received. -/
def Pool.emptied (pool : Pool) : Pool :=
  { pool with readGaps := [], writeGaps := [], errors := [] }

/-- The transfer once everything in its channels has been received. -/
def PageCopy.emptied (c : PageCopy) : PageCopy := { c with failed := [], errors := [] }

namespace Rehearsal

theorem flatMap_const_nil {α β : Type} (l : List α) : l.flatMap (fun _ => ([] : List β)) = [] :=
  List.flatMap_eq_nil_iff.mpr fun _ _ => rfl

theorem gapReceived_receipts (pool : Pool) (kind : GapKind) :
    (receipts pool).flatMap (·.gapReceived kind) = pool.gapsWaiting kind := by
  cases kind <;>
  simp [receipts, Pool.gapsWaiting, PoolMove.gapReceived, List.flatMap_map, flatMap_const_nil]

theorem failureReceived_receipts (pool : Pool) :
    (receipts pool).flatMap (·.failureReceived) = pool.errors := by
  simp [receipts, PoolMove.failureReceived, List.flatMap_map, flatMap_const_nil]

theorem failedReceived_copyReceipts (c : PageCopy) :
    (copyReceipts c).flatMap (·.failedReceived) = c.failed := by
  simp [copyReceipts, CopyMove.failedReceived, List.flatMap_map]

theorem failureReceived_copyReceipts (c : PageCopy) :
    (copyReceipts c).flatMap (·.failureReceived) = c.errors := by
  simp [copyReceipts, CopyMove.failureReceived, List.flatMap_map]

theorem flatMap_zipIdx_of_place {α β : Type} (f : α → List β) (i : Nat) (l : List α) (k : Nat) :
    ((l.zipIdx k).flatMap fun x => if x.2 = k + i then f x.1 else []) = (l[i]?).elim [] f := by
  induction l generalizing i k with
  | nil => rfl
  | cons a l ih =>
    rw [List.zipIdx_cons, List.flatMap_cons]
    cases i with
    | zero =>
      have hrest : ((l.zipIdx (k + 1)).flatMap fun x => if x.2 = k then f x.1 else []) = [] := by
        refine List.flatMap_eq_nil_iff.mpr fun x hx => if_neg ?_
        have hle := (List.mem_zipIdx hx).1
        omega
      rw [Nat.add_zero, if_pos rfl, hrest, List.append_nil]
      rfl
    | succ i =>
      have hplace : k + (i + 1) = k + 1 + i := by omega
      rw [if_neg (by omega), hplace, ih, List.nil_append]
      rfl

theorem movesOf_allReceipts (hi : e.pools[i]? = some pool) :
    movesOf i (allReceipts e) = receipts pool := by
  have hown : ∀ x : Pool × Nat, ((receipts x.1).map (Event.pool x.2)).flatMap (·.moveOf i) =
      if x.2 = 0 + i then receipts x.1 else [] := by
    intro x
    rw [List.flatMap_map, Nat.zero_add]
    simp only [Event.moveOf]
    split <;> simp
  have hother : ∀ x : PageCopy × Nat,
      ((copyReceipts x.1).map (Event.transfer x.2)).flatMap (·.moveOf i) = [] := by
    intro x
    rw [List.flatMap_map]
    exact flatMap_const_nil _
  rw [movesOf, allReceipts, List.flatMap_append, List.flatMap_assoc, List.flatMap_assoc]
  simp only [hown, hother, flatMap_const_nil, List.append_nil]
  rw [flatMap_zipIdx_of_place, hi]
  rfl

theorem copyMovesOf_allReceipts (hi : e.transfers[i]? = some c) :
    copyMovesOf i (allReceipts e) = copyReceipts c := by
  have hown : ∀ x : PageCopy × Nat,
      ((copyReceipts x.1).map (Event.transfer x.2)).flatMap (·.copyMoveOf i) =
        if x.2 = 0 + i then copyReceipts x.1 else [] := by
    intro x
    rw [List.flatMap_map, Nat.zero_add]
    simp only [Event.copyMoveOf]
    split <;> simp
  have hother : ∀ x : Pool × Nat,
      ((receipts x.1).map (Event.pool x.2)).flatMap (·.copyMoveOf i) = [] := by
    intro x
    rw [List.flatMap_map]
    exact flatMap_const_nil _
  rw [copyMovesOf, allReceipts, List.flatMap_append, List.flatMap_assoc, List.flatMap_assoc]
  simp only [hown, hother, flatMap_const_nil, List.nil_append]
  rw [flatMap_zipIdx_of_place, hi]
  rfl

theorem run_receive {α : Type} (put : List α → Engine) (event : α → Event)
    (hstep : ∀ a rest, (put (a :: rest)).step (event a) = some (put rest)) (l : List α) :
    (put l).run? (l.map event) = some (put []) := by
  induction l with
  | nil => rfl
  | cons a l ih =>
    rw [List.map_cons, Engine.run?, hstep, Option.bind_some]
    exact ih

theorem step_pool_set {next : Pool} {move : PoolMove} (hlt : i < e.pools.length)
    (h : ∀ p closing, pool.step p closing move = some next) :
    { e with pools := e.pools.set i pool }.step (.pool i move) =
      some { e with pools := e.pools.set i next } := by
  rw [Engine.step, List.getElem?_set_self hlt]
  dsimp only
  rw [h, Option.map_some, List.set_set]

theorem step_transfer_set {next : PageCopy} {move : CopyMove} (hlt : i < e.transfers.length)
    (h : ∀ closing, c.step closing move = some next) :
    { e with transfers := e.transfers.set i c }.step (.transfer i move) =
      some { e with transfers := e.transfers.set i next } := by
  rw [Engine.step, List.getElem?_set_self hlt]
  dsimp only
  rw [h, Option.map_some, List.set_set]

theorem run_receipts (hi : e.pools[i]? = some pool) :
    e.run? ((receipts pool).map (.pool i)) =
      some { e with pools := e.pools.set i pool.emptied } := by
  obtain ⟨hlt, heq⟩ := List.getElem?_eq_some_iff.mp hi
  have hread := run_receive
    (fun gaps => { e with pools := e.pools.set i { pool with readGaps := gaps } })
    (fun gap => .pool i (.receiveReadGap gap))
    (fun _ _ => step_pool_set hlt fun _ _ => if_pos rfl) pool.readGaps
  have hwrite := run_receive
    (fun gaps => { e with pools := e.pools.set i { pool with readGaps := [], writeGaps := gaps } })
    (fun gap => .pool i (.receiveWriteGap gap))
    (fun _ _ => step_pool_set hlt fun _ _ => if_pos rfl) pool.writeGaps
  have herrors := run_receive
    (fun errors => { e with
      pools := e.pools.set i { pool with readGaps := [], writeGaps := [], errors } })
    (fun reason => .pool i (.receiveFailure reason))
    (fun _ _ => step_pool_set hlt fun _ _ => if_pos rfl) pool.errors
  rw [← heq, List.set_getElem_self, heq] at hread
  rw [receipts, List.map_append, List.map_append, List.map_map, List.map_map, List.map_map,
    Engine.run?_append, Engine.run?_append]
  exact Option.bind_eq_some_iff.mpr ⟨_, Option.bind_eq_some_iff.mpr ⟨_, hread, hwrite⟩, herrors⟩

theorem run_copyReceipts (hi : e.transfers[i]? = some c) :
    e.run? ((copyReceipts c).map (.transfer i)) =
      some { e with transfers := e.transfers.set i c.emptied } := by
  obtain ⟨hlt, heq⟩ := List.getElem?_eq_some_iff.mp hi
  have hfailed := run_receive
    (fun failed => { e with transfers := e.transfers.set i { c with failed } })
    (fun pages => .transfer i (.receiveFailed pages))
    (fun _ _ => step_transfer_set hlt fun _ => if_pos rfl) c.failed
  have herrors := run_receive
    (fun errors => { e with transfers := e.transfers.set i { c with failed := [], errors } })
    (fun reason => .transfer i (.receiveFailure reason))
    (fun _ _ => step_transfer_set hlt fun _ => if_pos rfl) c.errors
  rw [← heq, List.set_getElem_self, heq] at hfailed
  rw [copyReceipts, List.map_append, List.map_map, List.map_map, Engine.run?_append]
  exact Option.bind_eq_some_iff.mpr ⟨_, hfailed, herrors⟩

/-- What can be done with each entry of a list in an engine can be done with all of them in order.
-/
theorem run_each {α : Type} (put : List α → Engine) (events : α → Nat → List Event)
    (emptied : α → α)
    (hone : ∀ l i a, l[i]? = some a → (put l).run? (events a i) = some (put (l.set i (emptied a))))
    (rest before : List α) :
    (put (before ++ rest)).run? ((rest.zipIdx before.length).flatMap fun x => events x.1 x.2) =
      some (put (before ++ rest.map emptied)) := by
  induction rest generalizing before with
  | nil => rfl
  | cons a rest ih =>
    have hi : (before ++ a :: rest)[before.length]? = some a := by
      rw [List.getElem?_append_right (Nat.le_refl _), Nat.sub_self]
      rfl
    have hset : (before ++ a :: rest).set before.length (emptied a) =
        before ++ [emptied a] ++ rest := by
      rw [List.set_append_right _ _ (Nat.le_refl _), Nat.sub_self, List.set_cons_zero,
        List.append_cons]
    have hrest := ih (before ++ [emptied a])
    rw [List.length_append, List.length_singleton] at hrest
    rw [List.zipIdx_cons, List.flatMap_cons, Engine.run?_append, hone _ _ a hi, Option.bind_some,
      hset, hrest, List.map_cons, List.append_assoc, List.singleton_append]

/-- **All that waits in the channels can be received**, and nothing else changes. -/
theorem run_allReceipts (e : Engine) :
    e.run? (allReceipts e) = some { e with
      pools := e.pools.map Pool.emptied
      transfers := e.transfers.map PageCopy.emptied } := by
  have hpools := run_each (fun pools => { e with pools })
    (fun pool i => (receipts pool).map (.pool i)) Pool.emptied
    (fun pools _ _ => run_receipts (e := { e with pools })) e.pools []
  have htransfers := run_each
    (fun transfers => { e with pools := e.pools.map Pool.emptied, transfers })
    (fun c i => (copyReceipts c).map (.transfer i)) PageCopy.emptied
    (fun transfers _ _ => run_copyReceipts
      (e := { e with pools := e.pools.map Pool.emptied, transfers })) e.transfers []
  rw [allReceipts, Engine.run?_append]
  exact Option.bind_eq_some_iff.mpr ⟨_, hpools, htransfers⟩

theorem isReceipt_of_mem_allReceipts : ∀ event ∈ allReceipts e, event.isReceipt = true := by
  intro event hevent
  simp only [allReceipts, receipts, copyReceipts, List.mem_append, List.mem_flatMap, List.mem_map]
    at hevent
  rcases hevent with ⟨_, -, _, (⟨_, -, rfl⟩ | ⟨_, -, rfl⟩) | ⟨_, -, rfl⟩, rfl⟩ |
    ⟨_, -, _, ⟨_, -, rfl⟩ | ⟨_, -, rfl⟩, rfl⟩ <;> rfl

/-! ### What is played -/

/-- **What a scene shows** of events from one engine to another, when some acts were shown before.
In the end nothing is left in the channels. -/
structure Scene.Shows (scene : Scene) (e : Engine) (shown : List Act) (events : List Event)
    (after : Engine) : Prop where
  run : e.run? events = some after
  acts : scene.acts = shown ++ e.acts events
  closed : scene.closed = after.isClosed
  pools : scene.pools = after.pools.mapIdx fun i pool =>
    let moves := movesOf i events
    ⟨pool.table, pool.done, moves.flatMap (·.gapReceived .read),
      moves.flatMap (·.gapReceived .write), moves.flatMap (·.failureReceived)⟩
  transfers : scene.transfers = after.transfers.mapIdx fun i c =>
    let moves := copyMovesOf i events
    ⟨c.done, moves.flatMap (·.failedReceived), moves.flatMap (·.failureReceived)⟩
  drained : (∀ pool ∈ after.pools, pool.drained = true) ∧
    ∀ c ∈ after.transfers, c.drained = true

/-- **Whatever is left alone goes on by events** of its workers and copiers. -/
theorem exists_run_settle (r : Rehearsal) :
    ∃ events, r.engine.run? events = some r.settle.engine ∧
      r.settle.acts = r.acts ++ r.engine.acts events ∧
      ∀ event ∈ events, event.isReceipt = false := by
  fun_induction settle r with
  | case1 r hnext => exact ⟨[], rfl, (List.append_nil _).symm, List.forall_mem_nil _⟩
  | case2 r event hnext hstep => exact ⟨[], rfl, (List.append_nil _).symm, List.forall_mem_nil _⟩
  | case3 r event hnext engine hstep ih =>
    obtain ⟨events, hrun, hacts, hevents⟩ := ih
    refine ⟨event :: events, ?_, ?_, List.forall_mem_cons.mpr ⟨?_, hevents⟩⟩
    · rw [Engine.run?, hstep]
      exact hrun
    · rw [hacts, Engine.acts, hstep]
      exact List.append_assoc _ _ _
    · exact Event.isReceipt_of_isOwn (Engine.possible_of_next? hnext).2

/-- What is left alone goes on until nothing can happen but the release of a call. -/
theorem next?_settle (r : Rehearsal) : r.settle.engine.next? r.settle.replies = none := by
  fun_induction settle r with
  | case1 r hnext => exact hnext
  | case2 r event hnext hstep =>
    obtain ⟨⟨after, hafter⟩, -⟩ := Engine.possible_of_next? hnext
    cases hstep.symm.trans hafter
  | case3 r event hnext engine hstep ih => exact ih

theorem arrivals_eq (hevents : ∀ event ∈ events, event.isReceipt = false)
    (hi : e.pools[i]? = some pool) :
    let moves := movesOf i (events ++ allReceipts e)
    arrivals pool = ⟨pool.table, pool.done, moves.flatMap (·.gapReceived .read),
      moves.flatMap (·.gapReceived .write), moves.flatMap (·.failureReceived)⟩ := by
  obtain ⟨hgaps, hfailures⟩ := received_movesOf hevents i
  have hmoves : movesOf i (events ++ allReceipts e) = movesOf i events ++ receipts pool := by
    rw [movesOf, List.flatMap_append]
    exact congrArg (movesOf i events ++ ·) (movesOf_allReceipts hi)
  simp only [hmoves, List.flatMap_append, hgaps, hfailures, gapReceived_receipts,
    failureReceived_receipts, List.nil_append]
  rfl

theorem copyArrivals_eq (hevents : ∀ event ∈ events, event.isReceipt = false)
    (hi : e.transfers[i]? = some c) :
    let moves := copyMovesOf i (events ++ allReceipts e)
    copyArrivals c =
      ⟨c.done, moves.flatMap (·.failedReceived), moves.flatMap (·.failureReceived)⟩ := by
  obtain ⟨hfailed, hfailures⟩ := received_copyMovesOf hevents i
  have hmoves : copyMovesOf i (events ++ allReceipts e) =
      copyMovesOf i events ++ copyReceipts c := by
    rw [copyMovesOf, List.flatMap_append]
    exact congrArg (copyMovesOf i events ++ ·) (copyMovesOf_allReceipts hi)
  simp only [hmoves, List.flatMap_append, hfailed, hfailures, failedReceived_copyReceipts,
    failureReceived_copyReceipts, List.nil_append]
  rfl

theorem shows_look (r : Rehearsal) (sent : Option Bool) :
    ∃ events, (r.look sent).1.Shows r.engine r.acts events (r.look sent).2.engine := by
  obtain ⟨events, hrun, hacts, hevents⟩ := r.exists_run_settle
  have hreceived := run_allReceipts r.settle.engine
  have hafter : (r.look sent).2.engine = { r.settle.engine with
      pools := r.settle.engine.pools.map Pool.emptied
      transfers := r.settle.engine.transfers.map PageCopy.emptied } :=
    Engine.after_of_run hreceived
  rw [hafter]
  refine ⟨events ++ allReceipts r.settle.engine, ?_, ?_, rfl, ?_, ?_, ?_⟩
  · rw [Engine.run?_append, hrun]
    exact hreceived
  · rw [Engine.acts_append hrun, Engine.acts_eq_nil fun event hevent =>
      Event.silent_of_isReceipt (isReceipt_of_mem_allReceipts event hevent), List.append_nil]
    exact hacts
  · refine List.ext_getElem? fun i => ?_
    rw [List.getElem?_mapIdx, List.getElem?_map]
    refine List.getElem?_map.trans ?_
    cases hi : r.settle.engine.pools[i]? with
    | none => rfl
    | some pool => exact congrArg some (arrivals_eq hevents hi)
  · refine List.ext_getElem? fun i => ?_
    rw [List.getElem?_mapIdx, List.getElem?_map]
    refine List.getElem?_map.trans ?_
    cases hi : r.settle.engine.transfers[i]? with
    | none => rfl
    | some c => exact congrArg some (copyArrivals_eq hevents hi)
  · exact ⟨List.forall_mem_map.mpr fun _ _ => rfl, List.forall_mem_map.mpr fun _ _ => rfl⟩

theorem Scene.Shows.of_silent {scene : Scene} {shown : List Act}
    (h : scene.Shows between shown more after) (hrun : e.run? first = some between)
    (hsilent : ∀ event ∈ first, event.Silent ∧ event.isReceipt = false) :
    scene.Shows e shown (first ++ more) after := by
  have hreceipts : ∀ event ∈ first, event.isReceipt = false := fun event hevent =>
    (hsilent event hevent).2
  have hmoves : ∀ i, movesOf i (first ++ more) = movesOf i first ++ movesOf i more :=
    fun i => List.flatMap_append
  have hcopies : ∀ i, copyMovesOf i (first ++ more) = copyMovesOf i first ++ copyMovesOf i more :=
    fun i => List.flatMap_append
  refine ⟨?_, ?_, h.closed, ?_, ?_, h.drained⟩
  · rw [Engine.run?_append, hrun]
    exact h.run
  · rw [Engine.acts_append hrun, Engine.acts_eq_nil fun event hevent => (hsilent event hevent).1]
    exact h.acts
  · rw [h.pools]
    simp only [hmoves, List.flatMap_append, (received_movesOf hreceipts _).1,
      (received_movesOf hreceipts _).2, List.nil_append]
  · rw [h.transfers]
    simp only [hcopies, List.flatMap_append, (received_copyMovesOf hreceipts _).1,
      (received_copyMovesOf hreceipts _).2, List.nil_append]

/-- What the owner does is a run that shows nothing. -/
theorem exists_run_after_of_silent (e : Engine) (events : List Event)
    (hsilent : ∀ event ∈ events, event.Silent ∧ event.isReceipt = false) :
    ∃ possible, e.run? possible = some (e.after events) ∧
      ∀ event ∈ possible, event.Silent ∧ event.isReceipt = false := by
  obtain ⟨possible, hsub, hrun⟩ := e.exists_run_after events
  exact ⟨possible, hrun, fun event hevent => hsilent event (hsub.subset hevent)⟩

theorem silent_move {move : PoolMove} (hact : ∀ pool : Pool, pool.act? move = none)
    (hreceipt : move.isReceipt = false) :
    (Event.pool i move).Silent ∧ (Event.pool i move).isReceipt = false :=
  ⟨Event.silent_pool hact, hreceipt⟩

/-- **Orders are events**, as far as they are possible. -/
theorem exists_run_obey (r : Rehearsal) (order : Order) :
    (r.obey order).1.acts = r.acts ∧
      ∃ events, r.engine.run? events = some (r.obey order).1.engine ∧
        ∀ event ∈ events, event.Silent ∧ event.isReceipt = false := by
  have hstay : ∃ events, r.engine.run? events = some r.engine ∧
      ∀ event ∈ events, event.Silent ∧ event.isReceipt = false :=
    ⟨[], rfl, List.forall_mem_nil _⟩
  cases order with
  | start t =>
    refine ⟨rfl, exists_run_after_of_silent _ _ ?_⟩
    simp only [List.forall_mem_cons]
    exact ⟨⟨fun _ => rfl, rfl⟩, silent_move (fun _ => rfl) rfl, ⟨fun _ => rfl, rfl⟩,
      List.forall_mem_nil _⟩
  | send i range script =>
    rw [obey]
    split
    · exact ⟨rfl, exists_run_after_of_silent _ _
        (List.forall_mem_singleton.mpr (silent_move (fun _ => rfl) rfl))⟩
    · exact ⟨rfl, hstay⟩
  | release range =>
    rw [obey, release]
    split <;> exact ⟨rfl, hstay⟩
  | endSource i | quit i =>
    exact ⟨rfl, exists_run_after_of_silent _ _
      (List.forall_mem_singleton.mpr (silent_move (fun _ => rfl) rfl))⟩
  | close =>
    refine ⟨rfl, exists_run_after_of_silent _ _ ?_⟩
    simp only [List.forall_mem_cons]
    exact ⟨⟨fun _ => rfl, rfl⟩, ⟨fun _ => rfl, rfl⟩, ⟨fun _ => rfl, rfl⟩, List.forall_mem_nil _⟩

/-- **An order is played as a run.** -/
theorem shows_play (r : Rehearsal) (order : Order) :
    ∃ events, (r.play order).1.Shows r.engine r.acts events (r.play order).2.engine := by
  obtain ⟨hacts, first, hrun, hsilent⟩ := r.exists_run_obey order
  obtain ⟨more, hshows⟩ := (r.obey order).1.shows_look (r.obey order).2
  rw [hacts] at hshows
  exact ⟨first ++ more, hshows.of_silent hrun hsilent⟩

/-- The scenes show a run, each the events since the one before it. -/
inductive Shown : Engine → List Act → List Scene → Prop
  | nil (e : Engine) (shown : List Act) : Shown e shown []
  | cons {e after : Engine} {shown : List Act} {events : List Event} {scene : Scene}
    {scenes : List Scene} (h : scene.Shows e shown events after) (hrest : Shown after [] scenes) :
    Shown e shown (scene :: scenes)

/-- **What is rehearsed is a run.** -/
theorem shown_scenes (r : Rehearsal) (orders : List Order) :
    Shown r.engine r.acts (r.scenes orders) := by
  induction orders generalizing r with
  | nil => exact .nil _ _
  | cons order orders ih =>
    obtain ⟨events, hshows⟩ := r.shows_play order
    exact .cons hshows (ih (r.play order).2)

/-- **The rehearsal of a transfer is a run** that begins with the start of the transfer. -/
theorem shown_transferScenes {s : Scripts} {config : TransferConfig}
    {lastPage : String → Except MigrationError UInt64} {orders : List Order} {count : Nat}
    {scenes : List Scene} (h : transferScenes e s config lastPage orders = .ok (count, scenes)) :
    Shown e config.lookUps scenes := by
  obtain ⟨⟨_, _, engine⟩, hstart, hscenes⟩ := bind_eq_ok.mp h
  obtain ⟨segments, -, htransfer⟩ := bind_eq_ok.mp hstart
  cases htransfer
  cases hscenes
  obtain ⟨first, hrun, hsilent⟩ := exists_run_after_of_silent e
    [.startTransfer config.tableName segments, .register (.transfer e.transfers.length)] (by
      simp only [List.forall_mem_cons]
      exact ⟨⟨fun _ => rfl, rfl⟩, ⟨fun _ => rfl, rfl⟩, List.forall_mem_nil _⟩)
  obtain ⟨more, hshows⟩ := shows_look ⟨_, s, [], [], config.lookUps⟩ none
  exact .cons (hshows.of_silent hrun hsilent) (shown_scenes _ orders)

end Rehearsal

end ChainMigration
