import ChainMigration.Proofs.CopyHistory
import ChainMigration.Proofs.PoolWork

/-! # Done means done

A pool is done only once all its workers have exited and no one holds the sending ends of its
channels (`Pool.History.senders_of_done`), and what has exited neither works nor tells anything any
more (`Pool.Step.quiet`, `Engine.quiet_of_done`). So whoever waits for the end of a pool and then
empties its channels has received all that the pool ever told (`Pool.History.allReceived`). The same
holds of transfers. The two are put together in `Engine.over_of_done`. -/

namespace ChainMigration

variable {p : Policy} {closing : Bool} {pool next : Pool} {move : PoolMove} {moves : List PoolMove}
  {c c' : PageCopy} {copyMove : CopyMove} {copyMoves : List CopyMove} {e after : Engine}
  {events later : List Event} {i : Nat}

/-! ### Pools -/

/-- The move is a read or a write, or tells of a gap or of a failure. -/
def PoolMove.isWork : PoolMove → Bool
  | take _ _ | read _ _ _ | write _ _ _ _ | tell _ _ => true
  | _ => false

/-- The notice that a given worker gives. -/
def PoolMove.toldBy (worker : Nat) : PoolMove → List Notice
  | tell i notice => if i = worker then [notice] else []
  | _ => []

/-- Everything that was told has been received: each notice once, and the notices of each worker in
the order in which it gave them. -/
structure Pool.AllReceived (moves : List PoolMove) : Prop where
  gaps : ∀ kind, moves.flatMap (·.gapReceived kind) =
    moves.flatMap (·.told.filterMap (·.gap? kind))
  failures : moves.flatMap (·.failureReceived) = moves.flatMap (·.told.filterMap (·.failure?))
  gapsInOrder : ∀ worker kind, ((moves.flatMap (·.toldBy worker)).filterMap (·.gap? kind)).Sublist
    (moves.flatMap (·.gapReceived kind))
  failuresInOrder : ∀ worker, ((moves.flatMap (·.toldBy worker)).filterMap (·.failure?)).Sublist
    (moves.flatMap (·.failureReceived))

theorem PoolMove.toldBy_sublist (worker : Nat) (move : PoolMove) :
    (move.toldBy worker).Sublist move.told := by
  cases move with
  | tell i notice =>
    by_cases hi : i = worker
    · rw [toldBy, if_pos hi]
      exact List.Sublist.refl _
    · rw [toldBy, if_neg hi]
      exact List.nil_sublist _
  | _ => exact List.nil_sublist _

namespace Pool

theorem inHand_of_exited (h : pool.exited = true) : pool.inHand = [] := by
  refine List.flatMap_eq_nil_iff.mpr fun w hw => ?_
  rw [decide_eq_true_iff.mp (List.all_eq_true.mp h w hw)]
  rfl

/-- **Workers that have exited do nothing**, and nothing brings them back. -/
theorem Step.quiet (h : pool.Step p closing move next) (hexited : pool.exited = true) :
    move.isWork = false ∧ next.exited = true := by
  have hbusy : ∀ {i : Nat} {w : Worker}, pool.workers[i]? = some w → w = .exited :=
    fun hw => decide_eq_true_iff.mp (List.all_eq_true.mp hexited _ (List.mem_of_getElem? hw))
  cases h with
  | look hw hlook => exact absurd (hbusy hw) (Worker.ne_exited_of_look hlook)
  | take hw => cases hbusy hw
  | sleep hw => cases hbusy hw
  | read hw => cases hbusy hw
  | write hw => cases hbusy hw
  | tell hw => cases hbusy hw
  | exit hw hexit => exact absurd (hbusy hw) (Worker.ne_exited_of_exit hexit)
  | _ => exact ⟨rfl, hexited⟩

theorem told_filterMap {α : Type} (f : Notice → Option α) (moves : List PoolMove) :
    moves.flatMap (·.told.filterMap f) = (moves.flatMap (·.told)).filterMap f := by
  rw [List.filterMap_flatMap]

theorem toldBy_flatMap_sublist (worker : Nat) (moves : List PoolMove) :
    (moves.flatMap (·.toldBy worker)).Sublist (moves.flatMap (·.told)) := by
  induction moves with
  | nil => exact List.Sublist.refl _
  | cons move moves ih => exact (move.toldBy_sublist worker).append ih

/-- **With the channels empty, all that was told has been received.** -/
theorem History.allReceived (h : pool.History p moves) (hdrained : pool.drained = true) :
    AllReceived moves := by
  obtain ⟨hread, hwrite, herrors⟩ := drained_iff.mp hdrained
  have hgaps : ∀ kind, moves.flatMap (·.gapReceived kind) =
      moves.flatMap (·.told.filterMap (·.gap? kind)) := by
    intro kind
    have hempty : pool.gapsWaiting kind = [] := by
      cases kind
      · exact hread
      · exact hwrite
    rw [h.gapsTold, hempty, List.append_nil]
  have hfailures : moves.flatMap (·.failureReceived) =
      moves.flatMap (·.told.filterMap (·.failure?)) := by
    rw [h.failuresTold, herrors, List.append_nil]
  refine ⟨hgaps, hfailures, fun worker kind => ?_, fun worker => ?_⟩
  · rw [hgaps, told_filterMap]
    exact (toldBy_flatMap_sublist worker moves).filterMap _
  · rw [hfailures, told_filterMap]
    exact (toldBy_flatMap_sublist worker moves).filterMap _

end Pool

/-! ### Transfers -/

/-- The move is a copy, or tells of a failed segment or of a failure. -/
def CopyMove.isWork : CopyMove → Bool
  | start _ | copied _ _ | tell _ => true
  | _ => false

theorem PageCopy.Step.quiet (h : c.Step closing copyMove c') (hexited : c.copier = .exited) :
    copyMove.isWork = false ∧ c'.copier = .exited := by
  have hbusy : ∀ {w : Copier}, c.copier = w → w = .exited := fun hw => hw.symm.trans hexited
  cases h with
  | look hc => cases hbusy hc
  | start hc => cases hbusy hc
  | copied hc => cases hbusy hc
  | failed hc => cases hbusy hc
  | tell hc => cases hbusy hc
  | exit hc => cases hbusy hc
  | _ => exact ⟨rfl, hexited⟩

/-- Every failed segment and every failure that was told has been received, in the order of
telling. -/
structure PageCopy.AllReceived (copyMoves : List CopyMove) : Prop where
  failed : copyMoves.flatMap (·.failedReceived) = copyMoves.flatMap (·.failed)
  failures : copyMoves.flatMap (·.failureReceived) = copyMoves.flatMap (·.told)

theorem PageCopy.History.allReceived (h : History copyMoves c) (hdrained : c.drained = true) :
    AllReceived copyMoves := by
  obtain ⟨hfailed, herrors⟩ := drained_iff.mp hdrained
  refine ⟨?_, ?_⟩
  · rw [h.failedTold, hfailed, List.append_nil]
  · rw [h.failuresTold, herrors, List.append_nil]

/-! ### Whatever happens later -/

namespace Engine

theorem quiet_of_done (hrun : e.run? later = some after) (hpool : e.pools[i]? = some pool)
    (hexited : pool.exited = true) (hdone : pool.done = true) :
    ∃ final, after.pools[i]? = some final ∧ final.exited = true ∧ final.done = true ∧
      ∀ move ∈ movesOf i later, move.isWork = false := by
  have hstep : ∀ {e : Engine} {event after}, e.step event = some after →
      (∃ pool, e.pools[i]? = some pool ∧ pool.exited = true ∧ pool.done = true) →
      (∃ pool, after.pools[i]? = some pool ∧ pool.exited = true ∧ pool.done = true) ∧
        ∀ move ∈ event.moveOf i, move.isWork = false := by
    rintro e event after hstep ⟨pool, hpool, hexited, hdone⟩
    rcases pool_of_step hstep i with ⟨hm, heq⟩ | ⟨-, rfl, -⟩ | ⟨move, _, next, rfl, hi, hi', hmove⟩
    · rw [hm, heq]
      exact ⟨⟨pool, hpool, hexited, hdone⟩, List.forall_mem_nil _⟩
    · rw [List.getElem?_eq_none (Nat.le_refl _)] at hpool
      cases hpool
    · cases hpool.symm.trans hi
      obtain ⟨hwork, hexited'⟩ := hmove.quiet hexited
      rw [Event.moveOf, if_pos rfl, List.forall_mem_singleton]
      exact ⟨⟨next, hi', hexited', hmove.done hdone⟩, hwork⟩
  obtain ⟨⟨final, hfinal, hend, hstays⟩, hquiet⟩ :=
    forall_of_run hstep hrun ⟨pool, hpool, hexited, hdone⟩
  exact ⟨final, hfinal, hend, hstays, List.forall_mem_flatMap.mpr hquiet⟩

theorem quiet_of_copyDone (hrun : e.run? later = some after) (hc : e.transfers[i]? = some c)
    (hexited : c.copier = .exited) (hdone : c.done = true) :
    ∃ final, after.transfers[i]? = some final ∧ final.copier = .exited ∧ final.done = true ∧
      ∀ move ∈ copyMovesOf i later, move.isWork = false := by
  have hstep : ∀ {e : Engine} {event after}, e.step event = some after →
      (∃ c, e.transfers[i]? = some c ∧ c.copier = .exited ∧ c.done = true) →
      (∃ c, after.transfers[i]? = some c ∧ c.copier = .exited ∧ c.done = true) ∧
        ∀ move ∈ event.copyMoveOf i, move.isWork = false := by
    rintro e event after hstep ⟨c, hc, hexited, hdone⟩
    rcases transfer_of_step hstep i with
      ⟨hm, heq⟩ | ⟨-, rfl, -⟩ | ⟨move, _, next, rfl, hi, hi', hmove⟩
    · rw [hm, heq]
      exact ⟨⟨c, hc, hexited, hdone⟩, List.forall_mem_nil _⟩
    · rw [List.getElem?_eq_none (Nat.le_refl _)] at hc
      cases hc
    · cases hc.symm.trans hi
      obtain ⟨hwork, hexited'⟩ := hmove.quiet hexited
      rw [Event.copyMoveOf, if_pos rfl, List.forall_mem_singleton]
      exact ⟨⟨next, hi', hexited', hmove.done hdone⟩, hwork⟩
  obtain ⟨⟨final, hfinal, hend, hstays⟩, hquiet⟩ :=
    forall_of_run hstep hrun ⟨c, hc, hexited, hdone⟩
  exact ⟨final, hfinal, hend, hstays, List.forall_mem_flatMap.mpr hquiet⟩

/-- What the end of a pool means, in any run of its engine. -/
theorem pool_over_of_done (hrun : (fresh p).run? events = some e) (hpool : e.pools[i]? = some pool)
    (hdone : pool.done = true) :
    pool.exited = true ∧ pool.senders = 0 ∧ pool.inHand = [] ∧
      ∀ later after, e.run? later = some after →
        ∃ final, after.pools[i]? = some final ∧ final.done = true ∧
          (∀ move ∈ movesOf i later, move.isWork = false) ∧
          (final.drained = true → Pool.AllReceived (movesOf i (events ++ later))) := by
  have hhistory := (history hrun i).2 pool hpool
  have hexited := hhistory.exited_of_done hdone
  refine ⟨hexited, hhistory.senders_of_done hdone, Pool.inHand_of_exited hexited,
    fun later after hlater => ?_⟩
  obtain ⟨final, hfinal, -, hstays, hquiet⟩ := quiet_of_done hlater hpool hexited hdone
  have hwhole : (fresh p).run? (events ++ later) = some after := by
    rw [run?_append, hrun]
    exact hlater
  exact ⟨final, hfinal, hstays, hquiet, ((history hwhole i).2 final hfinal).allReceived⟩

theorem transfer_over_of_done (hrun : (fresh p).run? events = some e)
    (hc : e.transfers[i]? = some c) (hdone : c.done = true) :
    c.copier = .exited ∧ c.sending = false ∧ ∀ later after, e.run? later = some after →
      ∃ final, after.transfers[i]? = some final ∧ final.done = true ∧
        (∀ move ∈ copyMovesOf i later, move.isWork = false) ∧
        (final.drained = true → PageCopy.AllReceived (copyMovesOf i (events ++ later))) := by
  have hhistory := (copyHistory hrun i).2 c hc
  have hexited := hhistory.exited_of_done hdone
  refine ⟨hexited, hhistory.sending_of_done hdone, fun later after hlater => ?_⟩
  obtain ⟨final, hfinal, -, hstays, hquiet⟩ := quiet_of_copyDone hlater hc hexited hdone
  have hwhole : (fresh p).run? (events ++ later) = some after := by
    rw [run?_append, hrun]
    exact hlater
  exact ⟨final, hfinal, hstays, hquiet, ((copyHistory hwhole i).2 final hfinal).allReceived⟩

theorem step_finish_eq_none (hpool : e.pools[i]? = some pool) (hrunning : pool.exited = false) :
    e.step (.pool i .finish) = none := by
  rw [Option.eq_none_iff_forall_ne_some]
  intro after hstep
  cases Step.of_step hstep with
  | pool hi hmove =>
    rw [hpool] at hi
    cases hi
    cases hmove with
    | finish hexited => cases hrunning.symm.trans hexited

theorem step_copyFinish_eq_none (hc : e.transfers[i]? = some c) (hcopier : c.copier ≠ .exited) :
    e.step (.transfer i .finish) = none := by
  rw [Option.eq_none_iff_forall_ne_some]
  intro after hstep
  cases Step.of_step hstep with
  | transfer hi hmove =>
    rw [hc] at hi
    cases hi
    cases hmove with
    | finish hexited => exact hcopier hexited

/-- **Done means done**, in any run of an engine. If a pool is done, all its workers have exited, no
one holds the sending ends of its channels and no range is in hand; whatever happens later, it does
not work any more, and once its channels are empty all that it ever told has been received, each
notice once and the notices of each worker in order. Conversely a pool of which a worker is running
is not done and cannot become done next. The same holds of a transfer, with its copier, its failed
segments and its failures. -/
theorem over_of_done (hrun : (fresh p).run? events = some e) :
    (∀ i pool, e.pools[i]? = some pool →
      (pool.done = true → pool.exited = true ∧ pool.senders = 0 ∧ pool.inHand = [] ∧
        ∀ later after, e.run? later = some after →
          ∃ final, after.pools[i]? = some final ∧ final.done = true ∧
            (∀ move ∈ movesOf i later, move.isWork = false) ∧
            (final.drained = true → Pool.AllReceived (movesOf i (events ++ later)))) ∧
      (pool.exited = false → pool.done = false ∧ e.step (.pool i .finish) = none)) ∧
    (∀ i c, e.transfers[i]? = some c →
      (c.done = true → c.copier = .exited ∧ c.sending = false ∧
        ∀ later after, e.run? later = some after →
          ∃ final, after.transfers[i]? = some final ∧ final.done = true ∧
            (∀ move ∈ copyMovesOf i later, move.isWork = false) ∧
            (final.drained = true → PageCopy.AllReceived (copyMovesOf i (events ++ later)))) ∧
      (c.copier ≠ .exited → c.done = false ∧ e.step (.transfer i .finish) = none)) := by
  refine ⟨fun i pool hpool => ⟨pool_over_of_done hrun hpool, fun hrunning => ?_⟩,
    fun i c hc => ⟨transfer_over_of_done hrun hc, fun hcopier => ?_⟩⟩
  · refine ⟨Bool.eq_false_iff.mpr fun hdone => ?_, step_finish_eq_none hpool hrunning⟩
    cases hrunning.symm.trans (pool_over_of_done hrun hpool hdone).1
  · refine ⟨Bool.eq_false_iff.mpr fun hdone => hcopier ?_, step_copyFinish_eq_none hc hcopier⟩
    exact (transfer_over_of_done hrun hc hdone).1

end Engine

/-! ### A pool and a transfer that are told to stop at work -/

/-- Two workers fail to read two ranges of headers; the pool is told to stop while both read, and
one of them is slow. -/
def slowRead : List Event :=
  .start .headers none :: [.handOver, .send lowHeights, .send highHeights, .look 0,
    .take 0 lowHeights, .look 1, .take 1 highHeights, .quit,
    .read 1 highHeights (.error .cancelled), .tell 1 (.gap .read ⟨highHeights, .readFailed⟩),
    .tell 1 (.failure .cancelled), .exit 1,
    .read 0 lowHeights (.error .cancelled), .tell 0 (.gap .read ⟨lowHeights, .readFailed⟩),
    .tell 0 (.failure .cancelled), .exit 0, .finish].map (.pool 0)

/-- Everything in the channels of the pool is received. -/
def slowReceipts : List Event :=
  [.receiveReadGap ⟨highHeights, .readFailed⟩, .receiveFailure .cancelled,
    .receiveReadGap ⟨lowHeights, .readFailed⟩, .receiveFailure .cancelled].map (.pool 0)

/-- The first of two segments cannot be copied; the engine is closed while the second one is. -/
def slowCopy : List Event :=
  [.startTransfer "public.blocks" [lowHeights, highHeights], .transfer 0 .look,
    .transfer 0 (.start lowHeights), .transfer 0 (.copied lowHeights (.error .cancelled)),
    .transfer 0 (.tell .cancelled), .transfer 0 .look, .transfer 0 (.start highHeights), .mark,
    .signal, .transfer 0 (.copied highHeights (.ok 6)), .transfer 0 .exit, .transfer 0 .letGo,
    .transfer 0 .finish]

/-- Everything in the channels of the transfer is received. -/
def slowCopyReceipts : List Event :=
  [.transfer 0 (.receiveFailed lowHeights), .transfer 0 (.receiveFailure .cancelled)]

/-- The gaps of both workers are received after the end of the pool, and the failed segment with its
failure after the end of the transfer. -/
theorem slow_received :
    (∃ e after pool final, (Engine.fresh ⟨2, [.headers], false⟩).run? slowRead = some e ∧
      e.pools[0]? = some pool ∧ pool.done = true ∧ pool.senders = 0 ∧
      e.run? slowReceipts = some after ∧ after.pools[0]? = some final ∧ final.drained = true ∧
      Pool.AllReceived (movesOf 0 (slowRead ++ slowReceipts)) ∧
      (movesOf 0 (slowRead ++ slowReceipts)).flatMap (·.gapReceived .read) =
        [⟨highHeights, .readFailed⟩, ⟨lowHeights, .readFailed⟩]) ∧
    ∃ e after c final, (Engine.fresh ⟨2, [.headers], false⟩).run? slowCopy = some e ∧
      e.transfers[0]? = some c ∧ c.done = true ∧ c.sending = false ∧
      e.run? slowCopyReceipts = some after ∧ after.transfers[0]? = some final ∧
      final.drained = true ∧ PageCopy.AllReceived (copyMovesOf 0 (slowCopy ++ slowCopyReceipts)) ∧
      (copyMovesOf 0 (slowCopy ++ slowCopyReceipts)).flatMap (·.failedReceived) = [lowHeights] := by
  constructor
  · have hrun : (Engine.fresh ⟨2, [.headers], false⟩).run? slowRead = some _ := rfl
    obtain ⟨-, hsenders, -, hlater⟩ := ((Engine.over_of_done hrun).1 0 _ rfl).1 rfl
    obtain ⟨final, hfinal, -, -, hreceived⟩ := hlater slowReceipts _ rfl
    cases hfinal
    have hall := hreceived rfl
    exact ⟨_, _, _, _, hrun, rfl, rfl, hsenders, rfl, rfl, rfl, hall, rfl⟩
  · have hrun : (Engine.fresh ⟨2, [.headers], false⟩).run? slowCopy = some _ := rfl
    obtain ⟨-, hsending, hlater⟩ := ((Engine.over_of_done hrun).2 0 _ rfl).1 rfl
    obtain ⟨final, hfinal, -, -, hreceived⟩ := hlater slowCopyReceipts _ rfl
    cases hfinal
    have hall := hreceived rfl
    exact ⟨_, _, _, _, hrun, rfl, rfl, hsending, rfl, rfl, rfl, hall, rfl⟩

end ChainMigration
