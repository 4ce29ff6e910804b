import ChainMigration.Engine.Step
import ChainMigration.Total
import Mathlib.Data.List.Basic

/-! # Histories of pools

A pool is what its own moves made of it. `Pool.History` is a fresh pool with the moves that it made
since, whatever the state of closing was at each of them. What came into a part of a pool has left
it or is there (`Pool.History.conserved`): the ranges sent are those taken, in the same order, and
the queue. -/

namespace ChainMigration

variable {p : Policy} {closing : Bool} {pool next : Pool} {move : PoolMove} {moves : List PoolMove}

/-! ### One move -/

namespace Worker

theorem telling_ne_exited (range : BlockRange) (notices : List Notice) :
    telling range notices ≠ exited := by
  cases notices <;> exact nofun

theorem goOn_ne_exited (range : BlockRange) (a : AfterRead) : goOn range a ≠ exited := by
  cases a with
  | finished notices => exact telling_ne_exited range notices
  | batch => exact nofun

/-- Whether a worker holds the sending ends of the channels: as long as it has not exited. -/
def sends : Worker → Nat
  | exited => 0
  | _ => 1

theorem sends_of_ne {w : Worker} (h : w ≠ .exited) : w.sends = 1 := by
  cases w with
  | exited => exact absurd rfl h
  | _ => rfl

theorem ne_exited_of_look {w : Worker} {wakes : Bool} (h : w = .idle ∨ w = .asleep ∧ wakes = true) :
    w ≠ .exited := by
  rcases h with rfl | ⟨rfl, -⟩ <;> exact nofun

theorem ne_exited_of_exit {w : Worker} {stop drained : Prop}
    (h : (w = .idle ∨ w = .asleep) ∧ stop ∨ w = .poised ∧ drained) : w ≠ .exited := by
  rcases h with ⟨rfl | rfl, -⟩ | ⟨rfl, -⟩ <;> exact nofun

end Worker

theorem Pool.Step.table (h : pool.Step p closing move next) : next.table = pool.table := by
  cases h <;> rfl

theorem Pool.Step.capacity (h : pool.Step p closing move next) : next.capacity = pool.capacity := by
  cases h <;> rfl

theorem Pool.Step.done (h : pool.Step p closing move next) (hdone : pool.done = true) :
    next.done = true := by
  cases h with
  | finish => rfl
  | _ => exact hdone

theorem Pool.Step.quit_mono (h : pool.Step p closing move next) (hquit : pool.quit = true) :
    next.quit = true := by
  cases h with
  | quit => rfl
  | _ => exact hquit

theorem Pool.Step.quit_eq (h : pool.Step p closing move next) (hquit : move ≠ .quit) :
    next.quit = pool.quit := by
  cases h with
  | quit => exact absurd rfl hquit
  | _ => rfl

namespace PoolMove

/-! ### What a move puts in and what it takes out -/

/-- The range that is sent. -/
def sent : PoolMove → List BlockRange
  | send range => [range]
  | _ => []

/-- The range that a worker takes. -/
def taken : PoolMove → List BlockRange
  | take _ range => [range]
  | _ => []

/-- The notice that a worker gives. -/
def told : PoolMove → List Notice
  | tell _ notice => [notice]
  | _ => []

/-- The gap that is received from the channel of a side. -/
def gapReceived : GapKind → PoolMove → List Gap
  | .read, receiveReadGap gap => [gap]
  | .write, receiveWriteGap gap => [gap]
  | _, _ => []

/-- The failure that is received. -/
def failureReceived : PoolMove → List MigrationError
  | receiveFailure reason => [reason]
  | _ => []

/-- The move ends the source of ranges. -/
def isEnd : PoolMove → Bool
  | endSource => true
  | _ => false

end PoolMove

namespace Pool

/-- The gaps in the channel of a side. -/
def gapsWaiting (pool : Pool) : GapKind → List Gap
  | .read => pool.readGaps
  | .write => pool.writeGaps

/-- **The queue is first in, first out.** -/
theorem Step.queue (h : pool.Step p closing move next) :
    pool.queue ++ move.sent = move.taken ++ next.queue := by
  cases h with
  | send => rfl
  | take hw hqueue =>
    rw [hqueue]
    exact List.append_nil _
  | _ => exact List.append_nil _

theorem Step.length_queue_le (h : pool.Step p closing move next)
    (hpool : ∀ n, pool.capacity = some n → pool.queue.length ≤ n) (n : Nat)
    (hn : next.capacity = some n) : next.queue.length ≤ n := by
  rw [h.capacity] at hn
  have hle := hpool n hn
  cases h with
  | send hopen hroom =>
    rw [hasRoom, hn, Option.all_some, decide_eq_true_iff] at hroom
    rw [List.length_append, List.length_singleton]
    omega
  | take hw hqueue =>
    rw [hqueue, List.length_cons] at hle
    exact Nat.le_of_succ_le hle
  | _ => exact hle

theorem Step.gapsWaiting (h : pool.Step p closing move next) (kind : GapKind) :
    pool.gapsWaiting kind ++ move.told.filterMap (·.gap? kind) =
      move.gapReceived kind ++ next.gapsWaiting kind := by
  cases h with
  | tell =>
    rw [PoolMove.told, List.filterMap_eq_flatMap_toList, List.flatMap_singleton]
    cases kind <;> rfl
  | receiveReadGap hgaps =>
    cases kind
    · exact (List.append_nil _).trans hgaps
    · exact List.append_nil _
  | receiveWriteGap hgaps =>
    cases kind
    · exact List.append_nil _
    · exact (List.append_nil _).trans hgaps
  | _ => cases kind <;> exact List.append_nil _

theorem Step.errors (h : pool.Step p closing move next) :
    pool.errors ++ move.told.filterMap (·.failure?) = move.failureReceived ++ next.errors := by
  cases h with
  | tell =>
    rw [PoolMove.told, List.filterMap_eq_flatMap_toList, List.flatMap_singleton]
    rfl
  | receiveFailure herrors => exact (List.append_nil _).trans herrors
  | _ => exact List.append_nil _

theorem Step.ended_eq (h : pool.Step p closing move next) :
    next.ended = (pool.ended || move.isEnd) := by
  cases h with
  | endSource => exact (Bool.or_true _).symm
  | _ => exact (Bool.or_false _).symm

theorem drained_iff :
    pool.drained = true ↔ pool.readGaps = [] ∧ pool.writeGaps = [] ∧ pool.errors = [] := by
  rw [drained, Bool.and_eq_true, Bool.and_eq_true, List.isEmpty_iff, List.isEmpty_iff,
    List.isEmpty_iff, and_assoc]

theorem Step.drained (h : pool.Step p closing move next) (hexited : pool.exited = true)
    (hdrained : pool.drained = true) : next.drained = true := by
  obtain ⟨hread, hwrite, herrors⟩ := drained_iff.mp hdrained
  cases h with
  | tell hw =>
    have hexit := List.all_eq_true.mp hexited _ (List.mem_of_getElem? hw)
    cases decide_eq_true_iff.mp hexit
  | receiveReadGap hgaps => cases hread.symm.trans hgaps
  | receiveWriteGap hgaps => cases hwrite.symm.trans hgaps
  | receiveFailure hfailures => cases herrors.symm.trans hfailures
  | _ => exact hdrained

/-! ### Workers -/

theorem Step.workers_length (h : pool.Step p closing move next) :
    next.workers.length = pool.workers.length := by
  cases h with
  | look | take | sleep | read | write | tell | exit => exact List.length_set
  | _ => rfl

theorem Step.exited_of_done (h : pool.Step p closing move next)
    (hpool : pool.done = true → pool.exited = true) (hdone : next.done = true) :
    next.exited = true := by
  have hbusy : ∀ {i : Nat} {w : Worker}, pool.workers[i]? = some w → w ≠ .exited →
      pool.done ≠ true := by
    intro i w hi hw hd
    have hall := List.all_eq_true.mp (hpool hd) w (List.mem_of_getElem? hi)
    exact hw (decide_eq_true_iff.mp hall)
  cases h with
  | look hw hlook => exact absurd hdone (hbusy hw (Worker.ne_exited_of_look hlook))
  | take hw => exact absurd hdone (hbusy hw nofun)
  | sleep hw => exact absurd hdone (hbusy hw nofun)
  | read hw => exact absurd hdone (hbusy hw nofun)
  | write hw => exact absurd hdone (hbusy hw nofun)
  | tell hw => exact absurd hdone (hbusy hw nofun)
  | exit hw hexit => exact absurd hdone (hbusy hw (Worker.ne_exited_of_exit hexit))
  | finish hexited => exact hexited
  | _ => exact hpool hdone

theorem Step.handedOver_of_done (h : pool.Step p closing move next)
    (hpool : pool.done = true → pool.handedOver = true) (hdone : next.done = true) :
    next.handedOver = true := by
  cases h with
  | handOver => rfl
  | finish _ hheld => exact hheld
  | _ => exact hpool hdone

/-- **Why a worker exits**: a stop is asked for, or the source has ended and the queue is empty.
Both last. -/
theorem Step.stop_or_drained (h : pool.Step p closing move next)
    (hpool : .exited ∈ pool.workers →
      (pool.quit = true ∨ closing = true) ∨ pool.ended = true ∧ pool.queue = [])
    (hexited : .exited ∈ next.workers) :
    (next.quit = true ∨ closing = true) ∨ next.ended = true ∧ next.queue = [] := by
  have hset : ∀ {i : Nat} {w : Worker}, .exited ∈ pool.workers.set i w → w ≠ .exited →
      (pool.quit = true ∨ closing = true) ∨ pool.ended = true ∧ pool.queue = [] := by
    intro i w hmem hw
    rcases List.mem_or_eq_of_mem_set hmem with hmem | heq
    · exact hpool hmem
    · exact absurd heq.symm hw
  cases h with
  | send hopen =>
    rcases hpool hexited with hstop | hdrained
    · exact Or.inl hstop
    · -- A queue is open only before its source has ended.
      rw [isOpen, hdrained.1] at hopen
      cases hopen
  | endSource =>
    rcases hpool hexited with hstop | hdrained
    · exact Or.inl hstop
    · exact Or.inr ⟨rfl, hdrained.2⟩
  | quit => exact Or.inl (Or.inl rfl)
  | look => exact hset hexited nofun
  | take hw hqueue =>
    rcases hset hexited nofun with hstop | hdrained
    · exact Or.inl hstop
    · rw [hqueue] at hdrained
      cases hdrained.2
  | sleep => exact hset hexited nofun
  | read => exact hset hexited (Worker.goOn_ne_exited _ _)
  | write => exact hset hexited (Worker.telling_ne_exited _ _)
  | tell => exact hset hexited (Worker.telling_ne_exited _ _)
  | exit _ hexit => exact hexit.imp And.right And.right
  | _ => exact hpool hexited

/-! ### Senders -/

/-- How many hold the sending ends: the workers that have not exited, and whoever started the pool
until it is handed over. -/
def holders (pool : Pool) : Nat :=
  total Worker.sends pool.workers + (!pool.handedOver).toNat

/-- A worker that has not exited yet and does not exit holds what it held. -/
theorem holders_put {i : Nat} {w v : Worker} (hi : pool.workers[i]? = some w) (hw : w ≠ .exited)
    (hv : v ≠ .exited) : (pool.put i v).holders = pool.holders := by
  have hset := total_set Worker.sends v _ _ _ hi
  rw [Worker.sends_of_ne hw, Worker.sends_of_ne hv] at hset
  simp only [holders, put]
  omega

/-- **The senders are those who hold the sending ends**: a worker lets go of them when it exits, and
whoever started the pool when it is handed over. -/
theorem Step.senders (h : pool.Step p closing move next) (hpool : pool.senders = pool.holders) :
    next.senders = next.holders := by
  have hkept : ∀ {i : Nat} {w : Worker} (v : Worker), pool.workers[i]? = some w → w ≠ .exited →
      v ≠ .exited → pool.senders = (pool.put i v).holders :=
    fun v hi hw hv => hpool.trans (holders_put hi hw hv).symm
  cases h with
  | look hi hlook => exact hkept .poised hi (Worker.ne_exited_of_look hlook) nofun
  | take hi => exact hkept (.reading _) hi nofun nofun
  | sleep hi => exact hkept .asleep hi nofun nofun
  | read hi => exact hkept _ hi nofun (Worker.goOn_ne_exited _ _)
  | write hi => exact hkept _ hi nofun (Worker.telling_ne_exited _ _)
  | tell hi => exact hkept _ hi nofun (Worker.telling_ne_exited _ _)
  | exit hi hexit =>
    have hset := total_set Worker.sends .exited _ _ _ hi
    rw [Worker.sends_of_ne (Worker.ne_exited_of_exit hexit), Worker.sends] at hset
    simp only [holders, put] at hpool ⊢
    omega
  | handOver hheld =>
    simp only [holders, hheld] at hpool ⊢
    simp only [hpool, Bool.not_false, Bool.not_true, Bool.toNat_true, Bool.toNat_false]
    omega
  | _ => exact hpool

theorem total_sends_of_exited (h : pool.exited = true) : total Worker.sends pool.workers = 0 := by
  have hall : ∀ w ∈ pool.workers, w = .exited :=
    fun w hw => decide_eq_true_iff.mp (List.all_eq_true.mp h w hw)
  rw [List.eq_replicate_of_mem hall, total_replicate]
  exact Nat.mul_zero _

/-! ### Histories -/

/-- A fresh pool, which may have been handed over. -/
def begun (p : Policy) (t : Table) (capacity : Option Nat) (handedOver : Bool) : Pool :=
  { fresh p t capacity with handedOver, senders := p.workersPerTable + (!handedOver).toNat }

/-- A fresh pool, handed over or not, and the moves that it made since, each under some state of
closing. -/
inductive History (p : Policy) : List PoolMove → Pool → Prop
  | fresh (t : Table) (capacity : Option Nat) (handedOver : Bool) :
    History p [] (begun p t capacity handedOver)
  | move {moves : List PoolMove} {pool next : Pool} {closing : Bool} {move : PoolMove}
    (h : History p moves pool) (hstep : pool.Step p closing move next) :
    History p (moves ++ [move]) next

namespace History

/-- **What came in has gone out or is still there**, in the same order. -/
theorem conserved {α : Type} (part : Pool → List α) {came went : PoolMove → List α}
    (hfresh : ∀ t capacity handedOver, part (.begun p t capacity handedOver) = [])
    (hstep : ∀ {closing pool move next}, pool.Step p closing move next →
      part pool ++ came move = went move ++ part next)
    (h : pool.History p moves) : moves.flatMap came = moves.flatMap went ++ part pool := by
  induction h with
  | fresh =>
    rw [hfresh]
    rfl
  | move _ h ih =>
    rw [List.flatMap_append, List.flatMap_append, ih, List.flatMap_singleton,
      List.flatMap_singleton, List.append_assoc, List.append_assoc, hstep h]

/-- **The ranges sent are those taken**, in the order of sending, **and the queue.** -/
theorem sent (h : pool.History p moves) :
    moves.flatMap (·.sent) = moves.flatMap (·.taken) ++ pool.queue :=
  h.conserved Pool.queue (fun _ _ _ => rfl) Step.queue

theorem length_queue_le (h : pool.History p moves) :
    ∀ n, pool.capacity = some n → pool.queue.length ≤ n := by
  induction h with
  | fresh => exact fun n _ => Nat.zero_le n
  | move _ h ih => exact h.length_queue_le ih

theorem gapsTold (h : pool.History p moves) (kind : GapKind) :
    moves.flatMap (·.told.filterMap (·.gap? kind)) =
      moves.flatMap (·.gapReceived kind) ++ pool.gapsWaiting kind :=
  h.conserved (·.gapsWaiting kind) (fun _ _ _ => by cases kind <;> rfl) fun h => h.gapsWaiting kind

theorem failuresTold (h : pool.History p moves) :
    moves.flatMap (·.told.filterMap (·.failure?)) =
      moves.flatMap (·.failureReceived) ++ pool.errors :=
  h.conserved Pool.errors (fun _ _ _ => rfl) Step.errors

theorem workers_length (h : pool.History p moves) : pool.workers.length = p.workersPerTable := by
  induction h with
  | fresh => exact List.length_replicate
  | move _ h ih => exact h.workers_length.trans ih

theorem exited_of_done (h : pool.History p moves) : pool.done = true → pool.exited = true := by
  induction h with
  | fresh => exact nofun
  | move _ h ih => exact h.exited_of_done ih

theorem handedOver_of_done (h : pool.History p moves) :
    pool.done = true → pool.handedOver = true := by
  induction h with
  | fresh => exact nofun
  | move _ h ih => exact h.handedOver_of_done ih

theorem senders_eq (h : pool.History p moves) : pool.senders = pool.holders := by
  induction h with
  | fresh t capacity handedOver =>
    rw [holders, begun, Pool.fresh, total_replicate]
    exact congrArg (· + (!handedOver).toNat) (Nat.mul_one _).symm
  | move _ h ih => exact h.senders ih

/-- **When a pool is done, no one can put anything into its channels any more.** -/
theorem senders_of_done (h : pool.History p moves) (hdone : pool.done = true) :
    pool.senders = 0 := by
  rw [h.senders_eq, holders, total_sends_of_exited (h.exited_of_done hdone),
    h.handedOver_of_done hdone]
  rfl

theorem mem_exited (h : pool.History p moves) (hexited : pool.exited = true) :
    .exited ∈ pool.workers := by
  have hpos : 0 < pool.workers.length := by
    rw [h.workers_length, Policy.workersPerTable]
    omega
  have hmem := List.getElem_mem hpos
  rwa [decide_eq_true_iff.mp (List.all_eq_true.mp hexited _ hmem)] at hmem

theorem mem_exited_of_done (h : pool.History p moves) (hdone : pool.done = true) :
    .exited ∈ pool.workers :=
  h.mem_exited (h.exited_of_done hdone)

end History

end Pool

end ChainMigration
