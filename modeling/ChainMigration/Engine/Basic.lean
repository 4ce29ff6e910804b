import ChainMigration.Engine.PageCopy
import ChainMigration.Engine.Pool

/-! # The engine

An engine runs worker pools and page transfers, and closes the connections that they use. A pool or
a transfer is first started and then registered; a pool is handed over in between. Closing happens
in stages: the engine is marked as closed, its workers are told to stop, the registered tasks are
collected, and the connections are shut once the collected tasks are done. Whoever closes the engine
where it cannot wait collects no task. That the pools are told to stop one after the other is a
`quit` of those that are told before the others.

`Engine.step` is one event of an engine. The events of different callers and tasks may come in any
order in which each of them is possible. -/

namespace ChainMigration

/-- A task that an engine runs. -/
inductive EngineTask
  | pool (index : Nat)
  | transfer (index : Nat)
deriving DecidableEq

/-- How far an engine is closed. -/
inductive Closing
  | running
  | marked
  | signalled
  /-- The connections are shut when these tasks are done. -/
  | waiting (tasks : List EngineTask)
  /-- The connections are shut. -/
  | shut
deriving DecidableEq

/-- An engine with its pools and transfers, in the order in which they were started. -/
structure Engine where
  policy : Policy
  closing : Closing := .running
  pools : List Pool := []
  transfers : List PageCopy := []
  /-- Tasks that are started but not yet registered. -/
  unregistered : List EngineTask := []
  registered : List EngineTask := []
deriving DecidableEq

/-- Something that happens in an engine. -/
inductive Event
  | start (table : Table) (capacity : Option Nat)
  | startTransfer (table : String) (segments : List BlockRange)
  | register (task : EngineTask)
  | pool (index : Nat) (move : PoolMove)
  | transfer (index : Nat) (move : CopyMove)
  | mark
  | signal
  /-- The registered tasks are collected, if their end can be awaited. -/
  | collect (canWait : Bool)
  | shut

/-- The workers are told to stop. -/
def Closing.stops : Closing → Bool
  | .running | .marked => false
  | .signalled | .waiting _ | .shut => true

namespace Engine

/-- The engine is closed or being closed. -/
def isClosed (e : Engine) : Bool := e.closing ≠ .running

/-- Everyone has been told of the end of a task. -/
def isDone (e : Engine) : EngineTask → Bool
  | .pool i => (e.pools[i]?).any (·.done)
  | .transfer i => (e.transfers[i]?).any (·.done)

/-- One event of an engine; none if it cannot happen. -/
def step (e : Engine) : Event → Option Engine
  | .start table capacity =>
    some { e with
      pools := e.pools ++ [.fresh e.policy table capacity]
      unregistered := e.unregistered ++ [.pool e.pools.length] }
  | .startTransfer table segments =>
    some { e with
      transfers := e.transfers ++ [{ table, queue := segments }]
      unregistered := e.unregistered ++ [.transfer e.transfers.length] }
  | .register task =>
    if task ∈ e.unregistered then
      some { e with
        unregistered := e.unregistered.erase task
        registered := e.registered.filter (!e.isDone ·) ++ [task] }
    else none
  | .pool i move =>
    match e.pools[i]? with
    | some pool =>
      (pool.step e.policy e.closing.stops move).map fun pool =>
        { e with pools := e.pools.set i pool }
    | none => none
  | .transfer i move =>
    match e.transfers[i]? with
    | some c =>
      (c.step e.closing.stops move).map fun c => { e with transfers := e.transfers.set i c }
    | none => none
  | .mark => if e.closing = .running then some { e with closing := .marked } else none
  | .signal => if e.closing = .marked then some { e with closing := .signalled } else none
  | .collect canWait =>
    if e.closing = .signalled then
      some { e with closing := .waiting (if canWait then e.registered else []), registered := [] }
    else none
  | .shut =>
    match e.closing with
    | .waiting tasks => if tasks.all e.isDone then some { e with closing := .shut } else none
    | _ => none

/-- The engine after events; none if one of them cannot happen. -/
def run? (e : Engine) : List Event → Option Engine
  | [] => some e
  | event :: events => (e.step event).bind fun e => e.run? events

/-- An engine without pools. -/
def fresh (p : Policy) : Engine := { policy := p }

/-- An engine can come to be from a fresh one. -/
def Reachable (e : Engine) : Prop := ∃ p events, (fresh p).run? events = some e

end Engine

end ChainMigration
