import ChainMigration.Engine.Work

/-! # Worker pools

A pool of workers migrates the ranges of one table. Ranges wait in a queue, of which every worker
takes the first; gaps and failures wait in three channels until they are received. `Pool.step` is
one step of one of its workers, or of whoever supplies, stops or drains the pool; what a read or a
write answered is part of the step, so a run is a list of moves.

A worker first looks whether it has to stop and then looks into the queue; a stop that comes in
between does not keep it from taking a range. A worker that finds the queue empty falls asleep, and
looks again once something wakes it. Whoever has a range in hand finishes it. A pool is done when
all its workers have exited and no one can put anything into its channels any more. -/

namespace ChainMigration

/-- What a worker is doing. -/
inductive Worker
  /-- Is about to look whether it has to stop. -/
  | idle
  /-- Has seen no stop and is about to look into the queue. -/
  | poised
  /-- Has found the queue empty. -/
  | asleep
  /-- Waits for the rows of a range. -/
  | reading (range : BlockRange)
  /-- Waits for the new rows of a range to be written. -/
  | writing (range : BlockRange) (upgraded : Upgraded)
  /-- Has something to tell before it is idle again. -/
  | reporting (range : BlockRange) (notices : List Notice)
  | exited
deriving DecidableEq

namespace Worker

/-- The range in hand. -/
def range? : Worker → Option BlockRange
  | idle | poised | asleep | exited => none
  | reading range | writing range _ | reporting range _ => some range

/-- A worker that has some notices left to give about a range. -/
def telling (range : BlockRange) : List Notice → Worker
  | [] => idle
  | notices => reporting range notices

/-- How a worker goes on with the answer to its read. -/
def goOn (range : BlockRange) : AfterRead → Worker
  | .finished notices => telling range notices
  | .batch upgraded => writing range upgraded

end Worker

/-- The workers of a table with their queue and their channels. -/
structure Pool where
  table : Table
  /-- How many ranges may wait; any number if it is unset. -/
  capacity : Option Nat
  queue : List BlockRange := []
  /-- No more ranges will be sent. -/
  ended : Bool := false
  /-- The workers of this pool are told to stop. -/
  quit : Bool := false
  workers : List Worker
  readGaps : List Gap := []
  writeGaps : List Gap := []
  errors : List MigrationError := []
  /-- How many hold the sending ends of the channels: each worker until it exits, and whoever
  started the pool until it is handed over. -/
  senders : Nat
  /-- Whoever started the pool has let go of the sending ends. From then on the end of its workers
  is awaited. -/
  handedOver : Bool := false
  /-- Everyone who waits for the end of the pool has been told of it. -/
  done : Bool := false
deriving DecidableEq

/-- A step of a pool. -/
inductive PoolMove
  | send (range : BlockRange)
  | endSource
  | quit
  /-- A worker looks whether it has to stop, and sees that it does not. -/
  | look (worker : Nat)
  /-- A worker takes the first range and asks for its rows. -/
  | take (worker : Nat) (range : BlockRange)
  /-- A worker finds the queue empty. -/
  | sleep (worker : Nat)
  /-- A read is answered. -/
  | read (worker : Nat) (range : BlockRange) (answer : Except MigrationError OldRows)
  /-- A write is answered. -/
  | write (worker : Nat) (range : BlockRange) (rows : NewRows) (answer : Except MigrationError Nat)
  /-- A worker puts a notice into its channel. -/
  | tell (worker : Nat) (notice : Notice)
  | exit (worker : Nat)
  | handOver
  | finish
  | receiveReadGap (gap : Gap)
  | receiveWriteGap (gap : Gap)
  | receiveFailure (reason : MigrationError)

namespace Pool

/-- A pool of so many idle workers, which is not yet handed over. -/
def fresh (p : Policy) (t : Table) (capacity : Option Nat) : Pool where
  table := t
  capacity := capacity
  workers := .replicate p.workersPerTable .idle
  senders := p.workersPerTable + 1

/-- All workers have exited. -/
def exited (pool : Pool) : Bool := pool.workers.all (· = .exited)

/-- The queue takes ranges, now or once there is room: its source has not ended and there is a
worker left to take them. -/
def isOpen (pool : Pool) : Bool := !pool.ended && !pool.exited

/-- Something wakes the workers that are asleep: there is a range, or no more ranges will come. -/
def wakes (pool : Pool) : Bool := !pool.queue.isEmpty || pool.ended

/-- There is room for a range in the queue. -/
def hasRoom (pool : Pool) : Bool := pool.capacity.all (pool.queue.length < ·)

/-- The channels are empty. -/
def drained (pool : Pool) : Bool :=
  pool.readGaps.isEmpty && pool.writeGaps.isEmpty && pool.errors.isEmpty

/-- Changes what a worker is doing. -/
def put (pool : Pool) (i : Nat) (w : Worker) : Pool :=
  { pool with workers := pool.workers.set i w }

/-- Puts a notice into its channel. -/
def post (pool : Pool) : Notice → Pool
  | .gap .read g => { pool with readGaps := pool.readGaps ++ [g] }
  | .gap .write g => { pool with writeGaps := pool.writeGaps ++ [g] }
  | .failure reason => { pool with errors := pool.errors ++ [reason] }

/-- One step of a pool whose owner may be closing; none if the pool cannot make it. -/
def step (p : Policy) (closing : Bool) (pool : Pool) : PoolMove → Option Pool
  | .send range =>
    if pool.isOpen && pool.hasRoom then some { pool with queue := pool.queue ++ [range] } else none
  | .endSource => if pool.ended then none else some { pool with ended := true }
  | .quit => if pool.quit then none else some { pool with quit := true }
  | .look i =>
    if (pool.workers[i]? = some .idle ∨ pool.workers[i]? = some .asleep ∧ pool.wakes) ∧
        !(pool.quit || closing) then
      some (pool.put i .poised)
    else none
  | .take i range =>
    match pool.workers[i]?, pool.queue with
    | some .poised, first :: rest =>
      if first = range then some ({ pool with queue := rest }.put i (.reading range)) else none
    | _, _ => none
  | .sleep i =>
    if pool.workers[i]? = some .poised ∧ !pool.wakes then some (pool.put i .asleep) else none
  | .read i range answer =>
    if pool.workers[i]? = some (.reading range) then
      some (pool.put i (.goOn range (afterRead p pool.table range answer)))
    else none
  | .write i range rows answer =>
    match pool.workers[i]? with
    | some (.writing r upgraded) =>
      if r = range ∧ upgraded.rows = rows then
        some (pool.put i (.telling range (afterWrite range upgraded answer)))
      else none
    | _ => none
  | .tell i notice =>
    match pool.workers[i]? with
    | some (.reporting range (first :: rest)) =>
      if first = notice then some ((pool.put i (.telling range rest)).post notice) else none
    | _ => none
  | .exit i =>
    if (pool.workers[i]? = some .idle ∨ pool.workers[i]? = some .asleep) ∧ (pool.quit || closing) ∨
        pool.workers[i]? = some .poised ∧ pool.ended ∧ pool.queue = [] then
      some { pool.put i .exited with senders := pool.senders - 1 }
    else none
  | .handOver =>
    if pool.handedOver then none
    else some { pool with handedOver := true, senders := pool.senders - 1 }
  | .finish =>
    if pool.exited && pool.handedOver && !pool.done then some { pool with done := true } else none
  | .receiveReadGap gap =>
    match pool.readGaps with
    | first :: rest => if first = gap then some { pool with readGaps := rest } else none
    | [] => none
  | .receiveWriteGap gap =>
    match pool.writeGaps with
    | first :: rest => if first = gap then some { pool with writeGaps := rest } else none
    | [] => none
  | .receiveFailure reason =>
    match pool.errors with
    | first :: rest => if first = reason then some { pool with errors := rest } else none
    | [] => none

end Pool

end ChainMigration
