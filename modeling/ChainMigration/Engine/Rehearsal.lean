import ChainMigration.Engine.Script
import ChainMigration.Engine.Transfer

/-! # Rehearsals

A rehearsal runs an engine over reads, writes and copies that are scripted instead of over
databases. A scripted read or copy may be held until it is released. After each order of the owner
the engine runs until it is at rest or all its calls are held; what it read, wrote and copied is
noted. -/

namespace ChainMigration

/-- A call that is under way. -/
inductive Call
  | read (pool worker : Nat) (answer : Except MigrationError OldRows)
  | copy

/-- The call is the read of a worker of a pool. -/
def Call.isReadOf (pool worker : Nat) : Call → Bool
  | read p w _ => p = pool && w = worker
  | copy => false

/-- The call is a copy. -/
def Call.isCopy : Call → Bool
  | read _ _ _ => false
  | copy => true

/-- The answer to a call that is a read. -/
def Call.answer? : Call → Option (Except MigrationError OldRows)
  | read _ _ answer => some answer
  | copy => none

/-- A call that is under way, with the range that releases it. -/
structure OpenCall where
  call : Call
  range : BlockRange
  held : Bool

/-- An engine over scripts. -/
structure Rehearsal where
  engine : Engine
  scripts : Scripts := {}
  /-- The calls that are under way, the oldest first. -/
  calls : List OpenCall := []
  /-- Releases of ranges for which no call was waiting. -/
  releases : List BlockRange := []
  acts : List Act := []

namespace Rehearsal

/-- How calls are answered. -/
def replies (r : Rehearsal) : Replies where
  rows pool worker _ _ :=
    (r.calls.find? fun c => c.call.isReadOf pool worker && !c.held).bind (·.call.answer?)
  written := r.scripts.write
  copied _ pages :=
    if r.calls.any fun c => c.call.isCopy && c.range = pages && !c.held then
      some (r.scripts.copy pages)
    else none

/-- Begins a call; one that is held goes on if its range was released before. -/
def begin (r : Rehearsal) (call : Call) (range : BlockRange) (held : Bool) : Rehearsal :=
  if held && r.releases.contains range then
    { r with calls := r.calls ++ [⟨call, range, false⟩], releases := r.releases.erase range }
  else { r with calls := r.calls ++ [⟨call, range, held⟩] }

/-- Ends calls. -/
def finish (r : Rehearsal) (ended : Call → Bool) : Rehearsal :=
  { r with calls := r.calls.filter (!ended ·.call) }

/-- Lets the oldest held call of a range among some calls go on, if there is one. -/
def unhold? (range : BlockRange) : List OpenCall → Option (List OpenCall)
  | [] => none
  | c :: cs =>
    if c.range = range && c.held then some ({ c with held := false } :: cs)
    else (unhold? range cs).map (c :: ·)

/-- Lets one held call of a range go on, now or later. -/
def release (r : Rehearsal) (range : BlockRange) : Rehearsal :=
  match unhold? range r.calls with
  | some calls => { r with calls }
  | none => { r with releases := r.releases ++ [range] }

/-- The calls after something happened. -/
def follow (r : Rehearsal) : Event → Rehearsal
  | .pool i (.take w range) =>
    match r.engine.pools[i]? with
    | some pool =>
      r.begin (.read i w (r.scripts.read pool.table range)) range (r.scripts.holds pool.table range)
    | none => r
  | .pool i (.read w _ _) => r.finish (·.isReadOf i w)
  | .transfer _ (.start pages) => r.begin .copy pages r.scripts.holdsCopies
  | .transfer _ (.copied _ _) => r.finish (·.isCopy)
  | _ => r

/-- Notes what happened in the engine, which is then as given. -/
def note (r : Rehearsal) (event : Event) (engine : Engine) : Rehearsal :=
  { r.follow event with engine, acts := r.acts ++ (r.engine.act? event).toList }

/-- Runs the engine until it is at rest or all its calls are held. -/
def settle (r : Rehearsal) : Rehearsal :=
  match _ : r.engine.next? r.replies with
  | none => r
  | some event =>
    match _ : r.engine.step event with
    | none => r
    | some engine => (r.note event engine).settle
termination_by (r.engine.phases, r.engine.owed)
decreasing_by
  exact (Engine.progress_of_step ‹_› (Engine.addsWork_of_next? ‹_›)).lex

/-! ### Orders of the owner -/

/-- What the owner of the engine orders. -/
inductive Order
  | start (table : Table)
  | send (pool : Nat) (range : BlockRange) (script : Option RangeScript)
  | release (range : BlockRange)
  | endSource (pool : Nat)
  | quit (pool : Nat)
  | close

/-- The rehearsal after an order, before the engine goes on; and whether a range was sent. -/
def obey (r : Rehearsal) : Order → Rehearsal × Option Bool
  | .start t => ({ r with engine := (r.engine.migrate t none).2 }, none)
  | .send i range script =>
    match r.engine.pools[i]? with
    | some pool =>
      let scripts := script.elim r.scripts (r.scripts.add pool.table range)
      ({ r with scripts, engine := r.engine.order i (.send range) }, some pool.isOpen)
    | none => (r, some false)
  | .release range => (r.release range, none)
  | .endSource i => ({ r with engine := r.engine.order i .endSource }, none)
  | .quit i => ({ r with engine := r.engine.order i .quit }, none)
  | .close => ({ r with engine := r.engine.close }, none)

/-- What arrived from a pool since it was last looked at. -/
structure Arrivals where
  table : Table
  done : Bool
  readGaps : List Gap
  writeGaps : List Gap
  errors : List MigrationError

/-- What arrived from a transfer since it was last looked at. -/
structure CopyArrivals where
  done : Bool
  failed : List BlockRange
  errors : List MigrationError

/-- What there is to see once the engine cannot go on. -/
structure Scene where
  closed : Bool
  pools : List Arrivals
  transfers : List CopyArrivals
  acts : List Act
  /-- Whether the order before it sent a range. -/
  sent : Option Bool

/-- Everything that waits in the channels of a pool. -/
def arrivals (pool : Pool) : Arrivals :=
  ⟨pool.table, pool.done, pool.readGaps, pool.writeGaps, pool.errors⟩

/-- Everything that waits in the channels of a transfer. -/
def copyArrivals (c : PageCopy) : CopyArrivals := ⟨c.done, c.failed, c.errors⟩

/-- Receiving everything that waits in the channels of a pool. -/
def receipts (pool : Pool) : List PoolMove :=
  pool.readGaps.map .receiveReadGap ++ pool.writeGaps.map .receiveWriteGap ++
    pool.errors.map .receiveFailure

/-- Receiving everything that waits in the channels of a transfer. -/
def copyReceipts (c : PageCopy) : List CopyMove :=
  c.failed.map .receiveFailed ++ c.errors.map .receiveFailure

/-- Receiving everything that waits in the channels of an engine. -/
def allReceipts (e : Engine) : List Event :=
  (e.pools.zipIdx.flatMap fun (pool, i) => (receipts pool).map (.pool i)) ++
    e.transfers.zipIdx.flatMap fun (c, i) => (copyReceipts c).map (.transfer i)

/-- Lets the engine go on, looks at it and receives everything in its channels. -/
def look (r : Rehearsal) (sent : Option Bool) : Scene × Rehearsal :=
  let r := r.settle
  let e := r.engine
  (⟨e.isClosed, e.pools.map arrivals, e.transfers.map copyArrivals, r.acts, sent⟩,
    { r with acts := [], engine := e.after (allReceipts e) })

/-- Obeys an order and tells what it led to. -/
def play (r : Rehearsal) (order : Order) : Scene × Rehearsal :=
  let (r, sent) := r.obey order
  r.look sent

/-- Obeys orders one after the other. -/
def scenes (r : Rehearsal) : List Order → List Scene
  | [] => []
  | order :: orders =>
    let (scene, r) := r.play order
    scene :: r.scenes orders

/-- Starts a transfer: how many segments it has and, in scenes, what its start and the orders after
it lead to. -/
def transferScenes (e : Engine) (s : Scripts) (c : TransferConfig)
    (lastPage : String → Except MigrationError UInt64) (orders : List Order) :
    Except MigrationError (Nat × List Scene) := do
  let (_, count, engine) ← e.startTransfer c lastPage
  let (scene, r) := look { engine, scripts := s, acts := c.lookUps } none
  return (count, scene :: r.scenes orders)

end Rehearsal

end ChainMigration
