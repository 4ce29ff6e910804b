import ChainMigration.Proofs.EngineHistory
import ChainMigration.Run.Migration

/-! # Histories of migration runs

`MigrationRun.Step` says once what every event of a run needs and does. Every job of a run has a
pool of its own, and the ranges of its table are those that the moves of this pool sent and those
that are still unsent; what it has noted of gaps and failures is what was received from this pool.
`MigrationRun.Kept` is this invariant; every event of a run keeps it, as all but a start and a
completion are one event of the engine (`MigrationRun.Kept.engine`) that a job takes note of. -/

namespace ChainMigration

variable {p : Policy} {s : RunSetting} {e after : Engine} {r next : MigrationRun}
  {event : RunEvent} {events : List RunEvent} {moves : List PoolMove} {job job' : TableJob}
  {k : Nat}

/-! ### Runs -/

/-- The run after events; none if one of them cannot happen. -/
def MigrationRun.run? (r : MigrationRun) : List RunEvent → Option MigrationRun
  | [] => some r
  | event :: events => (r.step event).bind (·.run? events)

theorem MigrationRun.run?_concat (r : MigrationRun) (events : List RunEvent) (event : RunEvent) :
    r.run? (events ++ [event]) = (r.run? events).bind (·.step event) := by
  induction events generalizing r with
  | nil => exact Option.bind_fun_some _
  | cons event events ih =>
    rw [List.cons_append, run?, run?, Option.bind_assoc]
    exact Option.bind_congr fun next _ => ih next

/-- **Induction along a run.** -/
theorem MigrationRun.run_induction {P : List RunEvent → MigrationRun → Prop} (hbegin : P [] r)
    (hstep : ∀ {events event before after}, r.run? events = some before →
      step before event = some after → P events before → P (events ++ [event]) after)
    (h : r.run? events = some next) : P events next := by
  induction events using List.reverseRecOn generalizing next with
  | nil =>
    cases h
    exact hbegin
  | append_singleton events event ih =>
    rw [run?_concat] at h
    obtain ⟨before, hrun, hevent⟩ := Option.bind_eq_some_iff.mp h
    exact hstep hrun hevent (ih hrun)

/-- What each event of a run needs and what it does. -/
inductive MigrationRun.Step (r : MigrationRun) : RunEvent → MigrationRun → Prop
  | startTable {t : Table} {rest : List Table} (hwaiting : r.waiting = t :: rest) :
    Step r .startTable (r.startTable t rest)
  | engine {ev : Event} {after : Engine} (hfree : ev.isFree = true)
    (hstep : r.engine.step ev = some after) : Step r (.engine ev) { r with engine := after }
  | supply {i : Nat} {job : TableJob} {range : BlockRange} {rest : List BlockRange}
    {after : Engine} (hi : r.jobs[i]? = some job) (hunsent : job.unsent = range :: rest)
    (hsupplying : job.supplying = true)
    (hstep : r.engine.step (.pool job.pool (.send range)) = some after) :
    Step r (.supply i range) { r with
      engine := after
      jobs := r.jobs.set i { job with unsent := rest, sent := job.sent + 1 } }
  | endSupply {i : Nat} {job : TableJob} {after : Engine} (hi : r.jobs[i]? = some job)
    (hsupplying : job.supplying = true) (hmay : r.mayEndSupply job = true)
    (hstep : r.engine.step (.pool job.pool .endSource) = some after) :
    Step r (.endSupply i) { r with
      engine := after
      jobs := r.jobs.set i { job with supplying := false } }
  | receive {i : Nat} {job : TableJob} {receipt : Receipt} {after : Engine}
    (hi : r.jobs[i]? = some job)
    (hstep : r.engine.step (.pool job.pool receipt.move) = some after) :
    Step r (.receive i receipt) { r with
      engine := after
      files := job.file r.files receipt
      jobs := r.jobs.set i (job.receive receipt) }
  | complete {i : Nat} {job : TableJob} (hi : r.jobs[i]? = some job)
    (hcomplete : job.complete = false) (hmay : r.mayComplete job = true) :
    Step r (.complete i) { r with jobs := r.jobs.set i { job with complete := true } }

theorem TableJob.pool_receive (job : TableJob) (receipt : Receipt) :
    (job.receive receipt).pool = job.pool := by
  cases receipt <;> rfl

/-- **An event of a run does nothing else.** -/
theorem MigrationRun.Step.of_step (h : r.step event = some next) : r.Step event next := by
  cases event with
  | startTable =>
    rw [step] at h
    split at h
    · next t rest hwaiting =>
      cases h
      exact .startTable hwaiting
    · cases h
  | engine ev =>
    obtain ⟨hfree, hmap⟩ := Option.ite_none_right_eq_some.mp h
    obtain ⟨after, hstep, rfl⟩ := Option.map_eq_some_iff.mp hmap
    exact .engine hfree hstep
  | supply i range =>
    rw [step] at h
    split at h
    · next job hi =>
      split at h
      · next first rest hunsent =>
        obtain ⟨hc, hmove⟩ := Option.ite_none_right_eq_some.mp h
        rw [Bool.and_eq_true, decide_eq_true_iff] at hc
        obtain ⟨rfl, hsupplying⟩ := hc
        obtain ⟨after, hstep, rfl⟩ := Option.map_eq_some_iff.mp hmove
        exact .supply hi hunsent hsupplying hstep
      · cases h
    · cases h
  | endSupply i =>
    rw [step] at h
    split at h
    · next job hi =>
      obtain ⟨hc, hmove⟩ := Option.ite_none_right_eq_some.mp h
      rw [Bool.and_eq_true] at hc
      obtain ⟨after, hstep, rfl⟩ := Option.map_eq_some_iff.mp hmove
      exact .endSupply hi hc.1 hc.2 hstep
    · cases h
  | receive i receipt =>
    rw [step] at h
    split at h
    · next job hi =>
      obtain ⟨moved, hmove, rfl⟩ := Option.map_eq_some_iff.mp h
      obtain ⟨after, hstep, rfl⟩ := Option.map_eq_some_iff.mp hmove
      rw [job.pool_receive] at hstep
      exact .receive hi hstep
    · cases h
  | complete i =>
    rw [step] at h
    split at h
    · next job hi =>
      obtain ⟨hc, ⟨⟩⟩ := Option.ite_none_right_eq_some.mp h
      rw [Bool.and_eq_true, Bool.not_eq_true'] at hc
      exact .complete hi hc.1 hc.2
    · cases h

theorem MigrationRun.startTable_of_open {t : Table} {readFile writeFile : GapFile}
    {files : FileTree}
    (h : (openGapFiles r.setting t).run.run r.files = (.ok (readFile, writeFile), files))
    (rest : List Table) :
    r.startTable t rest = { r with
      engine := (r.engine.migrate t (some 1)).2, files, waiting := rest,
      jobs := r.jobs ++ [{
        table := t, pool := r.engine.pools.length, readFile, writeFile,
        unsent := t.planned r.setting.ranges }] } := by
  rw [startTable, h]
  rfl

/-- The move of the pool of a job that an event is, in a run that found so many pools before it. -/
def RunEvent.moveOf (found j : Nat) : RunEvent → List PoolMove
  | startTable | complete _ => []
  | engine event => event.moveOf (found + j)
  | supply i range => if i = j then [.send range] else []
  | endSupply i => if i = j then [.endSource] else []
  | receive i receipt => if i = j then [receipt.move] else []

/-- The moves of the pool of a job among events, once it was started and handed over. -/
def jobMoves (found j : Nat) (events : List RunEvent) : List PoolMove :=
  events.flatMap (·.moveOf found j)

/-! ### Jobs -/

/-- What a job makes of a move of its pool. -/
structure TableJob.Notes (moves : List PoolMove) (job job' : TableJob) : Prop where
  table : job'.table = job.table
  pool : job'.pool = job.pool
  complete : job'.complete = job.complete
  unsent : job.unsent = moves.flatMap (·.sent) ++ job'.unsent
  sent : job'.sent = job.sent + (moves.flatMap (·.sent)).length
  supplying : job'.supplying = (job.supplying && !moves.any (·.isEnd))
  readGaps : job'.readGaps = job.readGaps ++ moves.flatMap (·.gapReceived .read)
  writeGaps : job'.writeGaps = job.writeGaps ++ moves.flatMap (·.gapReceived .write)
  errors : job'.errors = job.errors + (moves.flatMap (·.failureReceived)).length

namespace TableJob

theorem notes_nil (job : TableJob) : job.Notes [] job where
  table := rfl
  pool := rfl
  complete := rfl
  unsent := rfl
  sent := rfl
  supplying := (Bool.and_true _).symm
  readGaps := (List.append_nil _).symm
  writeGaps := (List.append_nil _).symm
  errors := rfl

theorem notes_send {range : BlockRange} {rest : List BlockRange} (h : job.unsent = range :: rest) :
    job.Notes [.send range] { job with unsent := rest, sent := job.sent + 1 } :=
  { job.notes_nil with unsent := h, sent := rfl }

theorem notes_endSource (job : TableJob) : job.Notes [.endSource] { job with supplying := false } :=
  { job.notes_nil with supplying := (Bool.and_false _).symm }

theorem notes_receive (job : TableJob) (receipt : Receipt) :
    job.Notes [receipt.move] (job.receive receipt) := by
  cases receipt with
  | readGap gap => exact { job.notes_nil with readGaps := rfl }
  | writeGap gap => exact { job.notes_nil with writeGaps := rfl }
  | failure reason => exact { job.notes_nil with errors := rfl }

theorem notes_of_isFree {event : Event} (job : TableJob) (h : event.isFree = true) (k : Nat) :
    job.Notes (event.moveOf k) job := by
  cases event with
  | pool i move =>
    rw [Event.moveOf]
    split
    · cases move with
      | send | endSource | receiveReadGap | receiveWriteGap | receiveFailure => cases h
      | _ => exact { job.notes_nil with }
    · exact job.notes_nil
  | _ => exact job.notes_nil

end TableJob

/-- The job has the `k`-th pool of the engine, which has made these moves since it was handed over,
and what the job has noted of them is true. -/
structure TableJob.Kept (p : Policy) (s : RunSetting) (moves : List PoolMove) (e : Engine) (k : Nat)
    (job : TableJob) : Prop where
  pool_eq : job.pool = k
  planned : job.table.planned s.ranges = moves.flatMap (·.sent) ++ job.unsent
  sent : job.sent = (moves.flatMap (·.sent)).length
  readGaps : job.readGaps = moves.flatMap (·.gapReceived .read)
  writeGaps : job.writeGaps = moves.flatMap (·.gapReceived .write)
  errors : job.errors = (moves.flatMap (·.failureReceived)).length
  history : ∃ pool, e.pools[k]? = some pool ∧ pool.table = job.table ∧ pool.capacity = some 1 ∧
    pool.History p moves ∧ (job.complete = true → pool.done = true)
  /-- The source of the pool is open as long as the supplier has not ended, and nothing is left in
  the channels of a complete table. -/
  ended : ∀ pool, e.pools[k]? = some pool →
    job.supplying = !pool.ended ∧ (job.complete = true → pool.drained = true)

/-- **A job that notes what its pool does stays true**, whatever else happens in the engine. -/
theorem TableJob.Kept.step {event : Event} (hjob : job.Kept p s moves e k) (hp : e.policy = p)
    (h : e.step event = some after) (hnotes : job.Notes (event.moveOf k) job') :
    job'.Kept p s (moves ++ event.moveOf k) after k := by
  obtain ⟨pool, hpool, htable, hcapacity, hhistory, hdone⟩ := hjob.history
  obtain ⟨hsupplying, hdrained⟩ := hjob.ended pool hpool
  have hended : ∃ next, after.pools[k]? = some next ∧ next.table = job.table ∧
      next.capacity = some 1 ∧ next.History p (moves ++ event.moveOf k) ∧
      (job.complete = true → next.done = true) ∧
      (job.supplying && !(event.moveOf k).any (·.isEnd)) = !next.ended ∧
      (job.complete = true → next.drained = true) := by
    rcases Engine.pool_of_step h k with
      ⟨hm, heq⟩ | ⟨-, rfl, -⟩ | ⟨move, pool', next, rfl, hi, hi', hmove⟩
    · rw [hm, List.append_nil, heq]
      exact ⟨pool, hpool, htable, hcapacity, hhistory, hdone,
        (Bool.and_true _).trans hsupplying, hdrained⟩
    · rw [List.getElem?_eq_none (Nat.le_refl _)] at hpool
      cases hpool
    · rw [hpool] at hi
      cases hi
      rw [hp] at hmove
      rw [Event.moveOf, if_pos rfl]
      refine ⟨next, hi', hmove.table.trans htable, hmove.capacity.trans hcapacity,
        .move hhistory hmove, fun hc => hmove.done (hdone hc), ?_,
        fun hc => hmove.drained (hhistory.exited_of_done (hdone hc)) (hdrained hc)⟩
      rw [List.any_cons, List.any_nil, Bool.or_false, hsupplying, hmove.ended_eq, Bool.not_or]
  obtain ⟨next, hnext, htable', hcapacity', hhistory', hdone', hended', hdrained'⟩ := hended
  refine ⟨hnotes.pool.trans hjob.pool_eq, ?_, ?_, ?_, ?_, ?_, ?_, fun pool' hpool' => ?_⟩
  · rw [hnotes.table, hjob.planned, hnotes.unsent, List.flatMap_append, List.append_assoc]
  · rw [hnotes.sent, hjob.sent, List.flatMap_append, List.length_append]
  · rw [hnotes.readGaps, hjob.readGaps, List.flatMap_append]
  · rw [hnotes.writeGaps, hjob.writeGaps, List.flatMap_append]
  · rw [hnotes.errors, hjob.errors, List.flatMap_append, List.length_append]
  · rw [hnotes.table, hnotes.complete]
    exact ⟨next, hnext, htable', hcapacity', hhistory', hdone'⟩
  · rw [hnext] at hpool'
    cases hpool'
    rw [hnotes.supplying, hnotes.complete]
    exact ⟨hended', hdrained'⟩

theorem TableJob.Kept.of_pool_eq (hjob : job.Kept p s moves e k)
    (h : after.pools[k]? = e.pools[k]?) : job.Kept p s moves after k :=
  { hjob with history := h ▸ hjob.history, ended := h ▸ hjob.ended }

theorem Engine.pools_migrate (e : Engine) (t : Table) (capacity : Option Nat) :
    (e.migrate t capacity).2.pools = e.pools ++ [.begun e.policy t capacity true] ∧
      (e.migrate t capacity).2.policy = e.policy ∧
      (e.migrate t capacity).2.closing = e.closing := by
  have hheld : ({ e with
        pools := e.pools ++ [.fresh e.policy t capacity]
        unregistered := e.unregistered ++ [.pool e.pools.length] } : Engine).step
      (.pool e.pools.length .handOver) = some { e with
        pools := e.pools ++ [.begun e.policy t capacity true]
        unregistered := e.unregistered ++ [.pool e.pools.length] } := by
    simp only [step, List.getElem?_concat_length, List.set_append_right _ _ (Nat.le_refl _),
      Nat.sub_self, List.set_cons_zero]
    rfl
  dsimp only [migrate, after, List.foldl_cons, List.foldl_nil]
  rw [step, Option.getD_some, hheld, Option.getD_some, step]
  split <;> exact ⟨rfl, rfl, rfl⟩

namespace MigrationRun

/-- **The jobs of a run** have the pools that it started, in order, and note what these do. -/
structure Kept (e : Engine) (s : RunSetting) (events : List RunEvent) (r : MigrationRun) :
    Prop where
  setting : r.setting = s
  policy : r.engine.policy = e.policy
  reachable : e.Reachable → r.engine.Reachable
  length_pools : r.engine.pools.length = e.pools.length + r.jobs.length
  jobs : ∀ (j : Nat) (job : TableJob), r.jobs[j]? = some job →
    job.Kept e.policy s (jobMoves e.pools.length j events) r.engine (e.pools.length + j)
  unstarted : ∀ j, r.jobs.length ≤ j → jobMoves e.pools.length j events = []

theorem jobMoves_concat (found j : Nat) (events : List RunEvent) (event : RunEvent) :
    jobMoves found j (events ++ [event]) = jobMoves found j events ++ event.moveOf found j := by
  rw [jobMoves, List.flatMap_append, List.flatMap_singleton]
  rfl

theorem jobMoves_concat_of_nil {found j : Nat} {events : List RunEvent} {event : RunEvent}
    (h : event.moveOf found j = []) :
    jobMoves found j (events ++ [event]) = jobMoves found j events := by
  rw [jobMoves_concat, h, List.append_nil]

namespace Kept

theorem begin (s : RunSetting) (e : Engine) (files : FileTree) (tables : List Table) :
    (begin s e files tables).Kept e s [] where
  setting := rfl
  policy := rfl
  reachable := id
  length_pools := rfl
  jobs := nofun
  unstarted _ _ := rfl

/-- An event that goes on in the engine and that the jobs take note of. -/
theorem engine {ev : Event} (hr : r.Kept e s events) (h : r.engine.step ev = some next.engine)
    (hstart : ∀ t capacity, ev ≠ .start t capacity) (hsetting : next.setting = r.setting)
    (hlen : next.jobs.length = r.jobs.length)
    (hmove : ∀ j, event.moveOf e.pools.length j = ev.moveOf (e.pools.length + j))
    (hjobs : ∀ (j : Nat) (job' : TableJob), next.jobs[j]? = some job' →
      ∃ job : TableJob, r.jobs[j]? = some job ∧ job.Notes (ev.moveOf (e.pools.length + j)) job') :
    next.Kept e s (events ++ [event]) where
  setting := hsetting.trans hr.setting
  policy := (Engine.policy_of_step h).trans hr.policy
  reachable he := (hr.reachable he).step h
  length_pools := by
    rw [hlen, ← hr.length_pools]
    have hstep := Engine.Step.of_step h
    generalize next.engine = after at hstep
    cases hstep with
    | start t capacity => exact absurd rfl (hstart t capacity)
    | pool => exact List.length_set
    | _ => rfl
  jobs j job' hj := by
    obtain ⟨job, hjob, hnotes⟩ := hjobs j job' hj
    rw [jobMoves_concat, hmove]
    exact (hr.jobs j job hjob).step hr.policy h hnotes
  unstarted j hj := by
    rw [hlen] at hj
    rw [jobMoves_concat, hr.unstarted j hj, hmove, List.nil_append]
    rcases Engine.pool_of_step h (e.pools.length + j) with
      ⟨hm, -⟩ | ⟨hm, -⟩ | ⟨move, pool, _, -, hi, -⟩
    · exact hm
    · exact hm
    · have hlt := (List.getElem?_eq_some_iff.mp hi).1
      rw [hr.length_pools] at hlt
      omega

theorem startTable (hr : r.Kept e s events) (t : Table) (rest : List Table) :
    (r.startTable t rest).Kept e s (events ++ [.startTable]) := by
  have hmoves : ∀ j, jobMoves e.pools.length j (events ++ [.startTable]) =
      jobMoves e.pools.length j events := fun j => jobMoves_concat_of_nil rfl
  unfold MigrationRun.startTable
  split
  · exact ⟨hr.setting, hr.policy, hr.reachable, hr.length_pools,
      fun j job hj => hmoves j ▸ hr.jobs j job hj, fun j hj => hmoves j ▸ hr.unstarted j hj⟩
  · obtain ⟨hpools, hpolicy, -⟩ := r.engine.pools_migrate t (some 1)
    have hlen := hr.length_pools
    refine ⟨hr.setting, hpolicy.trans hr.policy,
      fun he => Engine.reachable_after (hr.reachable he) _, ?_, fun j job hj => ?_, fun j hj => ?_⟩
    · rw [hpools, List.length_append, List.length_append, hlen, Nat.add_assoc]
      rfl
    · rw [hmoves]
      rcases Nat.lt_or_ge j r.jobs.length with hlt | hge
      · -- An earlier job keeps its pool.
        rw [List.getElem?_append_left hlt] at hj
        refine (hr.jobs j job hj).of_pool_eq ?_
        rw [hpools]
        exact List.getElem?_append_left (by omega)
      · rw [List.getElem?_append_right hge, List.getElem?_singleton] at hj
        obtain ⟨hlast, ⟨⟩⟩ := Option.ite_none_right_eq_some.mp hj
        have hj' : e.pools.length + j = r.engine.pools.length := by omega
        have hpool : (r.engine.migrate t (some 1)).2.pools[r.engine.pools.length]? =
            some (.begun e.policy t (some 1) true) := by
          rw [hpools, hr.policy]
          exact List.getElem?_concat_length
        rw [hr.unstarted j hge, hj']
        refine ⟨rfl, ?_, rfl, rfl, rfl, rfl,
          ⟨_, hpool, rfl, rfl, .fresh t (some 1) true, nofun⟩, fun pool hpool' => ?_⟩
        · rw [hr.setting]
          rfl
        · rw [hpool] at hpool'
          cases hpool'
          exact ⟨rfl, nofun⟩
    · rw [List.length_append] at hj
      rw [hmoves]
      exact hr.unstarted j (by omega)

theorem complete {i : Nat} (hr : r.Kept e s events) (hi : r.jobs[i]? = some job)
    (hmay : r.mayComplete job = true) :
    Kept e s (events ++ [.complete i])
      { r with jobs := r.jobs.set i { job with complete := true } } := by
  have hmoves : ∀ j, jobMoves e.pools.length j (events ++ [.complete i]) =
      jobMoves e.pools.length j events := fun j => jobMoves_concat_of_nil rfl
  refine ⟨hr.setting, hr.policy, hr.reachable, ?_, fun j job' hj => ?_, fun j hj => ?_⟩
  · rw [List.length_set]
    exact hr.length_pools
  · rw [hmoves]
    by_cases hij : i = j
    · subst hij
      rw [List.getElem?_set_self (List.getElem?_eq_some_iff.mp hi).1] at hj
      cases hj
      have hjob := hr.jobs i job hi
      obtain ⟨pool, hpool, htable, hcapacity, hhistory, -⟩ := hjob.history
      rw [mayComplete, hjob.pool_eq, hpool, Option.any_some, Bool.and_eq_true, Bool.and_eq_true]
        at hmay
      refine { hjob with
        history := ⟨pool, hpool, htable, hcapacity, hhistory, fun _ => hmay.2.1⟩
        ended := fun pool' hpool' => ⟨(hjob.ended pool' hpool').1, fun _ => ?_⟩ }
      rw [hpool] at hpool'
      cases hpool'
      exact hmay.2.2
    · rw [List.getElem?_set_ne hij] at hj
      exact hr.jobs j job' hj
  · rw [List.length_set] at hj
    rw [hmoves]
    exact hr.unstarted j hj

/-- An event that is a move on behalf of a job, of which the job takes note. -/
theorem move {i : Nat} {m : PoolMove} (hr : r.Kept e s events) (hi : r.jobs[i]? = some job)
    (h : r.engine.step (.pool job.pool m) = some after) (hnotes : job.Notes [m] job')
    (hmove : ∀ j, event.moveOf e.pools.length j = if i = j then [m] else []) :
    Kept e s (events ++ [event]) { r with engine := after, jobs := r.jobs.set i job' } := by
  rw [(hr.jobs i job hi).pool_eq] at h
  have hev : ∀ j, Event.moveOf (e.pools.length + j) (.pool (e.pools.length + i) m) =
      if i = j then [m] else [] :=
    fun j => if_congr Nat.add_left_cancel_iff rfl rfl
  refine hr.engine h nofun rfl List.length_set (fun j => (hmove j).trans (hev j).symm)
    fun j job'' hj => ?_
  rw [hev]
  by_cases hij : i = j
  · subst hij
    rw [List.getElem?_set_self (List.getElem?_eq_some_iff.mp hi).1] at hj
    cases hj
    rw [if_pos rfl]
    exact ⟨job, hi, hnotes⟩
  · rw [List.getElem?_set_ne hij] at hj
    rw [if_neg hij]
    exact ⟨job'', hj, job''.notes_nil⟩

theorem step (hr : r.Kept e s events) (h : r.step event = some next) :
    next.Kept e s (events ++ [event]) := by
  cases Step.of_step h with
  | @startTable t rest => exact hr.startTable t rest
  | @engine ev _ hfree hstep =>
    have hstart : ∀ t capacity, ev ≠ .start t capacity := by
      rintro t capacity rfl
      cases hfree
    exact hr.engine hstep hstart rfl rfl (fun _ => rfl) fun j job hj =>
      ⟨job, hj, job.notes_of_isFree hfree _⟩
  | supply hi hunsent _ hstep => exact hr.move hi hstep (TableJob.notes_send hunsent) fun j => rfl
  | @endSupply _ job _ hi _ _ hstep => exact hr.move hi hstep job.notes_endSource fun j => rfl
  | @receive i job receipt _ hi hstep =>
    have hmoved : Kept e s (events ++ [.receive i receipt]) _ :=
      hr.move hi hstep (job.notes_receive receipt) fun j => rfl
    exact { hmoved with }
  | complete hi _ hmay => exact hr.complete hi hmay

end Kept

theorem kept_of_run {files : FileTree} {tables : List Table}
    (h : (begin s e files tables).run? events = some r) : r.Kept e s events :=
  run_induction (P := fun events r => r.Kept e s events) (.begin s e files tables)
    (fun _ hstep hkept => hkept.step hstep) h

end MigrationRun

end ChainMigration
