import ChainMigration.Proofs.NextEvent
import ChainMigration.Proofs.RunHistory
import ChainMigration.Run.Schedule

/-! # Runs get to their end

A run neither stands still nor goes on forever. Whatever has happened before, what
`MigrationRun.next?` finds can happen (`MigrationRun.possible_of_next?`), and where it finds nothing
although no call has to wait, every table is complete (`MigrationRun.complete_of_next?`). And every
run is finite, as each event brings it nearer to its end (`MigrationRun.exists_run?_eq_none`). -/

namespace ChainMigration

variable {replies : Replies} {ends : Endpoints} {s : RunSetting} {e : Engine}
  {r next : MigrationRun} {event : RunEvent} {events : List RunEvent} {pool : Pool}
  {move : PoolMove} {job job' : TableJob} {i : Nat}

/-- Someone stops a pool or closes the engine of a run. -/
def RunEvent.isOrder : RunEvent → Bool
  | engine event => event.isOrder
  | _ => false

namespace MigrationRun

theorem jobsEvent?_eq (r : MigrationRun) :
    ∀ (jobs : List TableJob) (i : Nat), r.jobsEvent? i jobs =
      (jobs.zipIdx i).findSome? fun x => r.jobEvent? x.2 x.1
  | [], _ => rfl
  | job :: jobs, i => by
    rw [jobsEvent?, List.zipIdx_cons, List.findSome?_cons]
    cases r.jobEvent? i job with
    | some event => rfl
    | none => exact jobsEvent?_eq r jobs (i + 1)

/-! ### What is found can happen -/

theorem exists_move (job : TableJob) (hpool : r.engine.pools[job.pool]? = some pool)
    (h : (pool.step r.engine.policy r.engine.closing.stops move).isSome = true) (i : Nat) :
    ∃ next, r.move i job move = some next := by
  obtain ⟨after, hstep⟩ := Option.isSome_iff_exists.mp h
  refine ⟨{ r with
    engine := { r.engine with pools := r.engine.pools.set job.pool after }
    jobs := r.jobs.set i job }, ?_⟩
  rw [MigrationRun.move, Engine.step, hpool]
  dsimp only
  rw [hstep]
  rfl

theorem exists_receive {receipt : Receipt} (hi : r.jobs[i]? = some job)
    (hpool : r.engine.pools[job.pool]? = some pool)
    (h : (pool.step r.engine.policy r.engine.closing.stops receipt.move).isSome = true) :
    ∃ next, r.step (.receive i receipt) = some next := by
  rw [← (job.notes_receive receipt).pool] at hpool
  obtain ⟨next, hmove⟩ := exists_move (job.receive receipt) hpool h i
  refine ⟨{ next with files := job.file next.files receipt }, ?_⟩
  rw [step, hi]
  exact congrArg (Option.map _) hmove

theorem exists_endSupply (hi : r.jobs[i]? = some job)
    (hpool : r.engine.pools[job.pool]? = some pool) (hsupplying : job.supplying = true)
    (hended : pool.ended = false) (hmay : r.mayEndSupply job = true) :
    ∃ next, r.step (.endSupply i) = some next := by
  have hsource : (pool.step r.engine.policy r.engine.closing.stops .endSource).isSome = true := by
    rw [Pool.step, hended]
    rfl
  obtain ⟨next, hmove⟩ := exists_move { job with supplying := false } hpool hsource i
  refine ⟨next, ?_⟩
  rw [step, hi]
  dsimp only
  rw [hsupplying, hmay]
  exact hmove

theorem exists_supply {range : BlockRange} {rest : List BlockRange} (hi : r.jobs[i]? = some job)
    (hpool : r.engine.pools[job.pool]? = some pool) (hsupplying : job.supplying = true)
    (hunsent : job.unsent = range :: rest) (hopen : pool.isOpen = true)
    (hroom : pool.hasRoom = true) : ∃ next, r.step (.supply i range) = some next := by
  have hsend : (pool.step r.engine.policy r.engine.closing.stops (.send range)).isSome = true := by
    rw [Pool.step, hopen, hroom]
    rfl
  obtain ⟨next, hmove⟩ :=
    exists_move { job with unsent := rest, sent := job.sent + 1 } hpool hsend i
  refine ⟨next, ?_⟩
  rw [step, hi]
  dsimp only
  rw [hunsent]
  dsimp only
  rw [if_pos (by rw [hsupplying, decide_eq_true rfl]; rfl)]
  exact hmove

theorem possible_of_jobEvent? (hi : r.jobs[i]? = some job)
    (hsource : ∀ pool, r.engine.pools[job.pool]? = some pool → job.supplying = !pool.ended)
    (h : r.jobEvent? i job = some event) :
    (∃ next, r.step event = some next) ∧ event.isOrder = false := by
  rw [jobEvent?] at h
  split at h
  · cases h
  next pool hpool =>
  split at h
  · next hgaps =>
    cases h
    refine ⟨exists_receive hi hpool ?_, rfl⟩
    rw [Receipt.move, Pool.step, hgaps]
    exact congrArg Option.isSome (if_pos rfl)
  · next hgaps =>
    cases h
    refine ⟨exists_receive hi hpool ?_, rfl⟩
    rw [Receipt.move, Pool.step, hgaps]
    exact congrArg Option.isSome (if_pos rfl)
  · next herrors =>
    cases h
    refine ⟨exists_receive hi hpool ?_, rfl⟩
    rw [Receipt.move, Pool.step, herrors]
    exact congrArg Option.isSome (if_pos rfl)
  · split at h
    · next hsupplying =>
      have hended : pool.ended = false := by
        rwa [hsource pool hpool, Bool.not_eq_true'] at hsupplying
      split at h
      · next hmay =>
        cases h
        exact ⟨exists_endSupply hi hpool hsupplying hended hmay, rfl⟩
      · next hmay =>
        obtain ⟨hroom, hhead⟩ := Option.ite_none_right_eq_some.mp h
        obtain ⟨range, hrange, rfl⟩ := Option.map_eq_some_iff.mp hhead
        obtain ⟨rest, hunsent⟩ := List.head?_eq_some_iff.mp hrange
        rw [mayEndSupply, hpool, Option.any_some, Bool.or_eq_true, not_or, Bool.not_eq_true',
          Bool.not_eq_false] at hmay
        exact ⟨exists_supply hi hpool hsupplying hunsent hmay.2 hroom, rfl⟩
    · obtain ⟨hmay, ⟨⟩⟩ := Option.ite_none_right_eq_some.mp h
      refine ⟨⟨{ r with jobs := r.jobs.set i { job with complete := true } }, ?_⟩, rfl⟩
      rw [step, hi]
      exact if_pos hmay

/-- **What is found can happen**, and it is not an order from outside. -/
theorem possible_of_next? (hr : r.Kept e s events) (h : r.next? replies = some event) :
    (∃ next, r.step event = some next) ∧ event.isOrder = false := by
  rw [next?] at h
  split at h
  · next hwaiting =>
    cases h
    obtain ⟨t, rest, hcons⟩ := List.exists_cons_of_ne_nil hwaiting
    refine ⟨⟨r.startTable t rest, ?_⟩, rfl⟩
    rw [step, hcons]
  · rw [Option.or_eq_some_iff, jobsEvent?_eq] at h
    rcases h with h | ⟨-, h⟩
    · obtain ⟨ev, hev, rfl⟩ := Option.map_eq_some_iff.mp h
      obtain ⟨⟨after, hstep⟩, hown⟩ := Engine.possible_of_next? hev
      rw [Event.isOwn, Bool.and_eq_true, Bool.not_eq_true'] at hown
      refine ⟨⟨{ r with engine := after }, ?_⟩, hown.2⟩
      rw [step, if_pos hown.1, hstep]
      rfl
    · obtain ⟨i, job, hi, hjob⟩ := exists_of_findSome?_zipIdx h
      refine possible_of_jobEvent? hi (fun pool hpool => ?_) hjob
      have hkept := hr.jobs i job hi
      rw [hkept.pool_eq] at hpool
      exact (hkept.ended pool hpool).1

/-! ### Where nothing is found -/

/-- Where a pool rests, its collector and its supplier have something to do or the table is
complete. -/
theorem complete_of_jobEvent? (hpool : r.engine.pools[job.pool]? = some pool)
    (hrests : pool.Rests) (hcapacity : pool.capacity = some 1)
    (hsource : job.supplying = !pool.ended) (h : r.jobEvent? i job = none) :
    job.complete = true := by
  have hlast : pool.exited = false → ∃ w ∈ pool.workers, w ≠ .exited := by
    intro hexited
    obtain ⟨w, hmem, hw⟩ := List.all_eq_false.mp hexited
    exact ⟨w, hmem, fun heq => hw (decide_eq_true heq)⟩
  rw [jobEvent?, hpool] at h
  dsimp only at h
  split at h
  · cases h
  · cases h
  · cases h
  · next hread hwrite herrors =>
    split at h
    · -- The supplier has ranges, but there is neither room for them nor a worker to make some.
      next hsupplying =>
      split at h
      · cases h
      next hmay =>
      rw [mayEndSupply, hpool, Option.any_some, Bool.or_eq_true, not_or, Bool.not_eq_true',
        Bool.not_eq_false, Pool.isOpen, Bool.and_eq_true, Bool.not_eq_true', Bool.not_eq_true',
        List.isEmpty_iff] at hmay
      obtain ⟨w, hmem, hw⟩ := hlast hmay.2.2
      have hqueue := (hrests.waits w hmem hw).1
      have hroom : pool.hasRoom = true := by
        rw [Pool.hasRoom, hcapacity, hqueue]
        rfl
      obtain ⟨range, rest, hunsent⟩ := List.exists_cons_of_ne_nil hmay.1
      rw [if_pos hroom, hunsent] at h
      cases h
    · next hsupplying =>
      have hexited : pool.exited = true := by
        by_contra hexited
        obtain ⟨w, hmem, hw⟩ := hlast (Bool.eq_false_iff.mpr hexited)
        rw [hsource, (hrests.waits w hmem hw).2] at hsupplying
        exact hsupplying rfl
      have hmay : r.mayComplete job = true := by
        rw [mayComplete, hpool, Option.any_some, hrests.done hexited, Pool.drained, hread, hwrite,
          herrors, Bool.eq_false_iff.mpr hsupplying]
        rfl
      by_contra hcomplete
      rw [hmay, Bool.eq_false_iff.mpr hcomplete] at h
      cases h

/-- **Where nothing is found, every table is started and complete**, if no call has to wait. -/
theorem complete_of_next? (he : e.Reachable) (hr : r.Kept e s events)
    (h : r.next? ends.replies = none) :
    r.waiting = [] ∧ ∀ job ∈ r.jobs, job.complete = true := by
  rw [next?] at h
  split at h
  · cases h
  · next hwaiting =>
    rw [Option.or_eq_none_iff, Option.map_eq_none_iff, jobsEvent?_eq] at h
    refine ⟨not_not.mp hwaiting, fun job hmem => ?_⟩
    obtain ⟨i, hi⟩ := List.mem_iff_getElem?.mp hmem
    have hjob := hr.jobs i job hi
    obtain ⟨pool, hpool, -, hcapacity, -⟩ := hjob.history
    have hrests := Engine.rests_of_next? (hr.reachable he) h.1 hpool
    refine complete_of_jobEvent? ?_ hrests hcapacity (hjob.ended pool hpool).1
      (eq_none_of_findSome?_zipIdx h.2 hi)
    rw [hjob.pool_eq]
    exact hpool

/-! ### No run goes on forever -/

/-- **Every run is finite**: of any sequence of events only so many can happen. -/
theorem exists_run?_eq_none (r : MigrationRun) (future : Nat → RunEvent) :
    ∃ n, r.run? ((List.range n).map future) = none := by
  have hacc : WellFounded Nearer :=
    (Prod.lex Nat.lt_wfRel (Prod.lex Nat.lt_wfRel Nat.lt_wfRel)).wf
  induction hd : r.distance using hacc.induction generalizing r future with
  | _ d ih =>
    subst hd
    cases hstep : r.step (future 0) with
    | none =>
      refine ⟨1, ?_⟩
      rw [List.range_one, List.map_singleton, run?, hstep]
      rfl
    | some next =>
      obtain ⟨n, hn⟩ := ih _ (progress_of_step hstep) next (fun k => future (k + 1)) rfl
      refine ⟨n + 1, ?_⟩
      rw [List.range_succ_eq_map, List.map_cons, List.map_map, run?, hstep]
      exact hn

end MigrationRun

end ChainMigration
