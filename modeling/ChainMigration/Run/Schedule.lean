import ChainMigration.Run.Migration

/-! # One order of a run

`MigrationRun.settle` lets a run go on by itself: tables are started first, then the engine goes on
as far as it can, then a collector receives or a supplier sends. It ends because every event brings
the run nearer to its end, which is the main statement: `MigrationRun.progress_of_step`. -/

namespace ChainMigration

/-! ### Counts -/

theorem Pool.Step.phases_of_send {p : Policy} {closing : Bool} {pool next : Pool}
    {range : BlockRange} (h : pool.Step p closing (.send range) next) :
    next.phases = pool.phases + 3 := by
  cases h with
  | send =>
    simp only [phases, List.length_append, List.length_singleton]
    omega

theorem Engine.phases_of_send {e next : Engine} {i : Nat} {range : BlockRange}
    (h : e.step (.pool i (.send range)) = some next) : next.phases = e.phases + 3 := by
  cases Step.of_step h with
  | @pool i move pool after hi hmove =>
    have hphases := total_set Pool.phases after _ _ _ hi
    have hsent := hmove.phases_of_send
    simp only [phases] at hphases hsent ⊢
    omega

theorem Event.addsWork_of_isFree {event : Event} (h : event.isFree = true) :
    event.addsWork = false := by
  cases event with
  | pool i move => cases move <;> simp_all [isFree, addsWork]
  | _ => simp_all [isFree, addsWork]

namespace MigrationRun

/-- The phases that ranges have ahead of them, sent or not. -/
def phases (r : MigrationRun) : Nat :=
  total (fun job => 4 * job.unsent.length) r.jobs + r.engine.phases

/-- What else is left to do in a run. -/
def owed (r : MigrationRun) : Nat :=
  total (fun job => (!job.complete).toNat) r.jobs + r.engine.owed

/-- How far a run is from its end: by the tables that wait, then by phases, then by what is owed. -/
def distance (r : MigrationRun) : Nat × Nat × Nat := (r.waiting.length, r.phases, r.owed)

/-- Distances in lexicographic order. -/
abbrev Nearer : Nat × Nat × Nat → Nat × Nat × Nat → Prop :=
  Prod.Lex (· < ·) (Prod.Lex (· < ·) (· < ·))

theorem nearer_of_lower {r next : MigrationRun} (hw : next.waiting = r.waiting)
    (h : Lower (next.phases, next.owed) (r.phases, r.owed)) : Nearer next.distance r.distance := by
  simp only [distance, hw]
  exact .right _ h.lex

theorem length_waiting_startTable (r : MigrationRun) (t : Table) (rest : List Table) :
    (r.startTable t rest).waiting.length ≤ rest.length := by
  unfold startTable
  split <;> simp

/-- A move on behalf of a job that neither sends nor changes what the job has left lowers the
counts. -/
theorem nearer_of_move {r next : MigrationRun} {i : Nat} {old job : TableJob} {move : PoolMove}
    (hi : r.jobs[i]? = some old) (h : r.move i job move = some next)
    (hsend : ∀ range, move ≠ .send range) (hunsent : job.unsent = old.unsent)
    (hcomplete : job.complete = old.complete) : Nearer next.distance r.distance := by
  simp only [MigrationRun.move, Option.map_eq_some_iff] at h
  obtain ⟨e, hs, rfl⟩ := h
  refine nearer_of_lower rfl ?_
  have hadds : (Event.pool job.pool move).addsWork = false := by
    cases move with
    | send range => exact absurd rfl (hsend range)
    | _ => rfl
  have hp := total_set (fun job : TableJob => 4 * job.unsent.length) job _ _ _ hi
  have ho := total_set (fun job : TableJob => (!job.complete).toNat) job _ _ _ hi
  have := Engine.progress_of_step hs hadds
  simp only [Lower, phases, owed, hunsent, hcomplete] at *
  omega

/-- Every event brings a run nearer to its end. -/
theorem progress_of_step {r next : MigrationRun} {event : RunEvent} (h : r.step event = some next) :
    Nearer next.distance r.distance := by
  cases event with
  | startTable =>
    simp only [step] at h
    split at h
    · next t rest hw =>
      cases h
      refine .left _ _ ?_
      have := length_waiting_startTable r t rest
      rw [hw, List.length_cons]
      omega
    · simp at h
  | engine event =>
    simp only [step] at h
    split at h
    · next hfree =>
      simp only [Option.map_eq_some_iff] at h
      obtain ⟨e, hs, rfl⟩ := h
      refine nearer_of_lower rfl ?_
      have := Engine.progress_of_step hs (Event.addsWork_of_isFree hfree)
      simp only [Lower, phases, owed] at *
      omega
    · simp at h
  | supply i range =>
    simp only [step] at h
    split at h
    · next job hi =>
      split at h
      · next first rest hu =>
        split at h
        · simp only [MigrationRun.move, Option.map_eq_some_iff] at h
          obtain ⟨e, hs, rfl⟩ := h
          refine nearer_of_lower rfl (.inl ?_)
          have hp := total_set (fun job : TableJob => 4 * job.unsent.length)
            { job with unsent := rest, sent := job.sent + 1 } _ _ _ hi
          have := Engine.phases_of_send hs
          simp only [phases, hu, List.length_cons] at *
          omega
        · simp at h
      · simp at h
    · simp at h
  | endSupply i =>
    simp only [step] at h
    split at h
    · next job hi =>
      split at h
      · exact nearer_of_move hi h (by simp) rfl rfl
      · simp at h
    · simp at h
  | receive i receipt =>
    simp only [step] at h
    split at h
    · next job hi =>
      simp only [Option.map_eq_some_iff] at h
      obtain ⟨moved, hm, rfl⟩ := h
      have := nearer_of_move hi hm (by cases receipt <;> simp [Receipt.move])
        (by cases receipt <;> rfl) (by cases receipt <;> rfl)
      exact this
    · simp at h
  | complete i =>
    simp only [step] at h
    split at h
    · next job hi =>
      split at h
      · next hc =>
        cases h
        have hp := total_set (fun job : TableJob => 4 * job.unsent.length)
          { job with complete := true } _ _ _ hi
        have ho := total_set (fun job : TableJob => (!job.complete).toNat)
          { job with complete := true } _ _ _ hi
        simp only [Bool.and_eq_true, Bool.not_eq_true'] at hc
        simp only [hc.1, Bool.not_true, Bool.not_false, Bool.toNat_true, Bool.toNat_false] at ho
        refine nearer_of_lower rfl (.inr ?_)
        simp only [phases, owed] at *
        omega
      · simp at h
    · simp at h

/-! ### The order -/

/-- What the collector or the supplier of a job does next. -/
def jobEvent? (r : MigrationRun) (i : Nat) (job : TableJob) : Option RunEvent :=
  match r.engine.pools[job.pool]? with
  | none => none
  | some pool =>
    match pool.readGaps, pool.writeGaps, pool.errors with
    | gap :: _, _, _ => some (.receive i (.readGap gap))
    | [], gap :: _, _ => some (.receive i (.writeGap gap))
    | [], [], reason :: _ => some (.receive i (.failure reason))
    | [], [], [] =>
      if job.supplying then
        if r.mayEndSupply job then some (.endSupply i)
        else if pool.hasRoom then (job.unsent.head?).map (.supply i)
        else none
      else if !job.complete && r.mayComplete job then some (.complete i)
      else none

/-- What happens next in the first job that can go on, counting jobs from `i`. -/
def jobsEvent? (r : MigrationRun) (i : Nat) : List TableJob → Option RunEvent
  | [] => none
  | job :: jobs =>
    match r.jobEvent? i job with
    | some event => some event
    | none => r.jobsEvent? (i + 1) jobs

/-- What happens next in a run by itself. -/
def next? (replies : Replies) (r : MigrationRun) : Option RunEvent :=
  if r.waiting ≠ [] then some .startTable
  else ((r.engine.next? replies).map .engine).or (r.jobsEvent? 0 r.jobs)

/-- What an event of a run shows. -/
def act? (r : MigrationRun) : RunEvent → Option Act
  | .engine event => r.engine.act? event
  | _ => none

/-- Lets a run go on until nothing can happen by itself; the acts that it shows come on top of the
given ones, the latest first. -/
def settle (replies : Replies) (r : MigrationRun) (acts : List Act) : MigrationRun × List Act :=
  match r.next? replies with
  | none => (r, acts)
  | some event =>
    match _ : r.step event with
    | none => (r, acts)
    | some next => next.settle replies ((r.act? event).toList ++ acts)
termination_by r.distance
decreasing_by exact progress_of_step ‹_›

end MigrationRun

/-- Migrates tables over ranges without any stop: the reports or the error that kept a table from
being started, the files, and the acts in order. -/
def migrateTables (ends : Endpoints) (s : RunSetting) (e : Engine) (files : FileTree)
    (tables : List Table) : MigrationRun × List Act :=
  let (r, acts) := (MigrationRun.begin s e files tables).settle ends.replies []
  (r, acts.reverse)

end ChainMigration
