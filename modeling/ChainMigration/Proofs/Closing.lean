import ChainMigration.Proofs.Done

/-! # Closing

When the connections of an engine are shut, nothing should be in flight: no worker between taking a
range and finishing it, no copier in the midst of a segment. What shutting waits for are the tasks
that were collected, so all depends on what is collected. Who cannot wait collects nothing, and
tasks that are started but not yet registered are missed (`shut_inFlight`). Of every other task it
is true, whatever else goes on: once the connections are shut it has nothing in flight and does not
use them any more (`Engine.idle_of_shut`).

Until the tasks are collected, whatever was started is unregistered, registered or done
(`Engine.Lists`). What is done is quiet for good. So is, once the workers are told to stop, what has
to look for a stop before it does anything, or is started only then (`Engine.Dormant`). A worker or
a copier that has looked before, and has seen none, may begin at any time later. -/

namespace ChainMigration

variable {p : Policy} {e after : Engine} {event : Event} {events later : List Event}
  {pool next : Pool} {move : PoolMove} {c c' : PageCopy} {copyMove : CopyMove} {task : EngineTask}

/-! ### What uses the connections -/

/-- A read or a write begins or is answered. -/
def PoolMove.isCall : PoolMove → Bool
  | take _ _ | read _ _ _ | write _ _ _ _ => true
  | _ => false

/-- The copy of a segment begins or is answered. -/
def CopyMove.isCall : CopyMove → Bool
  | start _ | copied _ _ => true
  | _ => false

/-- The event is one in which the task uses the connections of its engine. -/
def Event.calls (task : EngineTask) : Event → Bool
  | .pool i move => task = .pool i && move.isCall
  | .transfer i move => task = .transfer i && move.isCall
  | _ => false

theorem PoolMove.isWork_of_isCall {move : PoolMove} (h : move.isCall = true) :
    move.isWork = true := by
  cases move with
  | take | read | write => rfl
  | _ => cases h

theorem CopyMove.isWork_of_isCall {move : CopyMove} (h : move.isCall = true) :
    move.isWork = true := by
  cases move with
  | start | copied => rfl
  | _ => cases h

theorem Event.calls_pool (event : Event) (i : Nat) :
    event.calls (.pool i) = (event.moveOf i).any (·.isCall) := by
  cases event with
  | pool j move =>
    by_cases hij : j = i
    · rw [calls, moveOf, if_pos hij, hij, decide_eq_true rfl, Bool.true_and, List.any_cons,
        List.any_nil, Bool.or_false]
    · rw [calls, moveOf, if_neg hij, decide_eq_false (by rintro ⟨⟩; exact hij rfl)]
      rfl
  | _ => rfl

theorem Event.calls_transfer (event : Event) (i : Nat) :
    event.calls (.transfer i) = (event.copyMoveOf i).any (·.isCall) := by
  cases event with
  | transfer j move =>
    by_cases hij : j = i
    · rw [calls, copyMoveOf, if_pos hij, hij, decide_eq_true rfl, Bool.true_and, List.any_cons,
        List.any_nil, Bool.or_false]
    · rw [calls, copyMoveOf, if_neg hij, decide_eq_false (by rintro ⟨⟩; exact hij rfl)]
      rfl
  | _ => rfl

namespace Engine

/-- A worker of the pool is between taking a range and finishing it, or the copier of the transfer
is in the midst of a segment. -/
def inFlight (e : Engine) : EngineTask → Bool
  | .pool i => (e.pools[i]?).any (!·.inHand.isEmpty)
  | .transfer i => (e.transfers[i]?).any (·.copier.pages?.isSome)

/-- The task was started. -/
def isStarted (e : Engine) : EngineTask → Bool
  | .pool i => (e.pools[i]?).isSome
  | .transfer i => (e.transfers[i]?).isSome

/-- Whatever happens later, the task has nothing in flight and does not use the connections. -/
def Quiet (e : Engine) (task : EngineTask) : Prop :=
  ∀ later after, e.run? later = some after →
    after.inFlight task = false ∧ ∀ event ∈ later, event.calls task = false

theorem inFlight_pool {i : Nat} :
    e.inFlight (.pool i) = false ↔ ∀ pool, e.pools[i]? = some pool → pool.inHand = [] := by
  rw [inFlight, Option.any_eq_false]
  simp only [Bool.not_eq_false', List.isEmpty_iff]

theorem inFlight_transfer {i : Nat} :
    e.inFlight (.transfer i) = false ↔
      ∀ c, e.transfers[i]? = some c → c.copier.pages? = none := by
  rw [inFlight, Option.any_eq_false]
  simp only [Option.isSome_eq_false_iff, Option.isNone_iff_eq_none]

end Engine

/-- The tasks whose end is awaited, once they are collected. -/
def Closing.awaited : Closing → Option (List EngineTask)
  | .running | .marked | .signalled => none
  | .waiting tasks => some tasks
  | .shut => some []

/-! ### What never comes to look -/

/-- The worker has nothing in hand and has to look whether to stop before it takes anything. -/
def Worker.isDormant : Worker → Bool
  | idle | asleep | exited => true
  | _ => false

/-- The copier is not in the midst of a segment and has to look whether to stop before the next. -/
def Copier.isDormant : Copier → Bool
  | idle | failing _ | exited => true
  | _ => false

/-- The task has not been started, or all its workers, or its copier, have to look whether to stop
before they do anything. -/
def Engine.Dormant (e : Engine) : EngineTask → Prop
  | .pool i => ∀ pool, e.pools[i]? = some pool → ∀ w ∈ pool.workers, w.isDormant = true
  | .transfer i => ∀ c, e.transfers[i]? = some c → c.copier.isDormant = true

/-- **A dormant pool that is told to stop stays dormant** and calls nothing. -/
theorem Pool.Step.dormant (h : pool.Step p true move next)
    (hpool : ∀ w ∈ pool.workers, w.isDormant = true) :
    move.isCall = false ∧ ∀ w ∈ next.workers, w.isDormant = true := by
  have hbusy : ∀ {i : Nat} {w : Worker}, pool.workers[i]? = some w → w.isDormant = true :=
    fun hw => hpool _ (List.mem_of_getElem? hw)
  cases h with
  | look _ _ _ hclosing => cases hclosing
  | take hw => cases hbusy hw
  | sleep hw => cases hbusy hw
  | read hw => cases hbusy hw
  | write hw => cases hbusy hw
  | tell hw => cases hbusy hw
  | exit =>
    refine ⟨rfl, fun w hw => ?_⟩
    rcases List.mem_or_eq_of_mem_set hw with hw | rfl
    · exact hpool w hw
    · rfl
  | _ => exact ⟨rfl, hpool⟩

theorem PageCopy.Step.dormant (h : c.Step true copyMove c') (hc : c.copier.isDormant = true) :
    copyMove.isCall = false ∧ c'.copier.isDormant = true := by
  cases h with
  | look _ _ hclosing => cases hclosing
  | start hw | copied hw | failed hw =>
    rw [hw] at hc
    cases hc
  | tell | exit => exact ⟨rfl, rfl⟩
  | _ => exact ⟨rfl, hc⟩

namespace Engine

theorem dormant_of_not_isStarted (h : e.isStarted task = false) : e.Dormant task := by
  cases task with
  | pool i =>
    intro pool hpool
    rw [isStarted, hpool] at h
    cases h
  | transfer i =>
    intro c hc
    rw [isStarted, hc] at h
    cases h

theorem Dormant.inFlight (h : e.Dormant task) : e.inFlight task = false := by
  cases task with
  | pool i =>
    refine inFlight_pool.mpr fun pool hpool => List.flatMap_eq_nil_iff.mpr fun w hw => ?_
    have hdormant := h pool hpool w hw
    cases w with
    | idle | asleep | exited => rfl
    | _ => cases hdormant
  | transfer i =>
    refine inFlight_transfer.mpr fun c hc => ?_
    have hdormant := h c hc
    cases hcopier : c.copier with
    | idle | failing | exited => rfl
    | _ =>
      rw [hcopier] at hdormant
      cases hdormant

/-- **Where the workers are told to stop, what is dormant stays so** and does not use the
connections. -/
theorem Dormant.step (hdormant : e.Dormant task) (h : e.step event = some after)
    (hstops : e.closing.stops = true) : after.Dormant task ∧ event.calls task = false := by
  cases task with
  | pool i =>
    rw [Event.calls_pool]
    rcases pool_of_step h i with ⟨hm, heq⟩ | ⟨hm, -, t, capacity, -, hi'⟩ |
      ⟨move, pool, next, rfl, hi, hi', hmove⟩
    · rw [hm]
      exact ⟨fun pool hpool => hdormant pool (heq ▸ hpool), rfl⟩
    · rw [hm]
      refine ⟨fun pool hpool w hw => ?_, rfl⟩
      cases hi'.symm.trans hpool
      rw [List.eq_of_mem_replicate hw]
      rfl
    · rw [hstops] at hmove
      obtain ⟨hcall, hnext⟩ := hmove.dormant (hdormant pool hi)
      rw [Event.moveOf, if_pos rfl, List.any_cons, List.any_nil, hcall]
      refine ⟨fun pool' hpool' => ?_, rfl⟩
      cases hi'.symm.trans hpool'
      exact hnext
  | transfer i =>
    rw [Event.calls_transfer]
    rcases transfer_of_step h i with ⟨hm, heq⟩ | ⟨hm, -, name, segments, -, hi'⟩ |
      ⟨move, c, next, rfl, hi, hi', hmove⟩
    · rw [hm]
      exact ⟨fun c hc => hdormant c (heq ▸ hc), rfl⟩
    · rw [hm]
      refine ⟨fun c hc => ?_, rfl⟩
      cases hi'.symm.trans hc
      rfl
    · rw [hstops] at hmove
      obtain ⟨hcall, hnext⟩ := hmove.dormant (hdormant c hi)
      rw [Event.copyMoveOf, if_pos rfl, List.any_cons, List.any_nil, hcall]
      refine ⟨fun c' hc' => ?_, rfl⟩
      cases hi'.symm.trans hc'
      exact hnext

theorem Dormant.quiet (hdormant : e.Dormant task) (hstops : e.closing.stops = true) :
    e.Quiet task := by
  intro later after hrun
  have hstep : ∀ {e : Engine} {event after}, e.step event = some after →
      e.Dormant task ∧ e.closing.stops = true →
      (after.Dormant task ∧ after.closing.stops = true) ∧ event.calls task = false := by
    rintro e event after hstep ⟨hdormant, hstops⟩
    obtain ⟨hafter, hcalls⟩ := hdormant.step hstep hstops
    exact ⟨⟨hafter, stops_of_step hstep hstops⟩, hcalls⟩
  obtain ⟨⟨hafter, -⟩, hcalls⟩ := forall_of_run hstep hrun ⟨hdormant, hstops⟩
  exact ⟨hafter.inFlight, hcalls⟩

/-! ### What is done, and what is started -/

theorem isDone_of_step (h : e.step event = some after) (hdone : e.isDone task = true) :
    after.isDone task = true := by
  cases task with
  | pool i =>
    obtain ⟨pool, hpool, hdone⟩ := (Option.any_eq_true ..).mp hdone
    refine (Option.any_eq_true ..).mpr ?_
    rcases pool_of_step h i with ⟨-, heq⟩ | ⟨-, rfl, -⟩ | ⟨move, _, next, -, hi, hi', hmove⟩
    · exact ⟨pool, heq.trans hpool, hdone⟩
    · rw [List.getElem?_eq_none (Nat.le_refl _)] at hpool
      cases hpool
    · cases hpool.symm.trans hi
      exact ⟨next, hi', hmove.done hdone⟩
  | transfer i =>
    obtain ⟨c, hc, hdone⟩ := (Option.any_eq_true ..).mp hdone
    refine (Option.any_eq_true ..).mpr ?_
    rcases transfer_of_step h i with ⟨-, heq⟩ | ⟨-, rfl, -⟩ | ⟨move, _, next, -, hi, hi', hmove⟩
    · exact ⟨c, heq.trans hc, hdone⟩
    · rw [List.getElem?_eq_none (Nat.le_refl _)] at hc
      cases hc
    · cases hc.symm.trans hi
      exact ⟨next, hi', hmove.done hdone⟩

/-- **Nothing is in flight in a task that is done.** -/
theorem idle_of_done (hrun : (fresh p).run? events = some e) (hdone : e.isDone task = true) :
    e.inFlight task = false := by
  cases task with
  | pool i =>
    obtain ⟨pool, hpool, hdone⟩ := (Option.any_eq_true ..).mp hdone
    refine inFlight_pool.mpr fun pool' hpool' => ?_
    cases hpool.symm.trans hpool'
    exact Pool.inHand_of_exited (((history hrun i).2 pool hpool).exited_of_done hdone)
  | transfer i =>
    obtain ⟨c, hc, hdone⟩ := (Option.any_eq_true ..).mp hdone
    refine inFlight_transfer.mpr fun c' hc' => ?_
    cases hc.symm.trans hc'
    rw [((copyHistory hrun i).2 c hc).exited_of_done hdone]
    rfl

/-- What is done is quiet for good. -/
theorem quiet_of_isDone (hrun : (fresh p).run? events = some e) (hdone : e.isDone task = true) :
    e.Quiet task := by
  intro later after hlater
  have hwhole : (fresh p).run? (events ++ later) = some after := by
    rw [run?_append, hrun]
    exact hlater
  refine ⟨idle_of_done hwhole (preserved_of_run isDone_of_step hlater hdone), fun event hmem => ?_⟩
  cases task with
  | pool i =>
    obtain ⟨pool, hpool, hdone⟩ := (Option.any_eq_true ..).mp hdone
    have hexited := ((history hrun i).2 pool hpool).exited_of_done hdone
    obtain ⟨-, -, -, -, hquiet⟩ := quiet_of_done hlater hpool hexited hdone
    rw [Event.calls_pool, List.any_eq_false]
    intro move hmove hcall
    have hwork := hquiet move (List.mem_flatMap.mpr ⟨event, hmem, hmove⟩)
    cases hwork.symm.trans (PoolMove.isWork_of_isCall hcall)
  | transfer i =>
    obtain ⟨c, hc, hdone⟩ := (Option.any_eq_true ..).mp hdone
    have hexited := ((copyHistory hrun i).2 c hc).exited_of_done hdone
    obtain ⟨-, -, -, -, hquiet⟩ := quiet_of_copyDone hlater hc hexited hdone
    rw [Event.calls_transfer, List.any_eq_false]
    intro move hmove hcall
    have hwork := hquiet move (List.mem_flatMap.mpr ⟨event, hmem, hmove⟩)
    cases hwork.symm.trans (CopyMove.isWork_of_isCall hcall)

theorem isStarted_of_step (h : e.step event = some after) (hstarted : after.isStarted task = true) :
    e.isStarted task = true ∨ task ∈ after.unregistered := by
  cases task with
  | pool i =>
    rcases pool_of_step h i with ⟨-, heq⟩ | ⟨-, rfl, t, capacity, rfl, -⟩ | ⟨_, _, _, -, hi, -⟩
    · rw [isStarted, heq] at hstarted
      exact Or.inl hstarted
    · cases h
      exact Or.inr (List.mem_append_right _ (List.mem_singleton_self _))
    · exact Or.inl (Option.isSome_of_eq_some hi)
  | transfer i =>
    rcases transfer_of_step h i with ⟨-, heq⟩ | ⟨-, rfl, name, segments, rfl, -⟩ |
      ⟨_, _, _, -, hi, -⟩
    · rw [isStarted, heq] at hstarted
      exact Or.inl hstarted
    · cases h
      exact Or.inr (List.mem_append_right _ (List.mem_singleton_self _))
    · exact Or.inl (Option.isSome_of_eq_some hi)

/-- The task is unregistered, registered or done. -/
def Lists (e : Engine) (task : EngineTask) : Prop :=
  task ∈ e.unregistered ∨ task ∈ e.registered ∨ e.isDone task = true

/-- What is listed stays listed until the tasks are collected: registering a task drops from the
registered ones only those that are done. -/
theorem Lists.step (hlists : e.Lists task) (h : e.step event = some after)
    (hrunning : after.closing.awaited = none) : after.Lists task := by
  rcases hlists with hunregistered | hregistered | hdone
  · cases Step.of_step h with
    | start | startTransfer => exact Or.inl (List.mem_append_left _ hunregistered)
    | @register other =>
      by_cases hother : task = other
      · exact Or.inr (Or.inl (List.mem_append_right _ (List.mem_singleton.mpr hother)))
      · exact Or.inl ((List.mem_erase_of_ne hother).mpr hunregistered)
    | collect | shut => cases hrunning
    | _ => exact Or.inl hunregistered
  · cases Step.of_step h with
    | register =>
      cases hdone : e.isDone task with
      | false =>
        refine Or.inr (Or.inl (List.mem_append_left _ (List.mem_filter.mpr ⟨hregistered, ?_⟩)))
        rw [hdone]
        rfl
      | true => exact Or.inr (Or.inr (isDone_of_step h hdone))
    | collect | shut => cases hrunning
    | _ => exact Or.inr (Or.inl hregistered)
  · exact Or.inr (Or.inr (isDone_of_step h hdone))

theorem lists_of_run (hrun : (fresh p).run? events = some e) (hrunning : e.closing.awaited = none)
    (hstarted : e.isStarted task = true) : e.Lists task := by
  refine run_induction (P := fun _ e => e.closing.awaited = none → e.isStarted task = true →
    e.Lists task) ?_ ?_ hrun hrunning hstarted
  · intro _ hstarted
    cases task <;> cases hstarted
  · intro events event before after _ hstep ih hrunning hstarted
    rcases isStarted_of_step hstep hstarted with hbefore | hnew
    · refine (ih ?_ hbefore).step hstep hrunning
      cases Step.of_step hstep with
      | mark hclosing => rw [hclosing]; rfl
      | signal hclosing => rw [hclosing]; rfl
      | collect | shut => cases hrunning
      | _ => exact hrunning
    · exact Or.inl hnew

/-! ### A second close -/

theorem isClosed_of_step (h : e.step event = some after) (hclosed : e.isClosed = true) :
    after.isClosed = true := by
  cases Step.of_step h with
  | mark | signal | collect | shut => rfl
  | _ => exact hclosed

theorem step_mark_eq_none (hclosed : e.isClosed = true) : e.step .mark = none :=
  if_neg (decide_eq_true_iff.mp hclosed)

theorem awaited_close (e : Engine) : ∃ tasks, e.close.closing.awaited = some tasks := by
  cases h : e.closing <;> simp [close, Engine.after, step, h, Closing.awaited]

theorem close_of_awaited {tasks : List EngineTask} (h : e.closing.awaited = some tasks) :
    e.close = e := by
  have hclosing : ∀ {closing : Closing}, closing.awaited = none → e.closing ≠ closing := by
    rintro closing hnone rfl
    cases hnone.symm.trans h
  have hmark : e.step .mark = none := if_neg (hclosing rfl)
  have hsignal : e.step .signal = none := if_neg (hclosing rfl)
  have hcollect : e.step (.collect true) = none := if_neg (hclosing rfl)
  simp only [close, Engine.after, List.foldl_cons, List.foldl_nil, hmark, hsignal, hcollect,
    Option.getD_none]

theorem close_close (e : Engine) : e.close.close = e.close := by
  obtain ⟨tasks, h⟩ := e.awaited_close
  exact close_of_awaited h

/-- Who cannot wait shuts the connections at once, whatever is in flight. -/
theorem run?_shutAtOnce (h : e.closing = .signalled) :
    e.run? [.collect false, .shut] = some { e with closing := .shut, registered := [] } := by
  have hcollect : e.step (.collect false) = some { e with
      closing := .waiting []
      registered := [] } := if_pos h
  rw [run?, hcollect]
  rfl

/-! ### What is collected -/

theorem Quiet.of_run (hquiet : e.Quiet task) (hrun : e.run? events = some after) :
    after.Quiet task := by
  intro later final hlater
  have hwhole : e.run? (events ++ later) = some final := by
    rw [run?_append, hrun]
    exact hlater
  obtain ⟨hidle, hcalls⟩ := hquiet _ _ hwhole
  exact ⟨hidle, (List.forall_mem_append.mp hcalls).2⟩

/-- The connections are shut only once all that was collected is done. -/
theorem done_of_shut {tasks : List EngineTask} (hwaiting : e.closing = .waiting tasks)
    (hrun : e.run? later = some after) (hshut : after.closing = .shut) :
    ∀ task ∈ tasks, after.isDone task = true := by
  have hkept : after.closing = .waiting tasks ∨ ∀ task ∈ tasks, after.isDone task = true := by
    refine preserved_of_run (P := fun e => e.closing = .waiting tasks ∨
      ∀ task ∈ tasks, e.isDone task = true) ?_ hrun (Or.inl hwaiting)
    rintro e event after hstep (hwaiting | hdone)
    · cases Step.of_step hstep with
      | mark hclosing | signal hclosing | collect hclosing => cases hwaiting.symm.trans hclosing
      | shut hclosing hdone =>
        cases hwaiting.symm.trans hclosing
        exact Or.inr (List.all_eq_true.mp hdone)
      | _ => exact Or.inl hwaiting
    · exact Or.inr fun task htask => isDone_of_step hstep (hdone task htask)
  rcases hkept with hwaiting | hdone
  · cases hwaiting.symm.trans hshut
  · exact hdone

/-- **What can be in flight when the connections are shut.** If the tasks were collected before, all
that was registered then is done, and every task is quiet but those that were not yet registered
then although a worker or a copier of theirs was past looking for a stop. Once the workers are told
to stop, whatever has to look for it first, or is started only later, is quiet whether anyone waits
or not. Who cannot wait shuts the connections at once. Once an engine is closed a second close ends
with its first step, and changes nothing. -/
theorem idle_of_shut (hrun : (fresh p).run? events = some e) :
    (∀ early late before, events = early ++ .collect true :: late →
      (fresh p).run? early = some before → e.closing = .shut →
      (∀ task ∈ before.registered, e.isDone task = true) ∧
        ∀ task, (task ∈ before.unregistered → before.Dormant task) → e.Quiet task) ∧
    (e.closing.stops = true → ∀ task, e.Dormant task → e.Quiet task) ∧
    (e.closing = .signalled →
      e.run? [.collect false, .shut] = some { e with closing := .shut, registered := [] }) ∧
    (e.isClosed = true → ∀ later after, e.run? later = some after → after.step .mark = none) ∧
    e.close.close = e.close := by
  refine ⟨fun early late before hevents hearly hshut => ?_, fun hstops _ hdormant =>
    hdormant.quiet hstops, run?_shutAtOnce, fun hclosed later after hlater => ?_, close_close e⟩
  · have hlater : before.run? (.collect true :: late) = some e := by
      rw [hevents, run?_append, hearly] at hrun
      exact hrun
    obtain ⟨between, hcollect, hlate⟩ := Option.bind_eq_some_iff.mp hlater
    cases Step.of_step hcollect with
    | collect hclosing =>
      have hdone := done_of_shut rfl hlate hshut
      refine ⟨hdone, fun task hlisted => ?_⟩
      by_cases hdormant : before.Dormant task
      · refine (hdormant.quiet ?_).of_run hlater
        rw [hclosing]
        rfl
      · have hstarted : before.isStarted task = true :=
          (Bool.not_eq_false _).mp (mt dormant_of_not_isStarted hdormant)
        have hawaited : before.closing.awaited = none := by
          rw [hclosing]
          rfl
        rcases lists_of_run hearly hawaited hstarted with hunregistered | hregistered | hover
        · exact absurd (hlisted hunregistered) hdormant
        · exact quiet_of_isDone hrun (hdone task hregistered)
        · exact quiet_of_isDone hrun (preserved_of_run isDone_of_step hlater hover)
  · exact step_mark_eq_none (preserved_of_run isClosed_of_step hlater hclosed)

end Engine

/-! ### Runs that shut the connections -/

/-- The answer to a read when the connections are shut. -/
def shutRead : MigrationError := .read "header_cids" lowHeights (.database (.connect .closed))

/-- A worker reads while its engine is closed. -/
def readAtClose : List Event :=
  [.start .headers none, .pool 0 .handOver, .register (.pool 0), .pool 0 (.send lowHeights),
    .pool 0 (.look 0), .pool 0 (.take 0 lowHeights), .mark, .signal]

/-- A transfer copies its first segment before it is registered. -/
def copyAtClose : List Event :=
  [.startTransfer "public.blocks" [lowHeights], .transfer 0 .look, .transfer 0 (.start lowHeights),
    .mark, .signal]

/-- What is in flight is missed where the engine is closed by someone who cannot wait, and where it
is not yet registered. The first loses its range. -/
theorem shut_inFlight :
    (∃ e, (Engine.fresh ⟨1, [.headers], false⟩).run?
        (readAtClose ++ [.collect false, .shut]) = some e ∧ e.closing = .shut ∧
      e.inFlight (.pool 0) = true ∧
      (e.step (.pool 0 (.read 0 lowHeights (.error shutRead)))).isSome = true) ∧
    ∃ e, (Engine.fresh ⟨1, [.headers], false⟩).run?
        (copyAtClose ++ [.collect true, .shut]) = some e ∧ e.closing = .shut ∧
      e.inFlight (.transfer 0) = true :=
  ⟨⟨_, rfl, rfl, rfl, rfl⟩, _, rfl, rfl, rfl⟩

/-- The worker is waited for. -/
def shutAfterRead : List Event :=
  [.pool 0 (.read 0 lowHeights (.error .cancelled)),
    .pool 0 (.tell 0 (.gap .read ⟨lowHeights, .readFailed⟩)),
    .pool 0 (.tell 0 (.failure .cancelled)), .pool 0 (.exit 0), .pool 0 .finish, .shut]

theorem shutAfterRead_idle :
    ∃ before e, (Engine.fresh ⟨1, [.headers], false⟩).run? readAtClose = some before ∧
      before.registered = [.pool 0] ∧ before.inFlight (.pool 0) = true ∧
      (Engine.fresh ⟨1, [.headers], false⟩).run? (readAtClose ++ .collect true :: shutAfterRead) =
        some e ∧ e.closing = .shut ∧ e.isDone (.pool 0) = true ∧ e.Quiet (.pool 0) ∧
      e.step .mark = none := by
  have hbefore : (Engine.fresh ⟨1, [.headers], false⟩).run? readAtClose = some _ := rfl
  have hrun : (Engine.fresh ⟨1, [.headers], false⟩).run?
      (readAtClose ++ .collect true :: shutAfterRead) = some _ := rfl
  obtain ⟨hshut, -, -, hclosed, -⟩ := Engine.idle_of_shut hrun
  obtain ⟨hdone, hquiet⟩ := hshut _ _ _ rfl hbefore rfl
  exact ⟨_, _, hbefore, rfl, rfl, hrun, rfl, hdone _ (List.mem_singleton_self _),
    hquiet _ (absurd · List.not_mem_nil), hclosed rfl [] _ rfl⟩

end ChainMigration
