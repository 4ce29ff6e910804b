import ChainMigration.Proofs.EngineHistory

/-! # Histories of transfers

A transfer is what its own moves made of it, as a pool is. `PageCopy.History` is a fresh transfer
with the moves that it made since, and any run of an engine contains the history of each of its
transfers (`Engine.copyHistory`). Failed segments and failures are received in the order of telling
(`PageCopy.History.failedTold`, `PageCopy.History.failuresTold`). -/

namespace ChainMigration

variable {ends : Endpoints} {closing : Bool} {c next : PageCopy} {move : CopyMove}
  {moves : List CopyMove}

/-! ### One move -/

theorem PageCopy.Step.table (h : c.Step closing move next) : next.table = c.table := by
  cases h <;> rfl

theorem PageCopy.Step.done (h : c.Step closing move next) (hdone : c.done = true) :
    next.done = true := by
  cases h with
  | finish => rfl
  | _ => exact hdone

namespace CopyMove

/-- A copy is answered by the given endpoints. -/
def Follows (ends : Endpoints) (name : String) : CopyMove → Prop
  | copied pages answer => answer = ends.copy name pages
  | _ => True

/-! ### What a move puts in and what it takes out -/

/-- The segment that the copier begins with. -/
def started : CopyMove → List BlockRange
  | start pages => [pages]
  | _ => []

/-- The segment that turns out to have failed. -/
def failed : CopyMove → List BlockRange
  | copied pages (.error _) => [pages]
  | _ => []

/-- The failure that the copier tells. -/
def told : CopyMove → List MigrationError
  | tell reason => [reason]
  | _ => []

/-- The failed segment that is received. -/
def failedReceived : CopyMove → List BlockRange
  | receiveFailed pages => [pages]
  | _ => []

/-- The failure that is received. -/
def failureReceived : CopyMove → List MigrationError
  | receiveFailure reason => [reason]
  | _ => []

end CopyMove

/-- The copy of a segment is answered with an error. -/
def Endpoints.copyFails (ends : Endpoints) (name : String) (pages : BlockRange) : Bool :=
  !(ends.copy name pages).isOk

/-- The segment that is being copied. -/
def Copier.pages? : Copier → Option BlockRange
  | copying pages => some pages
  | _ => none

namespace PageCopy

theorem Step.queue_eq (h : c.Step closing move next) : c.queue = move.started ++ next.queue := by
  cases h with
  | start _ hqueue => exact hqueue
  | _ => rfl

/-- Of the segments that are started those fail whose copy is answered with an error. -/
theorem Step.failed_of_follows (h : c.Step closing move next) (hf : move.Follows ends c.table) :
    move.failed ++ next.copier.pages?.toList.filter (ends.copyFails c.table) =
      (c.copier.pages?.toList ++ move.started).filter (ends.copyFails c.table) := by
  cases h with
  | look hc => rw [hc]; rfl
  | start hc => rw [hc]; rfl
  | @copied pages count hc =>
    have hok : ends.copyFails c.table pages = false := by
      rw [Endpoints.copyFails, ← show .ok count = ends.copy c.table pages from hf]
      rfl
    rw [hc]
    exact (List.filter_cons_of_neg (by rw [hok]; decide)).symm
  | @failed pages reason hc =>
    have hfails : ends.copyFails c.table pages = true := by
      rw [Endpoints.copyFails, ← show .error reason = ends.copy c.table pages from hf]
      rfl
    rw [hc]
    exact (List.filter_cons_of_pos hfails).symm
  | tell hc => rw [hc]; rfl
  | exit hc => rw [hc]; rfl
  | _ => exact congrArg (List.filter _) (List.append_nil _).symm

theorem Step.failed_eq (h : c.Step closing move next) :
    c.failed ++ move.failed = move.failedReceived ++ next.failed := by
  cases h with
  | failed => rfl
  | receiveFailed hfailed => exact (List.append_nil _).trans hfailed
  | _ => exact List.append_nil _

theorem Step.errors_eq (h : c.Step closing move next) :
    c.errors ++ move.told = move.failureReceived ++ next.errors := by
  cases h with
  | tell => rfl
  | receiveFailure herrors => exact (List.append_nil _).trans herrors
  | _ => exact List.append_nil _

theorem drained_iff : c.drained = true ↔ c.failed = [] ∧ c.errors = [] := by
  rw [drained, Bool.and_eq_true, List.isEmpty_iff, List.isEmpty_iff]

theorem Step.drained (h : c.Step closing move next) (hexited : c.copier = .exited)
    (hdrained : c.drained = true) : next.drained = true := by
  obtain ⟨hfailed, herrors⟩ := drained_iff.mp hdrained
  cases h with
  | failed hc => cases hexited.symm.trans hc
  | tell hc => cases hexited.symm.trans hc
  | receiveFailed hreceived => cases hfailed.symm.trans hreceived
  | receiveFailure hreceived => cases herrors.symm.trans hreceived
  | _ => exact hdrained

/-- A copier exits when it has to stop or when no segments are left. -/
theorem Step.queue_of_exited (h : c.Step closing move next) (hclosing : closing = false)
    (hc : c.copier = .exited → c.queue = []) (hexited : next.copier = .exited) :
    next.queue = [] := by
  cases h with
  | look | start | copied | failed | tell => cases hexited
  | exit _ hstop => exact hstop.resolve_left (by rw [hclosing]; decide)
  | _ => exact hc hexited

theorem Step.exited_of_done (h : c.Step closing move next)
    (hc : c.done = true → c.copier = .exited) (hdone : next.done = true) :
    next.copier = .exited := by
  have hbusy : ∀ {w : Copier}, c.copier = w → w ≠ .exited → c.done ≠ true :=
    fun hw hne hd => hne (hw.symm.trans (hc hd))
  cases h with
  | look hw => exact absurd hdone (hbusy hw nofun)
  | start hw => exact absurd hdone (hbusy hw nofun)
  | copied hw => exact absurd hdone (hbusy hw nofun)
  | failed hw => exact absurd hdone (hbusy hw nofun)
  | tell hw => exact absurd hdone (hbusy hw nofun)
  | exit => rfl
  | finish hexited => exact hexited
  | _ => exact hc hdone

theorem Step.sending_of_done (h : c.Step closing move next)
    (hc : c.done = true → c.sending = false) (hdone : next.done = true) : next.sending = false := by
  cases h with
  | letGo => rfl
  | finish _ hsending => exact hsending
  | _ => exact hc hdone

/-! ### Histories -/

/-- A fresh transfer and the moves that it made since, each under some state of closing. -/
inductive History : List CopyMove → PageCopy → Prop
  | fresh (name : String) (segments : List BlockRange) :
    History [] { table := name, queue := segments }
  | move {moves : List CopyMove} {c next : PageCopy} {closing : Bool} {move : CopyMove}
    (h : History moves c) (hstep : c.Step closing move next) : History (moves ++ [move]) next

namespace History

/-- **What came in has gone out or is still there**, in the same order. -/
theorem conserved {α : Type} (part : PageCopy → List α) {came went : CopyMove → List α}
    (hfresh : ∀ name segments, part { table := name, queue := segments } = [])
    (hstep : ∀ {closing c move next}, PageCopy.Step closing c move next →
      part c ++ came move = went move ++ part next)
    (h : History moves c) : moves.flatMap came = moves.flatMap went ++ part c := by
  induction h with
  | fresh name segments =>
    rw [hfresh]
    rfl
  | move _ h ih =>
    rw [List.flatMap_append, List.flatMap_append, ih, List.flatMap_singleton,
      List.flatMap_singleton, List.append_assoc, List.append_assoc, hstep h]

theorem failedTold (h : History moves c) :
    moves.flatMap (·.failed) = moves.flatMap (·.failedReceived) ++ c.failed :=
  h.conserved PageCopy.failed (fun _ _ => rfl) Step.failed_eq

theorem failuresTold (h : History moves c) :
    moves.flatMap (·.told) = moves.flatMap (·.failureReceived) ++ c.errors :=
  h.conserved PageCopy.errors (fun _ _ => rfl) Step.errors_eq

/-- **The segments that fail are those whose copy is answered with an error**, in the order of
starting. -/
theorem failed_of_follows (h : History moves c) (hf : ∀ move ∈ moves, move.Follows ends c.table) :
    moves.flatMap (·.failed) ++ c.copier.pages?.toList.filter (ends.copyFails c.table) =
      (moves.flatMap (·.started)).filter (ends.copyFails c.table) := by
  induction h with
  | fresh name segments => rfl
  | move _ h ih =>
    rw [h.table, List.forall_mem_append, List.forall_mem_singleton] at hf
    rw [h.table, List.flatMap_append, List.flatMap_append, List.flatMap_singleton,
      List.flatMap_singleton, List.filter_append, List.append_assoc, h.failed_of_follows hf.2,
      ← ih hf.1, List.filter_append, List.append_assoc]

theorem exited_of_done (h : History moves c) : c.done = true → c.copier = .exited := by
  induction h with
  | fresh => exact nofun
  | move _ h ih => exact h.exited_of_done ih

theorem sending_of_done (h : History moves c) : c.done = true → c.sending = false := by
  induction h with
  | fresh => exact nofun
  | move _ h ih => exact h.sending_of_done ih

end History

end PageCopy

/-! ### Transfers of an engine -/

variable {p : Policy} {e after : Engine} {event : Event} {events : List Event}

/-- The move of a transfer that an event is. -/
def Event.copyMoveOf (i : Nat) : Event → List CopyMove
  | .transfer j move => if j = i then [move] else []
  | _ => []

/-- The moves of a transfer among events. -/
def copyMovesOf (i : Nat) (events : List Event) : List CopyMove :=
  events.flatMap (·.copyMoveOf i)

theorem copyMovesOf_concat (i : Nat) (events : List Event) (event : Event) :
    copyMovesOf i (events ++ [event]) = copyMovesOf i events ++ event.copyMoveOf i := by
  rw [copyMovesOf, List.flatMap_append, List.flatMap_singleton]
  rfl

namespace Engine

/-- **What an event is to a transfer**: nothing, or its start, or one of its moves. -/
theorem transfer_of_step (h : e.step event = some after) (i : Nat) :
    (event.copyMoveOf i = [] ∧ after.transfers[i]? = e.transfers[i]?) ∨
      (event.copyMoveOf i = [] ∧ i = e.transfers.length ∧ ∃ name segments,
        event = .startTransfer name segments ∧
        after.transfers[i]? = some { table := name, queue := segments }) ∨
      ∃ move c next, event = .transfer i move ∧ e.transfers[i]? = some c ∧
        after.transfers[i]? = some next ∧ c.Step e.closing.stops move next := by
  cases Step.of_step h with
  | startTransfer name segments =>
    rcases Nat.lt_trichotomy i e.transfers.length with hlt | rfl | hgt
    · exact Or.inl ⟨rfl, List.getElem?_append_left hlt⟩
    · exact Or.inr (Or.inl ⟨rfl, rfl, name, segments, rfl, List.getElem?_concat_length⟩)
    · refine Or.inl ⟨rfl, ?_⟩
      rw [List.getElem?_eq_none (Nat.le_of_lt hgt), List.getElem?_eq_none]
      rw [List.length_append, List.length_singleton]
      exact hgt
  | @transfer j move c next hj hmove =>
    by_cases hij : j = i
    · subst hij
      have hlt : j < e.transfers.length := (List.getElem?_eq_some_iff.mp hj).1
      exact Or.inr (Or.inr ⟨move, c, next, rfl, hj, List.getElem?_set_self hlt, hmove⟩)
    · exact Or.inl ⟨if_neg hij, List.getElem?_set_ne hij⟩
  | _ => exact Or.inl ⟨rfl, rfl⟩

/-- **A transfer that was started goes on** with its history, its segments and its end, whatever
happens in the engine. -/
theorem transfer_goesOn (h : e.step event = some after) {i : Nat}
    (hi : e.transfers[i]? = some c) (hhistory : c.History moves) :
    ∃ next, after.transfers[i]? = some next ∧ next.table = c.table ∧
      next.History (moves ++ event.copyMoveOf i) ∧
      c.queue = (event.copyMoveOf i).flatMap (·.started) ++ next.queue ∧
      (c.done = true → c.drained = true → next.done = true ∧ next.drained = true) ∧
      (e.closing.stops = false → (c.copier = .exited → c.queue = []) →
        next.copier = .exited → next.queue = []) := by
  rcases transfer_of_step h i with
    ⟨hm, heq⟩ | ⟨-, rfl, -⟩ | ⟨move, c', next, rfl, hi', hnext, hmove⟩
  · rw [hm, List.append_nil, heq]
    exact ⟨c, hi, rfl, hhistory, rfl, And.intro, fun _ => id⟩
  · rw [List.getElem?_eq_none (Nat.le_refl _)] at hi
    cases hi
  · cases hi.symm.trans hi'
    rw [Event.copyMoveOf, if_pos rfl, List.flatMap_singleton]
    exact ⟨next, hnext, hmove.table, .move hhistory hmove, hmove.queue_eq,
      fun hdone hdrained =>
        ⟨hmove.done hdone, hmove.drained (hhistory.exited_of_done hdone) hdrained⟩,
      hmove.queue_of_exited⟩

/-- **Every transfer of an engine has the history of its own moves**, and a transfer that is not
started has made none. -/
theorem copyHistory (h : (fresh p).run? events = some e) (i : Nat) :
    (e.transfers[i]? = none → copyMovesOf i events = []) ∧
      ∀ c, e.transfers[i]? = some c → c.History (copyMovesOf i events) := by
  refine run_induction (P := fun events e => (e.transfers[i]? = none → copyMovesOf i events = []) ∧
    ∀ c, e.transfers[i]? = some c → c.History (copyMovesOf i events)) ?_ ?_ h
  · refine ⟨fun _ => rfl, fun c hc => ?_⟩
    cases hc
  · intro events event before after _ hstep ⟨hnone, hsome⟩
    rw [copyMovesOf_concat]
    rcases transfer_of_step hstep i with ⟨hm, heq⟩ | ⟨hm, hi, name, segments, -, hi'⟩ |
      ⟨move, c, next, rfl, hi, hi', hmove⟩
    · rw [hm, List.append_nil, heq]
      exact ⟨hnone, hsome⟩
    · rw [hm, List.append_nil, hnone (List.getElem?_eq_none hi.ge), hi']
      refine ⟨nofun, fun c hc => ?_⟩
      cases hc
      exact .fresh name segments
    · rw [Event.copyMoveOf, if_pos rfl, hi']
      refine ⟨nofun, fun c' hc => ?_⟩
      cases hc
      exact .move (hsome c hi) hmove

end Engine

end ChainMigration
