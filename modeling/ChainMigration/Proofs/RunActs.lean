import ChainMigration.Proofs.TransferHistory
import ChainMigration.Proofs.RunHistory

/-! # What runs show

The acts of a run are those that its events show. However a run goes on, its pools are of the tables
it was begun with and its transfers copy through the foreign table it was begun with
(`Engine.Only`), so each of its acts is about one of them (`MigrationRun.Only.run`,
`TransferRun.Only.run`). Runs that are left alone are such runs (`MigrationRun.exists_run_settle`,
`TransferRun.exists_run_settle`), and a transfer shows the copy of its first segment
(`copy_mem_transferPages`). -/

namespace ChainMigration

variable {tables : List Table} {names : List String} {e next : Engine} {event : Event} {act : Act}

/-! ### Engines -/

/-- The act is about one of the tables, or about copies through one of the foreign tables. -/
def Act.Concerns (tables : List Table) (names : List String) : Act → Prop
  | .read t _ | .write t _ _ _ | .tell t _ | .exit t | .finish t => t ∈ tables
  | .lookUp name | .copy name _ | .copyFailure name _ => name ∈ names

/-- The event starts no other pools and transfers. -/
def Event.StartsOnly (tables : List Table) (names : List String) : Event → Prop
  | .start t _ => t ∈ tables
  | .startTransfer name _ => name ∈ names
  | _ => True

theorem Event.startsOnly_of_isFree (h : event.isFree = true) : event.StartsOnly tables names := by
  cases event with
  | start | startTransfer => cases h
  | _ => trivial

namespace Engine

/-- The pools of an engine are of these tables, and its transfers are through these foreign tables.
-/
structure Only (tables : List Table) (names : List String) (e : Engine) : Prop where
  pools : ∀ pool ∈ e.pools, pool.table ∈ tables
  transfers : ∀ c ∈ e.transfers, c.table ∈ names

theorem only_fresh (tables : List Table) (names : List String) (p : Policy) :
    (fresh p).Only tables names :=
  ⟨List.forall_mem_nil _, List.forall_mem_nil _⟩

namespace Only

theorem step (he : e.Only tables names) (h : e.step event = some next)
    (hevent : event.StartsOnly tables names) : next.Only tables names := by
  cases Step.of_step h with
  | start t capacity =>
    refine ⟨List.forall_mem_append.mpr ⟨he.pools, List.forall_mem_singleton.mpr hevent⟩, ?_⟩
    exact he.transfers
  | startTransfer name segments =>
    exact ⟨he.pools,
      List.forall_mem_append.mpr ⟨he.transfers, List.forall_mem_singleton.mpr hevent⟩⟩
  | pool hi hmove =>
    refine ⟨fun pool hpool => ?_, he.transfers⟩
    rcases List.mem_or_eq_of_mem_set hpool with hpool | rfl
    · exact he.pools pool hpool
    · rw [hmove.table]
      exact he.pools _ (List.mem_of_getElem? hi)
  | transfer hi hmove =>
    refine ⟨he.pools, fun c hc => ?_⟩
    rcases List.mem_or_eq_of_mem_set hc with hc | rfl
    · exact he.transfers c hc
    · rw [hmove.table]
      exact he.transfers _ (List.mem_of_getElem? hi)
  | _ => exact ⟨he.pools, he.transfers⟩

theorem after {events : List Event} (he : e.Only tables names)
    (hevents : ∀ event ∈ events, event.StartsOnly tables names) :
    (e.after events).Only tables names := by
  induction events generalizing e with
  | nil => exact he
  | cons event events ih =>
    obtain ⟨hevent, hrest⟩ := List.forall_mem_cons.mp hevents
    rw [Engine.after, List.foldl_cons]
    refine ih ?_ hrest
    cases h : e.step event with
    | none => exact he
    | some next => exact he.step h hevent

theorem migrate {t : Table} (he : e.Only tables names) (ht : t ∈ tables) (capacity : Option Nat) :
    (e.migrate t capacity).2.Only tables names :=
  he.after (List.forall_mem_cons.mpr
    ⟨ht, List.forall_mem_cons.mpr ⟨trivial, List.forall_mem_singleton.mpr trivial⟩⟩)

theorem transfer {name : String} (he : e.Only tables names) (hname : name ∈ names)
    (segments : List BlockRange) : (e.transfer name segments).2.Only tables names :=
  he.after (List.forall_mem_cons.mpr ⟨hname, List.forall_mem_singleton.mpr trivial⟩)

theorem close (he : e.Only tables names) : e.close.Only tables names := by
  refine he.after fun event hevent => ?_
  simp only [List.mem_cons, List.not_mem_nil, or_false] at hevent
  rcases hevent with rfl | rfl | rfl <;> trivial

/-- **What an engine shows is about its pools and transfers.** -/
theorem concerns (he : e.Only tables names) (h : e.act? event = some act) :
    act.Concerns tables names := by
  cases event with
  | pool i move =>
    obtain ⟨pool, hi, hact⟩ := Option.bind_eq_some_iff.mp h
    have htable := he.pools pool (List.mem_of_getElem? hi)
    cases move <;> cases hact <;> exact htable
  | transfer i move =>
    cases move with
    | start pages | tell reason =>
      obtain ⟨c, hi, rfl⟩ := Option.map_eq_some_iff.mp h
      exact he.transfers c (List.mem_of_getElem? hi)
    | _ => cases h
  | _ => cases h

end Only

end Engine

/-! ### Runs of a migration -/

namespace MigrationRun

variable {r next : MigrationRun} {event : RunEvent} {events : List RunEvent}

/-- The acts that events of a run show. -/
def acts (r : MigrationRun) : List RunEvent → List Act
  | [] => []
  | event :: events => (r.act? event).toList ++ ((r.step event).map (·.acts events)).getD []

/-- The pools of a run, and those that wait to be started, are of these tables. -/
structure Only (tables : List Table) (r : MigrationRun) : Prop where
  engine : r.engine.Only tables []
  waiting : ∀ t ∈ r.waiting, t ∈ tables

theorem only_begin (s : RunSetting) (p : Policy) (files : FileTree) (tables : List Table) :
    (begin s (.fresh p) files tables).Only tables :=
  ⟨Engine.only_fresh tables [] p, fun _ ht => ht⟩

namespace Only

theorem startTable {t : Table} {rest : List Table} (hr : r.Only tables)
    (hwaiting : r.waiting = t :: rest) : (r.startTable t rest).Only tables := by
  have htables := hr.waiting
  rw [hwaiting, List.forall_mem_cons] at htables
  unfold MigrationRun.startTable
  split
  · exact ⟨hr.engine, List.forall_mem_nil _⟩
  · exact ⟨hr.engine.migrate htables.1 (some 1), htables.2⟩

theorem step (hr : r.Only tables) (h : r.step event = some next) : next.Only tables := by
  cases Step.of_step h with
  | startTable hwaiting => exact hr.startTable hwaiting
  | engine hfree hstep =>
    exact ⟨hr.engine.step hstep (Event.startsOnly_of_isFree hfree), hr.waiting⟩
  | supply _ _ _ hstep => exact ⟨hr.engine.step hstep trivial, hr.waiting⟩
  | endSupply _ _ _ hstep => exact ⟨hr.engine.step hstep trivial, hr.waiting⟩
  | receive _ hstep => exact ⟨hr.engine.step hstep trivial, hr.waiting⟩
  | complete => exact ⟨hr.engine, hr.waiting⟩

theorem concerns (hr : r.Only tables) {act : Act} (h : r.act? event = some act) :
    act.Concerns tables [] := by
  cases event with
  | engine event => exact hr.engine.concerns h
  | _ => cases h

/-- **However a run goes on**, its pools and its acts are about its tables. -/
theorem run (hr : r.Only tables) (h : r.run? events = some next) :
    next.Only tables ∧ ∀ act ∈ r.acts events, act.Concerns tables [] := by
  induction events generalizing r with
  | nil =>
    cases h
    exact ⟨hr, List.forall_mem_nil _⟩
  | cons event events ih =>
    obtain ⟨between, hstep, hrest⟩ := Option.bind_eq_some_iff.mp h
    obtain ⟨hnext, hacts⟩ := ih (hr.step hstep) hrest
    refine ⟨hnext, ?_⟩
    rw [acts, hstep]
    exact List.forall_mem_append.mpr
      ⟨fun act hact => hr.concerns (Option.mem_toList.mp hact), hacts⟩

end Only

/-- **A run that is left alone** goes on by events, and what it shows are their acts. -/
theorem exists_run_settle (replies : Replies) (r : MigrationRun) (shown : List Act) :
    ∃ events, r.run? events = some (r.settle replies shown).1 ∧
      (r.settle replies shown).2 = (r.acts events).reverse ++ shown := by
  fun_induction settle replies r shown with
  | case1 r shown hnext => exact ⟨[], rfl, rfl⟩
  | case2 r shown event hnext hstep => exact ⟨[], rfl, rfl⟩
  | case3 r shown event hnext next hstep ih =>
    obtain ⟨events, hrun, hacts⟩ := ih
    refine ⟨event :: events, ?_, ?_⟩
    · rw [run?, hstep]
      exact hrun
    · rw [hacts, acts, hstep, Option.map_some, Option.getD_some, List.reverse_append,
        List.append_assoc]
      cases r.act? event <;> rfl

end MigrationRun

/-! ### Runs of a transfer -/

namespace TransferRun

variable {name : String} {r next : TransferRun} {event : TransferEvent}
  {events : List TransferEvent}

/-- The acts that events of a run show. -/
def acts (r : TransferRun) : List TransferEvent → List Act
  | [] => []
  | event :: events => (r.act? event).toList ++ ((r.step event).map (·.acts events)).getD []

/-- Nothing is migrated, and the transfers are through this foreign table. -/
def Only (name : String) (r : TransferRun) : Prop := r.engine.Only [] [name]

theorem only_begin {c : TransferConfig} {lookUp : String → Except MigrationError UInt64}
    {p : Policy} {gapFile : GapFile} {files : FileTree}
    (h : begin c lookUp (.fresh p) gapFile files = .ok r) : r.Only c.tableName := by
  obtain ⟨⟨index, count, engine⟩, hstart, h⟩ := bind_eq_ok.mp h
  obtain ⟨segments, -, hstart⟩ := bind_eq_ok.mp hstart
  cases hstart
  cases h
  exact (Engine.only_fresh [] [c.tableName] p).transfer List.mem_cons_self segments

namespace Only

theorem step (hr : r.Only name) (h : r.step event = some next) : next.Only name := by
  cases Step.of_step h with
  | engine hfree hstep => exact Engine.Only.step hr hstep (Event.startsOnly_of_isFree hfree)
  | receiveFailed hstep => exact Engine.Only.step hr hstep trivial
  | receiveFailure hstep => exact Engine.Only.step hr hstep trivial
  | complete => exact hr

theorem concerns (hr : r.Only name) {act : Act} (h : r.act? event = some act) :
    act.Concerns [] [name] := by
  cases event with
  | engine event => exact Engine.Only.concerns hr h
  | _ => cases h

/-- **However a run goes on**, its acts are about its foreign table. -/
theorem run (hr : r.Only name) (h : r.run? events = some next) :
    ∀ act ∈ r.acts events, act.Concerns [] [name] := by
  induction events generalizing r with
  | nil => exact List.forall_mem_nil _
  | cons event events ih =>
    obtain ⟨between, hstep, hrest⟩ := Option.bind_eq_some_iff.mp h
    rw [acts, hstep]
    exact List.forall_mem_append.mpr
      ⟨fun act hact => hr.concerns (Option.mem_toList.mp hact), ih (hr.step hstep) hrest⟩

end Only

/-- **A run that is left alone** goes on by events, and what it shows are their acts. -/
theorem exists_run_settle (replies : Replies) (r : TransferRun) (shown : List Act) :
    ∃ events, r.run? events = some (r.settle replies shown).1 ∧
      (r.settle replies shown).2 = (r.acts events).reverse ++ shown := by
  fun_induction settle replies r shown with
  | case1 r shown hnext => exact ⟨[], rfl, rfl⟩
  | case2 r shown event hnext hstep => exact ⟨[], rfl, rfl⟩
  | case3 r shown event hnext next hstep ih =>
    obtain ⟨events, hrun, hacts⟩ := ih
    refine ⟨event :: events, ?_, ?_⟩
    · rw [run?, hstep]
      exact hrun
    · rw [hacts, acts, hstep, Option.map_some, Option.getD_some, List.reverse_append,
        List.append_assoc]
      cases r.act? event <;> rfl

theorem settle_of_step {replies : Replies} {shown : List Act} (hnext : r.next? replies = some event)
    (hstep : r.step event = some next) :
    r.settle replies shown = next.settle replies ((r.act? event).toList ++ shown) := by
  rw [settle, hnext]
  dsimp only
  split
  · next hnone => cases hstep.symm.trans hnone
  · next hsome =>
    cases hstep.symm.trans hsome
    rfl

end TransferRun

/-! ### Transfers from their start -/

variable {ends : Endpoints} {directory : String} {seconds : Int} {c : TransferConfig} {p : Policy}
  {files : FileTree}

/-- **The acts of a transfer** are about its foreign table. -/
theorem concerns_of_mem_transferPages
    (h : act ∈ (transferPages ends directory seconds c (.fresh p) files).acts) :
    act.Concerns [] [c.tableName] := by
  have hlookUps : ∀ act ∈ c.lookUps, act.Concerns [] [c.tableName] := by
    unfold TransferConfig.lookUps
    split
    · exact List.forall_mem_singleton.mpr List.mem_cons_self
    · exact List.forall_mem_nil _
  unfold transferPages at h
  split at h
  · cases h
  · next gapFile files' _ =>
    split at h
    · exact hlookUps act h
    · next r hbegin =>
      obtain ⟨events, hrun, hacts⟩ := r.exists_run_settle ends.replies c.lookUps
      rw [List.mem_reverse, hacts, List.mem_append, List.mem_reverse] at h
      rcases h with h | h
      · exact (TransferRun.only_begin hbegin).run hrun act h
      · exact hlookUps act h

/-- **A transfer copies its first segment** if its gap file can be opened. -/
theorem copy_mem_transferPages {gapFile : GapFile} {files' : FileTree} {pages : BlockRange}
    {rest : List BlockRange}
    (hopen : (GapFile.create directory c.tableName seconds).run.run files = (.ok gapFile, files'))
    (hsegments : c.segments ends.lastPage = .ok (pages :: rest)) :
    .copy c.tableName pages ∈
      (transferPages ends directory seconds c (.fresh p) files).acts := by
  let e := ((Engine.fresh p).transfer c.tableName (pages :: rest)).2
  let r : TransferRun := ⟨e, files', gapFile, 0, ⟨c.tableName, rest.length + 1, [], 0⟩, false⟩
  have hbegin : TransferRun.begin c ends.lastPage (.fresh p) gapFile files' = .ok r := by
    rw [TransferRun.begin, Engine.startTransfer, hsegments]
    rfl
  let looked : Engine := { e with transfers :=
    [{ table := c.tableName, queue := pages :: rest, copier := .poised }] }
  have hlook : r.next? ends.replies = some (.engine (.transfer 0 .look)) := rfl
  have hlooked : r.step (.engine (.transfer 0 .look)) = some { r with engine := looked } := rfl
  have hengine : looked.next? ends.replies = some (.transfer 0 (.start pages)) := rfl
  have hnext : ({ r with engine := looked } : TransferRun).next? ends.replies =
      some (.engine (.transfer 0 (.start pages))) := rfl
  obtain ⟨⟨started, hstarted⟩, -⟩ := Engine.possible_of_next? hengine
  have hstep : ({ r with engine := looked } : TransferRun).step
      (.engine (.transfer 0 (.start pages))) = some { r with engine := started } :=
    congrArg (Option.map _) hstarted
  rw [transferPages, hopen]
  dsimp only
  rw [hbegin]
  dsimp only
  rw [TransferRun.settle_of_step hlook hlooked, TransferRun.settle_of_step hnext hstep,
    List.mem_reverse]
  obtain ⟨events, -, hacts⟩ := TransferRun.exists_run_settle ends.replies _ _
  rw [hacts]
  exact List.mem_append_right _ List.mem_cons_self

end ChainMigration
