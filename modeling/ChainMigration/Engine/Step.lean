import ChainMigration.Engine.Basic

/-! # What a step needs and does

`Pool.Step`, `PageCopy.Step` and `Engine.Step` say once what every move of a pool, every move of a
copier and every event of an engine needs and what it does. Nothing else can happen: that is
`Pool.Step.of_step`, `PageCopy.Step.of_step` and `Engine.Step.of_step`, from which all that is said
of runs is derived. -/

namespace ChainMigration

variable {p : Policy} {closing : Bool} {pool next : Pool} {move : PoolMove}

/-! ### Pools -/

/-- What each move of a pool needs and what it does. -/
inductive Pool.Step (p : Policy) (closing : Bool) (pool : Pool) : PoolMove → Pool → Prop
  | send {range : BlockRange} (hopen : pool.isOpen = true) (hroom : pool.hasRoom = true) :
    Step p closing pool (.send range) { pool with queue := pool.queue ++ [range] }
  | endSource (hended : pool.ended = false) :
    Step p closing pool .endSource { pool with ended := true }
  | quit (hquit : pool.quit = false) : Step p closing pool .quit { pool with quit := true }
  | look {i : Nat} {w : Worker} (hw : pool.workers[i]? = some w)
    (hlook : w = .idle ∨ w = .asleep ∧ pool.wakes = true) (hquit : pool.quit = false)
    (hclosing : closing = false) : Step p closing pool (.look i) (pool.put i .poised)
  | take {i : Nat} {range : BlockRange} {rest : List BlockRange}
    (hw : pool.workers[i]? = some .poised) (hqueue : pool.queue = range :: rest) :
    Step p closing pool (.take i range) ({ pool with queue := rest }.put i (.reading range))
  | sleep {i : Nat} (hw : pool.workers[i]? = some .poised) (hwakes : pool.wakes = false) :
    Step p closing pool (.sleep i) (pool.put i .asleep)
  | read {i : Nat} {range : BlockRange} {answer : Except MigrationError OldRows}
    (hw : pool.workers[i]? = some (.reading range)) :
    Step p closing pool (.read i range answer)
      (pool.put i (.goOn range (afterRead p pool.table range answer)))
  | write {i : Nat} {range : BlockRange} {upgraded : Upgraded} {answer : Except MigrationError Nat}
    (hw : pool.workers[i]? = some (.writing range upgraded)) :
    Step p closing pool (.write i range upgraded.rows answer)
      (pool.put i (.telling range (afterWrite range upgraded answer)))
  | tell {i : Nat} {range : BlockRange} {notice : Notice} {rest : List Notice}
    (hw : pool.workers[i]? = some (.reporting range (notice :: rest))) :
    Step p closing pool (.tell i notice) { pool.put i (.telling range rest) with
      readGaps := pool.readGaps ++ (notice.gap? .read).toList
      writeGaps := pool.writeGaps ++ (notice.gap? .write).toList
      errors := pool.errors ++ notice.failure?.toList }
  | exit {i : Nat} {w : Worker} (hw : pool.workers[i]? = some w)
    (hexit : (w = .idle ∨ w = .asleep) ∧ (pool.quit = true ∨ closing = true) ∨
      w = .poised ∧ pool.ended = true ∧ pool.queue = []) :
    Step p closing pool (.exit i) { pool.put i .exited with senders := pool.senders - 1 }
  | handOver (hheld : pool.handedOver = false) :
    Step p closing pool .handOver { pool with handedOver := true, senders := pool.senders - 1 }
  | finish (hexited : pool.exited = true) (hheld : pool.handedOver = true)
    (hdone : pool.done = false) : Step p closing pool .finish { pool with done := true }
  | receiveReadGap {gap : Gap} {rest : List Gap} (hgaps : pool.readGaps = gap :: rest) :
    Step p closing pool (.receiveReadGap gap) { pool with readGaps := rest }
  | receiveWriteGap {gap : Gap} {rest : List Gap} (hgaps : pool.writeGaps = gap :: rest) :
    Step p closing pool (.receiveWriteGap gap) { pool with writeGaps := rest }
  | receiveFailure {reason : MigrationError} {rest : List MigrationError}
    (herrors : pool.errors = reason :: rest) :
    Step p closing pool (.receiveFailure reason) { pool with errors := rest }

theorem Pool.post_eq (pool : Pool) (notice : Notice) :
    pool.post notice = { pool with
      readGaps := pool.readGaps ++ (notice.gap? .read).toList
      writeGaps := pool.writeGaps ++ (notice.gap? .write).toList
      errors := pool.errors ++ notice.failure?.toList } := by
  rcases notice with ⟨_ | _, gap⟩ | reason <;>
  simp [post, Notice.gap?, Notice.failure?]

/-- **A move does nothing else.** -/
theorem Pool.Step.of_step (h : pool.step p closing move = some next) :
    pool.Step p closing move next := by
  cases move with
  | send range =>
    obtain ⟨hc, ⟨⟩⟩ := Option.ite_none_right_eq_some.mp h
    rw [Bool.and_eq_true] at hc
    exact .send hc.1 hc.2
  | endSource =>
    obtain ⟨hc, ⟨⟩⟩ := Option.ite_none_left_eq_some.mp h
    exact .endSource (Bool.eq_false_iff.mpr hc)
  | quit =>
    obtain ⟨hc, ⟨⟩⟩ := Option.ite_none_left_eq_some.mp h
    exact .quit (Bool.eq_false_iff.mpr hc)
  | look i =>
    obtain ⟨⟨hw, hstop⟩, ⟨⟩⟩ := Option.ite_none_right_eq_some.mp h
    rw [Bool.not_eq_true', Bool.or_eq_false_iff] at hstop
    rcases hw with hw | ⟨hw, hwakes⟩
    · exact .look hw (.inl rfl) hstop.1 hstop.2
    · exact .look hw (.inr ⟨rfl, hwakes⟩) hstop.1 hstop.2
  | take i range =>
    rw [step] at h
    split at h
    · next first rest hw hqueue =>
      obtain ⟨rfl, ⟨⟩⟩ := Option.ite_none_right_eq_some.mp h
      exact .take hw hqueue
    · cases h
  | sleep i =>
    obtain ⟨⟨hw, hwakes⟩, ⟨⟩⟩ := Option.ite_none_right_eq_some.mp h
    rw [Bool.not_eq_true'] at hwakes
    exact .sleep hw hwakes
  | read i range answer =>
    obtain ⟨hw, ⟨⟩⟩ := Option.ite_none_right_eq_some.mp h
    exact .read hw
  | write i range rows answer =>
    rw [step] at h
    split at h
    · next r upgraded hw =>
      obtain ⟨⟨rfl, rfl⟩, ⟨⟩⟩ := Option.ite_none_right_eq_some.mp h
      exact .write hw
    · cases h
  | tell i notice =>
    rw [step] at h
    split at h
    · next range first rest hw =>
      obtain ⟨rfl, ⟨⟩⟩ := Option.ite_none_right_eq_some.mp h
      rw [post_eq]
      exact .tell hw
    · cases h
  | exit i =>
    obtain ⟨hexit, ⟨⟩⟩ := Option.ite_none_right_eq_some.mp h
    rw [Bool.or_eq_true] at hexit
    rcases hexit with ⟨hw | hw, hstop⟩ | ⟨hw, hend⟩
    · exact .exit hw (.inl ⟨.inl rfl, hstop⟩)
    · exact .exit hw (.inl ⟨.inr rfl, hstop⟩)
    · exact .exit hw (.inr ⟨rfl, hend⟩)
  | handOver =>
    obtain ⟨hc, ⟨⟩⟩ := Option.ite_none_left_eq_some.mp h
    exact .handOver (Bool.eq_false_iff.mpr hc)
  | finish =>
    obtain ⟨hc, ⟨⟩⟩ := Option.ite_none_right_eq_some.mp h
    rw [Bool.and_eq_true, Bool.and_eq_true, Bool.not_eq_true'] at hc
    exact .finish hc.1.1 hc.1.2 hc.2
  | receiveReadGap gap =>
    rw [step] at h
    split at h
    · next first rest hgaps =>
      obtain ⟨rfl, ⟨⟩⟩ := Option.ite_none_right_eq_some.mp h
      exact .receiveReadGap hgaps
    · cases h
  | receiveWriteGap gap =>
    rw [step] at h
    split at h
    · next first rest hgaps =>
      obtain ⟨rfl, ⟨⟩⟩ := Option.ite_none_right_eq_some.mp h
      exact .receiveWriteGap hgaps
    · cases h
  | receiveFailure reason =>
    rw [step] at h
    split at h
    · next first rest herrors =>
      obtain ⟨rfl, ⟨⟩⟩ := Option.ite_none_right_eq_some.mp h
      exact .receiveFailure herrors
    · cases h

/-! ### Copiers -/

/-- What each move of a transfer needs and what it does. -/
inductive PageCopy.Step (closing : Bool) (c : PageCopy) : CopyMove → PageCopy → Prop
  | look (hc : c.copier = .idle) (hqueue : c.queue ≠ []) (hclosing : closing = false) :
    Step closing c .look { c with copier := .poised }
  | start {pages : BlockRange} {rest : List BlockRange} (hc : c.copier = .poised)
    (hqueue : c.queue = pages :: rest) :
    Step closing c (.start pages) { c with queue := rest, copier := .copying pages }
  | copied {pages : BlockRange} {count : Nat} (hc : c.copier = .copying pages) :
    Step closing c (.copied pages (.ok count)) { c with copier := .idle }
  | failed {pages : BlockRange} {reason : MigrationError} (hc : c.copier = .copying pages) :
    Step closing c (.copied pages (.error reason))
      { c with copier := .failing reason, failed := c.failed ++ [pages] }
  | tell {reason : MigrationError} (hc : c.copier = .failing reason) :
    Step closing c (.tell reason) { c with copier := .idle, errors := c.errors ++ [reason] }
  | exit (hc : c.copier = .idle) (hstop : closing = true ∨ c.queue = []) :
    Step closing c .exit { c with copier := .exited }
  | letGo (hexited : c.copier = .exited) (hsending : c.sending = true) :
    Step closing c .letGo { c with sending := false }
  | finish (hexited : c.copier = .exited) (hsending : c.sending = false) (hdone : c.done = false) :
    Step closing c .finish { c with done := true }
  | receiveFailed {pages : BlockRange} {rest : List BlockRange}
    (hfailed : c.failed = pages :: rest) :
    Step closing c (.receiveFailed pages) { c with failed := rest }
  | receiveFailure {reason : MigrationError} {rest : List MigrationError}
    (herrors : c.errors = reason :: rest) :
    Step closing c (.receiveFailure reason) { c with errors := rest }

/-- **A move does nothing else.** -/
theorem PageCopy.Step.of_step {c next : PageCopy} {move : CopyMove}
    (h : c.step closing move = some next) : c.Step closing move next := by
  cases move with
  | look =>
    obtain ⟨⟨hc, hqueue, hclosing⟩, ⟨⟩⟩ := Option.ite_none_right_eq_some.mp h
    rw [Bool.not_eq_true'] at hclosing
    exact .look hc hqueue hclosing
  | start pages =>
    rw [step] at h
    split at h
    · next first rest hc hqueue =>
      obtain ⟨rfl, ⟨⟩⟩ := Option.ite_none_right_eq_some.mp h
      exact .start hc hqueue
    · cases h
  | copied pages answer =>
    obtain ⟨hc, h⟩ := Option.ite_none_right_eq_some.mp h
    cases answer with
    | ok count =>
      cases h
      exact .copied hc
    | error reason =>
      cases h
      exact .failed hc
  | tell reason =>
    obtain ⟨hc, ⟨⟩⟩ := Option.ite_none_right_eq_some.mp h
    exact .tell hc
  | exit =>
    obtain ⟨⟨hc, hstop⟩, ⟨⟩⟩ := Option.ite_none_right_eq_some.mp h
    exact .exit hc hstop
  | letGo =>
    obtain ⟨hc, ⟨⟩⟩ := Option.ite_none_right_eq_some.mp h
    rw [Bool.and_eq_true, exited, decide_eq_true_iff] at hc
    exact .letGo hc.1 hc.2
  | finish =>
    obtain ⟨hc, ⟨⟩⟩ := Option.ite_none_right_eq_some.mp h
    rw [Bool.and_eq_true, Bool.and_eq_true, Bool.not_eq_true', Bool.not_eq_true', exited,
      decide_eq_true_iff] at hc
    exact .finish hc.1.1 hc.1.2 hc.2
  | receiveFailed pages =>
    rw [step] at h
    split at h
    · next first rest hfailed =>
      obtain ⟨rfl, ⟨⟩⟩ := Option.ite_none_right_eq_some.mp h
      exact .receiveFailed hfailed
    · cases h
  | receiveFailure reason =>
    rw [step] at h
    split at h
    · next first rest herrors =>
      obtain ⟨rfl, ⟨⟩⟩ := Option.ite_none_right_eq_some.mp h
      exact .receiveFailure herrors
    · cases h

/-! ### Engines -/

/-- What each event of an engine needs and what it does. -/
inductive Engine.Step (e : Engine) : Event → Engine → Prop
  | start (t : Table) (capacity : Option Nat) :
    Step e (.start t capacity) { e with
      pools := e.pools ++ [.fresh e.policy t capacity]
      unregistered := e.unregistered ++ [.pool e.pools.length] }
  | startTransfer (name : String) (segments : List BlockRange) :
    Step e (.startTransfer name segments) { e with
      transfers := e.transfers ++ [{ table := name, queue := segments }]
      unregistered := e.unregistered ++ [.transfer e.transfers.length] }
  | register {task : EngineTask} (htask : task ∈ e.unregistered) :
    Step e (.register task) { e with
      unregistered := e.unregistered.erase task
      registered := e.registered.filter (!e.isDone ·) ++ [task] }
  | pool {i : Nat} {move : PoolMove} {pool next : Pool} (hi : e.pools[i]? = some pool)
    (hmove : pool.Step e.policy e.closing.stops move next) :
    Step e (.pool i move) { e with pools := e.pools.set i next }
  | transfer {i : Nat} {move : CopyMove} {c next : PageCopy} (hi : e.transfers[i]? = some c)
    (hmove : c.Step e.closing.stops move next) :
    Step e (.transfer i move) { e with transfers := e.transfers.set i next }
  | mark (hclosing : e.closing = .running) : Step e .mark { e with closing := .marked }
  | signal (hclosing : e.closing = .marked) : Step e .signal { e with closing := .signalled }
  | collect {canWait : Bool} (hclosing : e.closing = .signalled) :
    Step e (.collect canWait) { e with
      closing := .waiting (if canWait then e.registered else [])
      registered := [] }
  | shut {tasks : List EngineTask} (hclosing : e.closing = .waiting tasks)
    (hdone : tasks.all e.isDone = true) : Step e .shut { e with closing := .shut }

/-- **An event does nothing else.** -/
theorem Engine.Step.of_step {e after : Engine} {event : Event} (h : e.step event = some after) :
    e.Step event after := by
  cases event with
  | start t capacity =>
    cases h
    exact .start t capacity
  | startTransfer name segments =>
    cases h
    exact .startTransfer name segments
  | register =>
    obtain ⟨htask, ⟨⟩⟩ := Option.ite_none_right_eq_some.mp h
    exact .register htask
  | pool i move =>
    rw [step] at h
    split at h
    · next pool hi =>
      obtain ⟨next, hmove, rfl⟩ := Option.map_eq_some_iff.mp h
      exact .pool hi (.of_step hmove)
    · cases h
  | transfer i move =>
    rw [step] at h
    split at h
    · next c hi =>
      obtain ⟨next, hmove, rfl⟩ := Option.map_eq_some_iff.mp h
      exact .transfer hi (.of_step hmove)
    · cases h
  | mark =>
    obtain ⟨hclosing, ⟨⟩⟩ := Option.ite_none_right_eq_some.mp h
    exact .mark hclosing
  | signal =>
    obtain ⟨hclosing, ⟨⟩⟩ := Option.ite_none_right_eq_some.mp h
    exact .signal hclosing
  | collect =>
    obtain ⟨hclosing, ⟨⟩⟩ := Option.ite_none_right_eq_some.mp h
    exact .collect hclosing
  | shut =>
    rw [step] at h
    split at h
    · next tasks hclosing =>
      obtain ⟨hdone, ⟨⟩⟩ := Option.ite_none_right_eq_some.mp h
      exact .shut hclosing hdone
    · cases h

end ChainMigration
