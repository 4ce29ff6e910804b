import ChainMigration.Engine.Step
import ChainMigration.Total

/-! # Progress

Every event but a start and a send brings an engine nearer to rest. `phases` counts the steps that
ranges, segments and the ends of sources have ahead of them until they are only talked about, and
`owed` what else is left to do: notices to give and to receive, looks, exits, and the stages of
closing. Main statement: `Engine.progress_of_step`, an event that adds no work lowers the pair of
the two counts. -/

namespace ChainMigration

/-! ### Counts -/

/-- The phases that a worker has ahead of it before it only tells. -/
def Worker.phases : Worker → Nat
  | .reading _ => 2
  | .writing _ _ => 1
  | _ => 0

/-- What a worker has left to tell, its looks and its exit. A worker that is asleep looks again if
something wakes it. -/
def Worker.owed (wakes : Bool) : Worker → Nat
  | .reporting _ notices => 2 * notices.length + 3
  | .idle => 3
  | .poised => 2
  | .asleep => if wakes then 3 else 1
  | .reading _ | .writing _ _ | .exited => 0

/-- The phases that the ranges of a pool and the end of its source have ahead of them. -/
def Pool.phases (pool : Pool) : Nat :=
  3 * pool.queue.length + total Worker.phases pool.workers + (!pool.ended).toNat

/-- What else is left to do in a pool. -/
def Pool.owed (pool : Pool) : Nat :=
  total (Worker.owed pool.wakes) pool.workers + pool.readGaps.length + pool.writeGaps.length +
    pool.errors.length + (!pool.quit).toNat + (!pool.handedOver).toNat + (!pool.done).toNat

/-- The phases that the segments of a transfer have ahead of them. -/
def PageCopy.phases (c : PageCopy) : Nat :=
  2 * c.queue.length + match c.copier with
    | .copying _ => 1
    | _ => 0

/-- What else is left to do in a transfer. -/
def PageCopy.owed (c : PageCopy) : Nat :=
  (match c.copier with
    | .failing _ => 5
    | .idle => 3
    | .poised => 2
    | .copying _ | .exited => 0) + c.failed.length + c.errors.length + c.sending.toNat +
    (!c.done).toNat

/-- The stages that closing has ahead of it. -/
def Closing.owed : Closing → Nat
  | .running => 4
  | .marked => 3
  | .signalled => 2
  | .waiting _ => 1
  | .shut => 0

namespace Engine

/-- The phases that ranges and segments have ahead of them. -/
def phases (e : Engine) : Nat :=
  total Pool.phases e.pools + total PageCopy.phases e.transfers

/-- What else is left to do in an engine. -/
def owed (e : Engine) : Nat :=
  total Pool.owed e.pools + total PageCopy.owed e.transfers + e.unregistered.length +
    e.closing.owed

end Engine

/-- The event adds work: it starts something or sends a range. -/
def Event.addsWork : Event → Bool
  | .start _ _ | .startTransfer _ _ | .pool _ (.send _) => true
  | _ => false

/-! ### Every other event lowers the counts -/

/-- One pair of counts is below another: first by the phases, then by what is owed. -/
def Lower (a b : Nat × Nat) : Prop := a.1 < b.1 ∨ (a.1 = b.1 ∧ a.2 < b.2)

theorem Lower.lex {a b : Nat × Nat} (h : Lower a b) : Prod.Lex (· < ·) (· < ·) a b := by
  obtain ⟨a1, a2⟩ := a
  obtain ⟨b1, b2⟩ := b
  rcases h with h | ⟨h1, h2⟩
  · exact .left _ _ h
  · simp only at h1
    subst h1
    exact .right _ h2

theorem Worker.phases_goOn (range : BlockRange) (a : AfterRead) : (goOn range a).phases < 2 := by
  cases a with
  | finished notices => cases notices <;> simp [goOn, telling, phases]
  | batch => simp [goOn, phases]

theorem Worker.phases_telling (range : BlockRange) (notices : List Notice) :
    (telling range notices).phases = 0 := by
  cases notices <;> rfl

theorem Worker.owed_telling (wakes : Bool) (range : BlockRange) (notices : List Notice) :
    (telling range notices).owed wakes = 2 * notices.length + 3 := by
  cases notices <;> rfl

theorem Pool.phases_put (pool : Pool) {i : Nat} {w : Worker} (v : Worker)
    (h : pool.workers[i]? = some w) :
    (pool.put i v).phases + w.phases = pool.phases + v.phases := by
  have := total_set Worker.phases v _ _ _ h
  simp only [phases, put]
  omega

theorem Pool.owed_put (pool : Pool) {i : Nat} {w : Worker} (v : Worker)
    (h : pool.workers[i]? = some w) :
    (pool.put i v).owed + w.owed pool.wakes = pool.owed + v.owed pool.wakes := by
  have := total_set (Worker.owed pool.wakes) v _ _ _ h
  simp only [owed, put, wakes] at this ⊢
  omega

theorem Pool.owed_post (pool : Pool) (n : Notice) : (pool.post n).owed = pool.owed + 1 := by
  rcases n with ⟨_ | _, g⟩ | reason <;> simp [post, owed, wakes] <;> omega

theorem Pool.lower_of_put {pool : Pool} {i : Nat} {w v : Worker} (hw : pool.workers[i]? = some w)
    (h : Lower (v.phases, v.owed pool.wakes) (w.phases, w.owed pool.wakes)) :
    Lower ((pool.put i v).phases, (pool.put i v).owed) (pool.phases, pool.owed) := by
  have hphases := phases_put pool v hw
  have howed := owed_put pool v hw
  simp only [Lower] at h ⊢
  omega

theorem Worker.lower_of_look {wakes : Bool} {w : Worker}
    (h : w = .idle ∨ w = .asleep ∧ wakes = true) :
    Lower (poised.phases, poised.owed wakes) (w.phases, w.owed wakes) := by
  rcases h with rfl | ⟨rfl, rfl⟩
  · exact .inr ⟨rfl, Nat.lt_succ_self 2⟩
  · exact .inr ⟨rfl, Nat.lt_succ_self 2⟩

theorem Worker.lower_of_exit (wakes : Bool) {w : Worker}
    (h : w = .idle ∨ w = .asleep ∨ w = .poised) :
    Lower (exited.phases, exited.owed wakes) (w.phases, w.owed wakes) := by
  rcases h with rfl | rfl | rfl
  · exact .inr ⟨rfl, Nat.succ_pos 2⟩
  · exact .inr ⟨rfl, by cases wakes <;> decide⟩
  · exact .inr ⟨rfl, Nat.succ_pos 1⟩

theorem Pool.Step.progress {p : Policy} {closing : Bool} {pool next : Pool} {move : PoolMove}
    (h : pool.Step p closing move next) (hsend : ∀ range, move ≠ .send range) :
    Lower (next.phases, next.owed) (pool.phases, pool.owed) := by
  cases h with
  | send => exact absurd rfl (hsend _)
  | endSource hended => exact .inl (by simp [phases, hended])
  | quit hquit => exact .inr ⟨rfl, by simp [owed, wakes, hquit]⟩
  | look hw hlook => exact lower_of_put hw (Worker.lower_of_look hlook)
  | @take i range rest hw hqueue =>
    have hphases := phases_put { pool with queue := rest } (.reading range) hw
    simp only [Worker.phases] at hphases
    refine .inl ?_
    simp only [phases, hqueue, List.length_cons] at hphases ⊢
    omega
  | sleep hw hwakes =>
    refine lower_of_put hw (.inr ⟨rfl, ?_⟩)
    rw [hwakes]
    exact Nat.lt_succ_self 1
  | read hw => exact lower_of_put hw (.inl (Worker.phases_goOn _ _))
  | write hw =>
    refine lower_of_put hw (.inl ?_)
    rw [Worker.phases_telling]
    exact Nat.one_pos
  | @tell i range notice rest hw =>
    have hphases := phases_put pool (.telling range rest) hw
    have howed := owed_put pool (.telling range rest) hw
    rw [Worker.phases_telling] at hphases
    rw [Worker.owed_telling, Worker.owed, List.length_cons] at howed
    have hpost := owed_post (pool.put i (.telling range rest)) notice
    rw [post_eq] at hpost
    refine .inr ⟨hphases, ?_⟩
    simp only [put] at howed hpost ⊢
    omega
  | exit hw hexit =>
    refine lower_of_put hw (Worker.lower_of_exit _ ?_)
    rcases hexit with ⟨rfl | rfl, -⟩ | ⟨rfl, -⟩ <;> simp
  | handOver hheld => exact .inr ⟨rfl, by simp [owed, wakes, hheld]⟩
  | finish _ _ hdone => exact .inr ⟨rfl, by simp [owed, wakes, hdone]⟩
  | receiveReadGap hgaps => exact .inr ⟨rfl, by simp [owed, wakes, hgaps]⟩
  | receiveWriteGap hgaps => exact .inr ⟨rfl, by simp [owed, wakes, hgaps]⟩
  | receiveFailure herrors => exact .inr ⟨rfl, by simp [owed, wakes, herrors]⟩

theorem PageCopy.Step.progress {closing : Bool} {c next : PageCopy} {move : CopyMove}
    (h : c.Step closing move next) : Lower (next.phases, next.owed) (c.phases, c.owed) := by
  cases h with
  | look hc => exact .inr ⟨by simp [phases, hc], by simp [owed, hc]⟩
  | start hc hqueue => exact .inl (by simp [phases, hc, hqueue]; omega)
  | copied hc => exact .inl (by simp [phases, hc])
  | failed hc => exact .inl (by simp [phases, hc])
  | tell hc => exact .inr ⟨by simp [phases, hc], by simp [owed, hc]; omega⟩
  | exit hc => exact .inr ⟨by simp [phases, hc], by simp [owed, hc]⟩
  | letGo hexited hsending =>
    exact .inr ⟨by simp [phases], by simp [owed, hsending]⟩
  | finish _ _ hdone => exact .inr ⟨rfl, by simp [owed, hdone]⟩
  | receiveFailed hfailed => exact .inr ⟨rfl, by simp [owed, hfailed]⟩
  | receiveFailure herrors => exact .inr ⟨rfl, by simp [owed, herrors]⟩

/-- An event that adds no work brings the engine nearer to rest. -/
theorem Engine.progress_of_step {e next : Engine} {event : Event} (h : e.step event = some next)
    (hadds : event.addsWork = false) :
    Lower (next.phases, next.owed) (e.phases, e.owed) := by
  cases Step.of_step h with
  | start | startTransfer => cases hadds
  | register htask =>
    have hlength := List.length_erase_of_mem htask
    have hpos := List.length_pos_of_mem htask
    exact .inr ⟨rfl, by simp only [owed]; omega⟩
  | @pool i move pool after hi hmove =>
    have hphases := total_set Pool.phases after _ _ _ hi
    have howed := total_set Pool.owed after _ _ _ hi
    have hsend : ∀ range, move ≠ .send range := by
      rintro range rfl
      cases hadds
    have hlower := hmove.progress hsend
    simp only [Lower, phases, owed] at hlower ⊢
    omega
  | @transfer i move c after hi hmove =>
    have hphases := total_set PageCopy.phases after _ _ _ hi
    have howed := total_set PageCopy.owed after _ _ _ hi
    have hlower := hmove.progress
    simp only [Lower, phases, owed] at hlower ⊢
    omega
  | mark hclosing | signal hclosing | collect hclosing | shut hclosing =>
    exact .inr ⟨rfl, by simp [owed, hclosing, Closing.owed]⟩

end ChainMigration
