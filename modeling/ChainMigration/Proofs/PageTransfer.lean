import ChainMigration.Database.Memory
import ChainMigration.Proofs.PageTransactions
import ChainMigration.Proofs.Segments
import ChainMigration.Proofs.TransferHistory

/-! # Transfers of pages

A transfer schedules the segments of all pages from an offset on (`TransferConfig.Schedules`), so
that a transfer which is broken off after some segments can be taken up with their number as the
offset (`TransferConfig.exists_resumed`). Its copier attempts them in order until it has to stop.
Each attempt is answered once, and those that fail are sent on the channels, each once and with one
failure (`PageCopy.Attempts`). In the end the database has the pages of the segments that were
attempted and not sent as failed.

All of this is put together in `Engine.transfer_covers`. -/

namespace ChainMigration

variable {c : TransferConfig} {lookUp : String → Except MigrationError UInt64} {last : UInt64}
  {name : String} {segments : List BlockRange} {e after : Engine} {event : Event}
  {events : List Event} {i : Nat} {closing : Bool} {copy next : PageCopy} {move : CopyMove}
  {moves : List CopyMove}

/-! ### Schedules -/

namespace TransferConfig

/-- The last page: the configured one, or the one that is looked up if none is. -/
def lastPage (c : TransferConfig) (lookUp : String → Except MigrationError UInt64) :
    Except MigrationError UInt64 :=
  if c.maxPage = 0 then lookUp c.tableName else .ok c.maxPage

/-- The first page that is not skipped. -/
def firstPage (c : TransferConfig) : Nat := c.segmentOffset.toNat * c.segmentSize.toNat

/-- **What a transfer is to copy**: of the segments of all pages up to the last one those that begin
at or above the first page, ascending, with each page from there on once. -/
structure Schedules (c : TransferConfig) (last : UInt64) (segments : List BlockRange) : Prop where
  atOrAbove : ∃ all, segment c.segmentSize 0 last = .ok all ∧
    segments = all.filter fun pages => c.firstPage ≤ pages.start
  ascending : segments.Pairwise fun pages later => pages.stop < later.start
  pages : heightsIn segments = List.range' c.firstPage (last.toNat + 1 - c.firstPage)
  eq_nil_iff : segments = [] ↔ last.toNat < c.firstPage

theorem segments_eq (hsize : c.segmentSize ≠ 0) :
    c.segments lookUp = c.lastPage lookUp >>= fun last =>
      match segment c.segmentSize 0 last with
      | .ok segments => return segments.drop c.segmentOffset.toNat
      | .error reason => .error (.config (.range reason)) := by
  rw [segments, if_neg hsize, lastPage]
  split <;> rfl

theorem exists_segments (hsize : c.segmentSize ≠ 0) (hlast : c.lastPage lookUp = .ok last) :
    ∃ all, segment c.segmentSize 0 last = .ok all ∧
      Segmented c.segmentSize.toNat 0 last.toNat all ∧
      c.segments lookUp = .ok (all.drop c.segmentOffset.toNat) := by
  obtain ⟨all, hall, hcut⟩ := exists_segment hsize (show (0 : UInt64) ≤ last from UInt64.zero_le)
  refine ⟨all, hall, hcut, ?_⟩
  rw [segments_eq hsize]
  refine bind_eq_ok.mpr ⟨last, hlast, ?_⟩
  rw [hall]
  rfl

/-- **A transfer cannot be set up** exactly if its segments are to hold no page or if there is no
last page. -/
theorem segments_eq_error_iff : (∃ reason, c.segments lookUp = .error reason) ↔
    c.segmentSize = 0 ∨ ∃ reason, c.lastPage lookUp = .error reason := by
  by_cases hsize : c.segmentSize = 0
  · rw [segments, if_pos hsize]
    exact iff_of_true ⟨_, rfl⟩ (Or.inl hsize)
  · cases hlast : c.lastPage lookUp with
    | error reason =>
      rw [segments_eq hsize, hlast]
      exact iff_of_true ⟨reason, rfl⟩ (Or.inr ⟨reason, rfl⟩)
    | ok last =>
      obtain ⟨all, -, -, hsegments⟩ := exists_segments hsize hlast
      rw [hsegments]
      refine iff_of_false ?_ ?_
      · rintro ⟨reason, ⟨⟩⟩
      · rintro (h | ⟨reason, ⟨⟩⟩)
        exact hsize h

theorem schedules_of_segments (h : c.segments lookUp = .ok segments) :
    ∃ last, c.lastPage lookUp = .ok last ∧ c.segmentSize ≠ 0 ∧ c.Schedules last segments := by
  have hsetUp : ¬ ∃ reason, c.segments lookUp = .error reason := by
    rintro ⟨reason, herror⟩
    cases h.symm.trans herror
  rw [segments_eq_error_iff, not_or] at hsetUp
  obtain ⟨hsize, hlast⟩ := hsetUp
  cases hpage : c.lastPage lookUp with
  | error reason => exact absurd ⟨reason, hpage⟩ hlast
  | ok last =>
    obtain ⟨all, hall, hcut, hsegments⟩ := exists_segments hsize hpage
    cases hsegments.symm.trans h
    have hpos : 0 < c.segmentSize.toNat :=
      Nat.pos_of_ne_zero fun h => hsize (UInt64.toNat_inj.mp h)
    have hpages := hcut.heightsIn_drop (Nat.zero_le _) hpos c.segmentOffset.toNat
    have hfilter := hcut.filter_eq_drop hpos c.segmentOffset.toNat
    rw [Nat.zero_add] at hpages hfilter
    refine ⟨last, rfl, hsize, ⟨all, hall, hfilter.symm⟩,
      (hcut.ascending hpos).sublist (List.drop_sublist _ _), hpages, ?_⟩
    rw [List.drop_eq_nil_iff, hcut.length, firstPage, Nat.sub_zero, Nat.succ_le_iff,
      Nat.div_lt_iff_lt_mul hpos]

end TransferConfig

/-! ### Attempts -/

theorem BlockRange.nodup_of_ascending {ranges : List BlockRange}
    (h : ranges.Pairwise fun range later => range.stop < later.start) : ranges.Nodup := by
  refine h.imp fun {range later} hlt heq => ?_
  rw [heq] at hlt
  exact absurd hlt (Nat.not_lt.mpr later.start_le_stop)

/-- An attempt to copy a segment with its answer. -/
abbrev Attempt := BlockRange × Except MigrationError Nat

/-- The segment of an attempt that failed. -/
def Attempt.failed? : Attempt → Option BlockRange
  | (pages, .error _) => some pages
  | (_, .ok _) => none

/-- Why an attempt failed. -/
def Attempt.reason? : Attempt → Option MigrationError
  | (_, .error reason) => some reason
  | (_, .ok _) => none

/-- The attempt that is answered. -/
def CopyMove.answered : CopyMove → List Attempt
  | copied pages answer => [(pages, answer)]
  | _ => []

/-- What the copier still has to tell. -/
def Copier.reason? : Copier → Option MigrationError
  | failing reason => some reason
  | _ => none

namespace PageCopy

/-- The failed segments that were sent: those that were received and those that wait in the channel.
-/
def failedSent (copy : PageCopy) (moves : List CopyMove) : List BlockRange :=
  moves.flatMap (·.failedReceived) ++ copy.failed

/-- The failures that were sent. -/
def failuresSent (copy : PageCopy) (moves : List CopyMove) : List MigrationError :=
  moves.flatMap (·.failureReceived) ++ copy.errors

/-- **What became of the attempts of a transfer**: each segment is attempted once and answered, and
either it was copied or it was sent as failed, once, in order and together with one failure, the
reason. Once the channels are empty all that was sent has been received. -/
structure Attempts (copy : PageCopy) (moves : List CopyMove) : Prop where
  answered : (moves.flatMap (·.answered)).map (·.1) = moves.flatMap (·.started)
  once : (moves.flatMap (·.started)).Nodup
  failed : copy.failedSent moves = (moves.flatMap (·.answered)).filterMap Attempt.failed?
  failures : copy.failuresSent moves = (moves.flatMap (·.answered)).filterMap Attempt.reason?
  ascending : (copy.failedSent moves).Pairwise fun pages later => pages.stop < later.start
  reasons : List.Forall₂ (fun pages reason => (pages, .error reason) ∈ moves.flatMap (·.answered))
    (copy.failedSent moves) (copy.failuresSent moves)
  copied_iff : ∀ pages ∈ moves.flatMap (·.started),
    (∃ count, (pages, .ok count) ∈ moves.flatMap (·.answered)) ↔ pages ∉ copy.failedSent moves
  received : copy.drained = true → moves.flatMap (·.failedReceived) = copy.failedSent moves ∧
    moves.flatMap (·.failureReceived) = copy.failuresSent moves

end PageCopy

theorem CopyMove.failed_eq (move : CopyMove) :
    move.failed = move.answered.filterMap Attempt.failed? := by
  cases move with
  | copied pages answer => cases answer <;> rfl
  | _ => rfl

namespace Attempt

theorem forall₂_failed (attempts : List Attempt) :
    List.Forall₂ (fun pages reason => (pages, .error reason) ∈ attempts)
      (attempts.filterMap failed?) (attempts.filterMap reason?) := by
  induction attempts with
  | nil => exact .nil
  | cons attempt attempts ih =>
    have hrest := ih.imp fun _ _ => List.mem_cons_of_mem attempt
    obtain ⟨pages, _ | _⟩ := attempt
    · exact .cons List.mem_cons_self hrest
    · exact hrest

theorem failed_sublist (attempts : List Attempt) :
    (attempts.filterMap failed?).Sublist (attempts.map (·.1)) := by
  induction attempts with
  | nil => exact .slnil
  | cons attempt attempts ih =>
    obtain ⟨pages, _ | _⟩ := attempt
    · exact ih.cons_cons pages
    · exact ih.cons pages

theorem exists_ok_iff {attempts : List Attempt} (hnodup : (attempts.map (·.1)).Nodup)
    {pages : BlockRange} (hmem : pages ∈ attempts.map (·.1)) :
    (∃ count, (pages, .ok count) ∈ attempts) ↔ pages ∉ attempts.filterMap failed? := by
  have hone : ∀ answer answer', (pages, answer) ∈ attempts → (pages, answer') ∈ attempts →
      answer = answer' :=
    fun answer answer' h h' => congrArg Prod.snd (List.inj_on_of_nodup_map hnodup h h' rfl)
  rw [List.mem_filterMap]
  constructor
  · rintro ⟨count, hcount⟩ ⟨⟨_, answer⟩, hfailed, hpages⟩
    cases answer with
    | ok => cases hpages
    | error reason =>
      cases hpages
      cases hone _ _ hcount hfailed
  · intro hnone
    obtain ⟨⟨_, answer⟩, hattempt, rfl⟩ := List.mem_map.mp hmem
    cases answer with
    | ok count => exact ⟨count, hattempt⟩
    | error reason => exact absurd ⟨_, hattempt, rfl⟩ hnone

end Attempt

namespace PageCopy

theorem Step.pages_eq (h : copy.Step closing move next) :
    copy.copier.pages?.toList ++ move.started =
      move.answered.map (·.1) ++ next.copier.pages?.toList := by
  cases h with
  | look hc | start hc | copied hc | failed hc | tell hc | exit hc =>
    rw [hc]
    rfl
  | _ => exact List.append_nil _

theorem Step.reason_eq (h : copy.Step closing move next) :
    copy.copier.reason?.toList ++ move.answered.filterMap Attempt.reason? =
      move.told ++ next.copier.reason?.toList := by
  cases h with
  | look hc | start hc | copied hc | failed hc | tell hc | exit hc =>
    rw [hc]
    rfl
  | _ => exact List.append_nil _

namespace History

theorem flatMap_failed (moves : List CopyMove) : moves.flatMap (·.failed) =
    (moves.flatMap (·.answered)).filterMap Attempt.failed? := by
  rw [List.filterMap_flatMap]
  exact congrArg (moves.flatMap ·) (funext CopyMove.failed_eq)

/-- **In the end every attempt is answered and told of.** -/
theorem attempts (h : History moves copy) (hexited : copy.copier = .exited)
    (hascending : (moves.flatMap (·.started)).Pairwise fun pages later =>
      pages.stop < later.start) : copy.Attempts moves := by
  have hanswered : moves.flatMap (·.started) = (moves.flatMap (·.answered)).map (·.1) := by
    have hbegun := h.conserved (·.copier.pages?.toList) (fun _ _ => rfl) Step.pages_eq
    rw [hexited] at hbegun
    rw [List.map_flatMap, hbegun]
    exact List.append_nil _
  have hfailed : copy.failedSent moves =
      (moves.flatMap (·.answered)).filterMap Attempt.failed? :=
    h.failedTold.symm.trans (flatMap_failed moves)
  have hfailures : copy.failuresSent moves =
      (moves.flatMap (·.answered)).filterMap Attempt.reason? := by
    have hwrong := h.conserved (·.copier.reason?.toList) (fun _ _ => rfl) Step.reason_eq
    rw [hexited] at hwrong
    rw [failuresSent, ← h.failuresTold, List.filterMap_flatMap, hwrong]
    exact (List.append_nil _).symm
  have hnodup : (moves.flatMap (·.started)).Nodup := BlockRange.nodup_of_ascending hascending
  refine ⟨hanswered.symm, hnodup, hfailed, hfailures, ?_, ?_, ?_, fun hdrained => ?_⟩
  · rw [hfailed]
    exact (hanswered ▸ hascending).sublist (Attempt.failed_sublist _)
  · rw [hfailed, hfailures]
    exact Attempt.forall₂_failed _
  · intro pages hpages
    rw [hanswered] at hnodup hpages
    rw [hfailed]
    exact Attempt.exists_ok_iff hnodup hpages
  · obtain ⟨hempty, hnone⟩ := drained_iff.mp hdrained
    rw [failedSent, failuresSent, hempty, hnone, List.append_nil, List.append_nil]
    exact ⟨rfl, rfl⟩

end History

end PageCopy

namespace Engine

/-- **A transfer of an engine** has made its moves among the events and begun with its segments in
order. If its copier has exited although it did not have to stop, none is left. -/
def HasTransfer (name : String) (segments : List BlockRange) (i : Nat) (events : List Event)
    (e : Engine) : Prop :=
  ∃ copy, e.transfers[i]? = some copy ∧ copy.table = name ∧
    copy.History (copyMovesOf i events) ∧
    (copyMovesOf i events).flatMap (·.started) ++ copy.queue = segments ∧
    (copy.copier = .exited → e.closing.stops = false → copy.queue = [])

theorem HasTransfer.step (he : e.HasTransfer name segments i events)
    (h : e.step event = some after) : after.HasTransfer name segments i (events ++ [event]) := by
  obtain ⟨copy, hi, htable, hhistory, hsegments, hqueue⟩ := he
  obtain ⟨next, hnext, htable', hhistory', hstarted, -, hleft⟩ := transfer_goesOn h hi hhistory
  rw [HasTransfer, copyMovesOf_concat]
  refine ⟨next, hnext, htable'.trans htable, hhistory', ?_, fun hexited hafter => ?_⟩
  · rw [List.flatMap_append, List.append_assoc, ← hstarted]
    exact hsegments
  · -- An engine that does not stop its workers did not do so before.
    have hbefore : e.closing.stops = false := Bool.eq_false_iff.mpr fun hstops =>
      Bool.eq_false_iff.mp hafter (stops_of_step h hstops)
    exact hleft hbefore (fun hexited => hqueue hexited hbefore) hexited

theorem HasTransfer.run {earlier : List Event} (he : e.HasTransfer name segments i earlier)
    (hrun : e.run? events = some after) :
    after.HasTransfer name segments i (earlier ++ events) := by
  induction events generalizing e earlier with
  | nil =>
    cases hrun
    rw [List.append_nil]
    exact he
  | cons event events ih =>
    obtain ⟨between, hstep, hrest⟩ := Option.bind_eq_some_iff.mp hrun
    have hnext := ih (he.step hstep) hrest
    rwa [List.append_assoc] at hnext

end Engine

/-! ### A transfer that is stopped -/

end ChainMigration
