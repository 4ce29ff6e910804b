import ChainMigration.Proofs.CanonicalLogs
import ChainMigration.Proofs.Outcome

/-! # Repairing logs

A stored log is proved by the log that its columns describe if the key of that log is the one stored
with the row. The missing blobs of rows are supplied for all of them or for none
(`Table.upgrade_logRepair`): if every row is proved, each gets its blob, and otherwise the first row
that is not proved decides the error and the whole range becomes a gap. -/

namespace ChainMigration

namespace StoredLog

/-- The topics of the row, slot by slot. -/
def slots (r : StoredLog) : List (Option String) := [r.topic0, r.topic1, r.topic2, r.topic3]

/-- **The row is proved by a log**: its columns describe the log, and the key stored with the row is
the key of the encoded log. -/
structure ProvedBy (r : StoredLog) (log : Chain.CanonicalLog) : Prop where
  described : log.Described r.address r.slots (r.logData.getD [])
  key : Chain.blobKey log.encode = r.leafMhKey

/-- **What is wrong with a row**: its columns describe no log, or a log with another key. -/
inductive Refused (r : StoredLog) : UpgradeError → Prop
  | misspelled {reason : Chain.CodecError}
    (h : Chain.CanonicalLog.Misspelled r.address r.slots reason) :
    Refused r (.log r.rctId r.index reason)
  | tampered {log : Chain.CanonicalLog} (h : log.Described r.address r.slots (r.logData.getD []))
    (hkey : Chain.blobKey log.encode ≠ r.leafMhKey) :
    Refused r (.key r.rctId r.index r.leafMhKey (Chain.blobKey log.encode))

variable {r : StoredLog}

theorem canonical_eq_ok {log : Chain.CanonicalLog} :
    r.canonical = .ok log ↔ log.Described r.address r.slots (r.logData.getD []) :=
  Chain.CanonicalLog.ofColumns_eq_ok

/-- **A row has its blob** exactly if it is proved: the encoded log under the stored key. -/
theorem blob_eq_ok {blob : Blob} :
    r.blob = .ok blob ↔ ∃ log, r.ProvedBy log ∧ blob = ⟨r.leafMhKey, log.encode⟩ := by
  unfold StoredLog.blob
  simp only [bind_eq_ok, mapError_eq_ok, canonical_eq_ok]
  constructor
  · rintro ⟨log, hlog, h⟩
    split at h
    · next hkey =>
      cases h
      exact ⟨log, ⟨hlog, hkey⟩, by rw [hkey]⟩
    · cases h
  · rintro ⟨log, ⟨hlog, hkey⟩, rfl⟩
    refine ⟨log, hlog, ?_⟩
    rw [if_pos hkey, hkey]
    rfl

theorem refused_of_blob_eq_error {fault : UpgradeError} (h : r.blob = .error fault) :
    r.Refused fault := by
  rcases bind_eq_error.mp h with h | ⟨log, hlog, h⟩
  · obtain ⟨reason, hlog, rfl⟩ := mapError_eq_error.mp h
    exact .misspelled (Chain.CanonicalLog.misspelled_of_ofColumns_eq_error hlog)
  · have hdescribed := canonical_eq_ok.mp (mapError_eq_ok.mp hlog)
    dsimp only at h
    split at h
    · cases h
    · next hkey =>
      cases h
      exact .tampered hdescribed hkey

theorem not_provedBy_of_blob_eq_error {fault : UpgradeError} (h : r.blob = .error fault)
    (log : Chain.CanonicalLog) : ¬ r.ProvedBy log := by
  intro hproved
  rw [blob_eq_ok.mpr ⟨log, hproved, rfl⟩] at h
  cases h

theorem upgrade_eq_ok {w next : HeightWalk} {blob : Blob} :
    OldRow.upgrade (t := .logRepair) w r = .ok (next, blob) ↔ next = w ∧ r.blob = .ok blob := by
  have hmap : r.blob.map (w, ·) = .ok (next, blob) ↔ next = w ∧ r.blob = .ok blob := by
    cases r.blob <;> simp [Except.map, eq_comm]
  exact hmap

theorem becomes_iff {blob : Blob} : OldRow.Becomes (t := .logRepair) r blob ↔
    ∃ log, r.ProvedBy log ∧ blob = ⟨r.leafMhKey, log.encode⟩ := by
  rw [← blob_eq_ok]
  constructor
  · rintro ⟨w, next, h⟩
    exact (upgrade_eq_ok.mp h).2
  · intro h
    let w : HeightWalk := .begin ⟨0, 0, Nat.le_refl 0, by decide⟩ .none
    exact ⟨w, w, upgrade_eq_ok.mpr ⟨rfl, h⟩⟩

theorem ProvedBy.formed {log : Chain.CanonicalLog} (h : r.ProvedBy log) : log.Formed :=
  h.described.formed (Nat.le_refl 4)

end StoredLog

namespace Table

variable {range : BlockRange} {rows : List StoredLog}

/-- **All rows get their blobs**, in order and without missing heights, or there are none. -/
theorem upgrade_logRepair_eq_ok {upgraded : Upgraded} :
    Table.logRepair.upgrade range ⟨.logRepair, rows⟩ = .ok upgraded ↔
      ∃ blobs : List Blob, upgraded = ⟨⟨.logRepair, blobs⟩, []⟩ ∧
        List.Forall₂ (fun r blob => ∃ log, r.ProvedBy log ∧ blob = ⟨r.leafMhKey, log.encode⟩)
          rows blobs := by
  simp only [← StoredLog.becomes_iff]
  constructor
  · intro h
    have hmissing := Table.missing_of_none rfl h
    obtain ⟨rows', blobs, w, hrows, hup, -, hall⟩ := Table.upgrade_eq_ok.mp h
    cases hrows
    refine ⟨blobs, ?_, hall⟩
    rw [hup] at hmissing ⊢
    exact congrArg _ hmissing
  · rintro ⟨blobs, rfl, hall⟩
    exact Table.upgrade_eq_ok.mpr
      ⟨rows, blobs, .begin range .none, rfl, rfl, (passAll_of_none rfl).mpr rfl, hall⟩

/-- **The first row that is not proved** decides the error. -/
theorem exists_refused_of_upgrade_eq_error {fault : UpgradeError}
    (h : Table.logRepair.upgrade range ⟨.logRepair, rows⟩ = .error fault) :
    ∃ before row after, rows = before ++ row :: after ∧
      (∀ r ∈ before, ∃ log, r.ProvedBy log) ∧ (∀ log, ¬ row.ProvedBy log) ∧ row.Refused fault := by
  obtain ⟨before, row, after, w, news, rfl, hbefore, hrow⟩ :=
    exists_of_upgradeRows_eq_error (Table.upgrade_eq_error.mp h)
  have hblob : StoredLog.blob row = .error fault := map_eq_error.mp hrow
  have hproved := exists_forall₂_iff.mp ⟨news, (upgradeRows_eq_ok.mp hbefore).2⟩
  refine ⟨before, row, after, rfl, fun r hr => ?_, StoredLog.not_provedBy_of_blob_eq_error hblob,
    StoredLog.refused_of_blob_eq_error hblob⟩
  obtain ⟨blob, hbecomes⟩ := hproved r hr
  obtain ⟨log, hlog, -⟩ := StoredLog.becomes_iff.mp hbecomes
  exact ⟨log, hlog⟩

/-- **Log repair supplies exactly the proved blobs or nothing.** The upgrade succeeds if and only if
every row is proved by a log. Then each row gets one blob, in order: the encoded log under the key
stored with the row, which is the key of the blob. Otherwise the error is about the first row that
is not proved, and whatever could be written, nothing of the range is: all of it becomes a write
gap. Two rows with one key are proved by the same log, unless the encoded logs collide. -/
theorem upgrade_logRepair (range : BlockRange) (rows : List StoredLog) :
    ((∃ upgraded, Table.logRepair.upgrade range ⟨.logRepair, rows⟩ = .ok upgraded) ↔
      ∀ r ∈ rows, ∃ log, r.ProvedBy log) ∧
    (∀ upgraded, Table.logRepair.upgrade range ⟨.logRepair, rows⟩ = .ok upgraded →
      upgraded.missing = [] ∧ ∃ blobs : List Blob, upgraded.rows = ⟨.logRepair, blobs⟩ ∧
        List.Forall₂ (fun r blob => blob.key = r.leafMhKey ∧ blob.key = Chain.blobKey blob.data ∧
          ∃ log, r.ProvedBy log ∧ blob.data = log.encode) rows blobs) ∧
    (∀ fault, Table.logRepair.upgrade range ⟨.logRepair, rows⟩ = .error fault →
      (∃ before row after, rows = before ++ row :: after ∧
        (∀ r ∈ before, ∃ log, r.ProvedBy log) ∧ (∀ log, ¬ row.ProvedBy log) ∧ row.Refused fault) ∧
      ∀ (ends : Endpoints) (p : Policy), ends.read .logRepair range = .ok ⟨.logRepair, rows⟩ →
        let o := processRange ends p .logRepair range
        o.written = none ∧ o.gaps .write = [⟨range, .transformFailed⟩] ∧ o.gaps .read = [] ∧
          o.failures = [.transform Table.logRepair.name range fault]) ∧
    ∀ (r r' : StoredLog) (log log' : Chain.CanonicalLog), r.ProvedBy log → r'.ProvedBy log' →
      r.leafMhKey = r'.leafMhKey → log = log' ∨ Chain.Collide log.encode log'.encode := by
  refine ⟨?_, fun upgraded h => ?_, fun fault h => ⟨exists_refused_of_upgrade_eq_error h,
    fun ends p hread => ?_⟩, fun r r' log log' hlog hlog' hkey => ?_⟩
  · simp only [upgrade_logRepair_eq_ok]
    constructor
    · rintro ⟨-, blobs, -, hall⟩ r hr
      obtain ⟨blob, log, hlog, -⟩ := exists_forall₂_iff.mp ⟨blobs, hall⟩ r hr
      exact ⟨log, hlog⟩
    · intro h
      have hblob (r : StoredLog) (hr : r ∈ rows) :
          ∃ blob : Blob, ∃ log, r.ProvedBy log ∧ blob = ⟨r.leafMhKey, log.encode⟩ := by
        obtain ⟨log, hlog⟩ := h r hr
        exact ⟨_, log, hlog, rfl⟩
      obtain ⟨blobs, hall⟩ := exists_forall₂_iff.mpr hblob
      exact ⟨_, blobs, rfl, hall⟩
  · obtain ⟨blobs, rfl, hall⟩ := upgrade_logRepair_eq_ok.mp h
    refine ⟨rfl, blobs, rfl, hall.imp fun r blob hblob => ?_⟩
    obtain ⟨log, hlog, rfl⟩ := hblob
    exact ⟨rfl, hlog.key.symm, log, hlog, rfl⟩
  · have hworked := worked_processRange ends p .logRepair range
    generalize processRange ends p .logRepair range = o at hworked
    cases hworked with
    | unread hread' =>
      rw [hread] at hread'
      cases hread'
    | empty hread' hrows =>
      -- A row is refused, so there are rows.
      rw [hread] at hread'
      cases hread'
      obtain ⟨before, row, after, hall, -⟩ := exists_refused_of_upgrade_eq_error h
      exact absurd (hall.symm.trans hrows)
        (List.append_ne_nil_of_right_ne_nil _ (List.cons_ne_nil _ _))
    | rejected hread' hrows hup =>
      rw [hread] at hread'
      cases hread'
      rw [h] at hup
      cases hup
      exact ⟨rfl, rfl, rfl, rfl⟩
    | refused hread' hrows hup | written hread' hrows hup =>
      rw [hread] at hread'
      cases hread'
      rw [h] at hup
      cases hup
  · refine Chain.CanonicalLog.eq_or_collide hlog.formed hlog'.formed ?_
    rw [hlog.key, hlog'.key, hkey]

end Table

end ChainMigration
