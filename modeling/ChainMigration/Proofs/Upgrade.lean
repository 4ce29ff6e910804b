import ChainMigration.Proofs.Except
import ChainMigration.Proofs.Heights
import ChainMigration.Row.Upgrade
import Mathlib.Data.List.Forall2

/-! # Upgrading rows, one by one and together

Whether a row is upgraded depends on the walk only through its height: a row becomes the same new
row in every walk that it can pass (`upgrade_eq_ok`). A list of rows therefore becomes new rows
exactly if each of them becomes one and the walk accepts their heights (`upgradeRows_eq_ok`), and
the runs of heights found missing are the heights of the range that no row has
(`heightsIn_missing`). -/

namespace ChainMigration

variable {t : Table}

/-! ### Heights of rows -/

/-- The text of the block number of a row. Nodes have none. -/
def OldRow.blockNumber? : {t : Table} → OldRow t → Option String
  | .nodes, _ => none
  | .headers, r => some (OldHeader.blockNumber r)
  | .uncles, r => some (OldUncle.blockNumber r)
  | .transactions, r => some (OldTransaction.blockNumber r)
  | .accessListElements, r => some (OldAccessListElement.blockNumber r)
  | .receipts, r => some (OldReceipt.blockNumber r)
  | .logs, r => some (OldLog.blockNumber r)
  | .logRepair, r => some (StoredLog.blockNumber r)
  | .state, r => some (OldStateNode.blockNumber r)
  | .accounts, r => some (OldAccount.blockNumber r)
  | .storage, r => some (OldStorageNode.blockNumber r)

/-- The height of a row, if it has a block number that can be read. -/
def OldRow.height? (row : OldRow t) : Option Nat :=
  row.blockNumber?.bind fun raw => (readHeight raw).toOption

theorem OldRow.height?_eq {row : OldRow t} {raw : String} (h : row.blockNumber? = some raw) :
    row.height? = (readHeight raw).toOption := by
  rw [height?, h, Option.bind_some]

/-- The heights of rows in order. -/
def heightsOf (rows : List (OldRow t)) : List Nat := rows.filterMap OldRow.height?

/-! ### One row -/

/-- The row becomes this new row in some walk. -/
def OldRow.Becomes (row : OldRow t) (new : NewRow t) : Prop :=
  ∃ w next, row.upgrade w = .ok (next, new)

/-- The row takes a walk on: by its height if the table promises heights. -/
def OldRow.Passes (row : OldRow t) (w next : HeightWalk) : Prop :=
  if t.continuity = .none then next = w
  else ∃ height, row.height? = some height ∧ w.observe height = .ok next

theorem HeightWalk.observeText_eq_ok {w next : HeightWalk} {raw : String}
    {fault : Text.NumberError → UpgradeError} {height : Nat} :
    w.observeText raw fault = .ok (height, next) ↔
      (readHeight raw).toOption = some height ∧ w.observe height = .ok next := by
  unfold observeText
  rw [bind_eq_ok]
  simp only [mapError_eq_ok, bind_eq_ok, pure_eq_ok, toOption_eq_some, Prod.mk.injEq]
  constructor
  · rintro ⟨h, hr, w', ho, rfl, rfl⟩
    exact ⟨hr, ho⟩
  · rintro ⟨hr, ho⟩
    exact ⟨height, hr, next, ho, rfl, rfl⟩

theorem HeightWalk.observeText_eq_error {w : HeightWalk} {raw : String}
    {fault : Text.NumberError → UpgradeError} {cause : UpgradeError} :
    w.observeText raw fault = .error cause ↔
      (∃ reason, readHeight raw = .error reason ∧ fault reason = cause) ∨
        ∃ height reason, (readHeight raw).toOption = some height ∧
          w.observe height = .error reason ∧ .continuity reason = cause := by
  unfold observeText
  simp only [bind_eq_error, mapError_eq_error, mapError_eq_ok, toOption_eq_some]
  refine or_congr_right (exists_congr fun height => ?_)
  constructor
  · rintro ⟨hread, ⟨reason, ho, rfl⟩ | ⟨_, -, h⟩⟩
    · exact ⟨reason, hread, ho, rfl⟩
    · cases h
  · rintro ⟨reason, hread, ho, rfl⟩
    exact ⟨hread, Or.inl ⟨reason, ho, rfl⟩⟩

/-- An upgrade that reads a height, takes it into the walk and then looks at the height alone. -/
theorem HeightWalk.upgrade_eq_ok {α : Type} {raw : String} {fault : Text.NumberError → UpgradeError}
    {f : HeightWalk → Except UpgradeError (HeightWalk × α)} (g : Nat → Except UpgradeError α)
    (hf : ∀ w, f w = w.observeText raw fault >>= fun x => (g x.1).map (x.2, ·))
    {w next : HeightWalk} {new : α} :
    f w = .ok (next, new) ↔
      (∃ height, (readHeight raw).toOption = some height ∧ w.observe height = .ok next) ∧
        ∃ w' next', f w' = .ok (next', new) := by
  constructor
  · intro h
    refine ⟨?_, w, next, h⟩
    rw [hf] at h
    obtain ⟨⟨height, w'⟩, ht, h⟩ := bind_eq_ok.mp h
    obtain ⟨a, -, h⟩ := map_eq_ok.mp h
    cases h
    exact ⟨height, HeightWalk.observeText_eq_ok.mp ht⟩
  · rintro ⟨⟨height, hr, ho⟩, w', next', h⟩
    rw [hf] at h ⊢
    obtain ⟨⟨height', w''⟩, ht, h⟩ := bind_eq_ok.mp h
    obtain ⟨a, ha, h⟩ := map_eq_ok.mp h
    cases h
    -- Both walks read the same text, so the height is the same.
    obtain rfl : height = height' :=
      Option.some.inj (hr.symm.trans (HeightWalk.observeText_eq_ok.mp ht).1)
    exact bind_eq_ok.mpr ⟨(height, next), HeightWalk.observeText_eq_ok.mpr ⟨hr, ho⟩,
      map_eq_ok.mpr ⟨new, ha, rfl⟩⟩

/-- What a block header becomes at a height. -/
def OldHeader.renewed (r : OldHeader) (height : Nat) : Except UpgradeError NewHeader := do
  let coinbase ← (Chain.beneficiary r.data).mapError (.header r.blockHash)
  if height ≤ bigintMax then
    return ⟨.ofNat height, r.blockHash, r.parentHash, r.cid, r.mhKey, r.td, r.nodeId, r.reward,
      r.stateRoot, r.uncleRoot, r.txRoot, r.receiptRoot, r.bloom, r.timestamp, r.timesValidated,
      coinbase⟩
  else .error (.bigint height)

theorem OldHeader.upgrade_eq (r : OldHeader) (w : HeightWalk) :
    OldHeader.upgrade w r = w.observeText r.blockNumber (.height r.blockNumber) >>= fun x =>
      (r.renewed x.1).map (x.2, ·) := by
  unfold upgrade renewed
  congr 1
  funext ⟨height, w'⟩
  cases (Chain.beneficiary r.data).mapError (UpgradeError.header r.blockHash) with
  | error reason => rfl
  | ok coinbase =>
    simp only [bind, Except.bind]
    split <;> rfl

theorem OldRow.upgrade_of_none (hc : t.continuity = .none) (row : OldRow t) :
    ∃ x : Except UpgradeError (NewRow t), ∀ w, row.upgrade w = x.map (w, ·) := by
  cases t with
  | headers | state | accounts => cases hc
  | nodes => exact ⟨.ok row, fun _ => rfl⟩
  | uncles => exact ⟨.ok (OldUncle.upgrade row), fun _ => rfl⟩
  | transactions => exact ⟨OldTransaction.upgrade row, fun _ => rfl⟩
  | accessListElements => exact ⟨.ok (OldAccessListElement.upgrade row), fun _ => rfl⟩
  | receipts => exact ⟨.ok (OldReceipt.upgrade row), fun _ => rfl⟩
  | logs => exact ⟨.ok (OldLog.upgrade row), fun _ => rfl⟩
  | logRepair => exact ⟨StoredLog.blob row, fun _ => rfl⟩
  | storage => exact ⟨.ok (OldStorageNode.upgrade row), fun _ => rfl⟩

/-- **A row is upgraded exactly if it passes the walk and becomes something**, and what it becomes
does not depend on the walk. -/
theorem OldRow.upgrade_eq_ok {row : OldRow t} {w next : HeightWalk} {new : NewRow t} :
    row.upgrade w = .ok (next, new) ↔ row.Passes w next ∧ row.Becomes new := by
  unfold Passes Becomes
  by_cases hc : t.continuity = .none
  · rw [if_pos hc]
    obtain ⟨x, hx⟩ := row.upgrade_of_none hc
    simp only [hx, map_eq_ok, Prod.mk.injEq]
    constructor
    · rintro ⟨a, ha, rfl, rfl⟩
      exact ⟨rfl, w, w, a, ha, rfl, rfl⟩
    · rintro ⟨rfl, w', next', a, ha, -, rfl⟩
      exact ⟨a, ha, rfl, rfl⟩
  · rw [if_neg hc]
    cases t with
    | headers =>
      rw [OldRow.height?_eq (show row.blockNumber? = some (OldHeader.blockNumber row) from rfl)]
      exact HeightWalk.upgrade_eq_ok (OldHeader.renewed row) (OldHeader.upgrade_eq row)
    | state =>
      rw [OldRow.height?_eq (show row.blockNumber? = some (OldStateNode.blockNumber row) from rfl)]
      exact HeightWalk.upgrade_eq_ok (fun _ => .ok _) fun _ => rfl
    | accounts =>
      rw [OldRow.height?_eq (show row.blockNumber? = some (OldAccount.blockNumber row) from rfl)]
      exact HeightWalk.upgrade_eq_ok (fun _ => .ok _) fun _ => rfl
    | _ => exact absurd rfl hc

theorem OldRow.Becomes.unique {row : OldRow t} {a b : NewRow t} (ha : row.Becomes a)
    (hb : row.Becomes b) : a = b := by
  obtain ⟨w, next, h⟩ := ha
  have := OldRow.upgrade_eq_ok.mpr ⟨(OldRow.upgrade_eq_ok.mp h).1, hb⟩
  rw [h] at this
  cases this
  rfl

theorem OldRow.rightUnique_becomes : Relator.RightUnique (OldRow.Becomes (t := t)) :=
  fun _ _ _ ha hb => ha.unique hb

/-! ### Rows in order -/

theorem exists_forall₂_iff {α β : Type} {R : α → β → Prop} : ∀ {l : List α},
    (∃ u, List.Forall₂ R l u) ↔ ∀ a ∈ l, ∃ b, R a b
  | [] => iff_of_true ⟨[], .nil⟩ fun _ h => absurd h List.not_mem_nil
  | a :: l => by
    rw [List.forall_mem_cons, ← exists_forall₂_iff]
    constructor
    · rintro ⟨_, h⟩
      cases h with
      | cons hb hu => exact ⟨⟨_, hb⟩, _, hu⟩
    · rintro ⟨⟨b, hb⟩, u, hu⟩
      exact ⟨b :: u, .cons hb hu⟩

/-- The rows take a walk on, one after the other. -/
def PassAll (rows : List (OldRow t)) (w next : HeightWalk) : Prop :=
  if t.continuity = .none then next = w
  else (∀ row ∈ rows, row.height?.isSome) ∧ w.observeAll (heightsOf rows) = .ok next

theorem heightsOf_cons {row : OldRow t} {rows : List (OldRow t)} {height : Nat}
    (h : row.height? = some height) : heightsOf (row :: rows) = height :: heightsOf rows :=
  List.filterMap_cons_some h

theorem passAll_of_none {rows : List (OldRow t)} {w next : HeightWalk} (hc : t.continuity = .none) :
    PassAll rows w next ↔ next = w := by
  rw [PassAll, if_pos hc]

theorem passAll_cons {row : OldRow t} {rows : List (OldRow t)} {w next : HeightWalk} :
    PassAll (row :: rows) w next ↔ ∃ w', row.Passes w w' ∧ PassAll rows w' next := by
  unfold PassAll OldRow.Passes
  by_cases hc : t.continuity = .none
  · simp only [if_pos hc, exists_eq_left]
  · simp only [if_neg hc, List.forall_mem_cons]
    constructor
    · rintro ⟨⟨hsome, hrows⟩, h⟩
      obtain ⟨height, hh⟩ := Option.isSome_iff_exists.mp hsome
      rw [heightsOf_cons hh] at h
      obtain ⟨w', ho, h⟩ := HeightWalk.observeAll_cons_eq_ok.mp h
      exact ⟨w', ⟨height, hh, ho⟩, hrows, h⟩
    · rintro ⟨w', ⟨height, hh, ho⟩, hrows, h⟩
      refine ⟨⟨Option.isSome_iff_exists.mpr ⟨height, hh⟩, hrows⟩, ?_⟩
      rw [heightsOf_cons hh]
      exact HeightWalk.observeAll_cons_eq_ok.mpr ⟨w', ho, h⟩

/-- **Rows are upgraded exactly if each becomes a new row and they take the walk on.** -/
theorem upgradeRows_eq_ok {rows : List (OldRow t)} :
    ∀ {w next : HeightWalk} {news : List (NewRow t)},
    upgradeRows w rows = .ok (next, news) ↔
      PassAll rows w next ∧ List.Forall₂ OldRow.Becomes rows news := by
  induction rows with
  | nil =>
    intro w next news
    have hpass : PassAll ([] : List (OldRow t)) w next ↔ w = next := by
      unfold PassAll heightsOf
      split
      · exact eq_comm
      · simp [HeightWalk.observeAll]
    rw [List.forall₂_nil_left_iff, hpass, upgradeRows, Except.ok.injEq, Prod.mk.injEq]
    exact and_congr_right fun _ => eq_comm
  | cons row rows ih =>
    intro w next news
    rw [passAll_cons, List.forall₂_cons_left_iff]
    constructor
    · intro h
      obtain ⟨⟨w', new⟩, hrow, h⟩ := bind_eq_ok.mp h
      obtain ⟨⟨w'', news'⟩, hrows, h⟩ := bind_eq_ok.mp h
      cases h
      obtain ⟨hp, hb⟩ := OldRow.upgrade_eq_ok.mp hrow
      obtain ⟨hps, hbs⟩ := ih.mp hrows
      exact ⟨⟨w', hp, hps⟩, new, news', hb, hbs, rfl⟩
    · rintro ⟨⟨w', hp, hps⟩, new, news', hb, hbs, rfl⟩
      refine bind_eq_ok.mpr ⟨(w', new), OldRow.upgrade_eq_ok.mpr ⟨hp, hb⟩, ?_⟩
      exact bind_eq_ok.mpr ⟨(next, news'), ih.mpr ⟨hps, hbs⟩, rfl⟩

/-- **Rows that are not upgraded** begin with some that are, up to the one at fault. -/
theorem exists_of_upgradeRows_eq_error {fault : UpgradeError} :
    ∀ {rows : List (OldRow t)} {w : HeightWalk}, upgradeRows w rows = .error fault →
      ∃ before row after w' news, rows = before ++ row :: after ∧
        upgradeRows w before = .ok (w', news) ∧ OldRow.upgrade w' row = .error fault
  | [], _, h => by cases h
  | row :: rows, w, h => by
    rcases bind_eq_error.mp h with hrow | ⟨⟨w', new⟩, hrow, h⟩
    · exact ⟨[], row, rows, w, [], rfl, rfl, hrow⟩
    rcases bind_eq_error.mp h with hrows | ⟨_, -, h⟩
    · obtain ⟨before, row', after, last, news, rfl, hbefore, hrow'⟩ :=
        exists_of_upgradeRows_eq_error hrows
      refine ⟨row :: before, row', after, last, new :: news, rfl, ?_, hrow'⟩
      exact bind_eq_ok.mpr ⟨(w', new), hrow, bind_eq_ok.mpr ⟨(last, news), hbefore, rfl⟩⟩
    · cases h

/-- The rows behind the one at fault make no difference. -/
theorem upgradeRows_of_upgrade_eq_error {fault : UpgradeError} {row : OldRow t}
    {after : List (OldRow t)} {w' : HeightWalk} (hrow : row.upgrade w' = .error fault) :
    ∀ {before : List (OldRow t)} {w : HeightWalk} {news : List (NewRow t)},
      upgradeRows w before = .ok (w', news) →
        upgradeRows w (before ++ row :: after) = .error fault
  | [], _, _, h => by
    cases h
    exact bind_eq_error.mpr (Or.inl hrow)
  | first :: before, _, _, h => by
    obtain ⟨⟨w, new⟩, hfirst, h⟩ := bind_eq_ok.mp h
    obtain ⟨⟨w'', news'⟩, hbefore, h⟩ := bind_eq_ok.mp h
    cases h
    exact bind_eq_error.mpr (Or.inr ⟨(w, new), hfirst,
      bind_eq_error.mpr (Or.inl (upgradeRows_of_upgrade_eq_error hrow hbefore))⟩)

/-! ### The rows of a range -/

/-- The heights of the rows that were read. -/
def OldRows.heights (old : OldRows) : List Nat := heightsOf old.rows

theorem Table.upgrade_eq_ok {range : BlockRange} {old : OldRows} {upgraded : Upgraded} :
    t.upgrade range old = .ok upgraded ↔
      ∃ (rows : List (OldRow t)) (news : List (NewRow t)) (w : HeightWalk),
        old = ⟨t, rows⟩ ∧ upgraded = ⟨⟨t, news⟩, w.finish⟩ ∧
          PassAll rows (.begin range t.continuity) w ∧ List.Forall₂ OldRow.Becomes rows news := by
  obtain ⟨u, rows⟩ := old
  unfold upgrade
  dsimp only
  split
  · next hu =>
    subst hu
    rw [bind_eq_ok]
    constructor
    · rintro ⟨⟨w, news⟩, h, hpure⟩
      cases hpure
      exact ⟨rows, news, w, rfl, rfl, upgradeRows_eq_ok.mp h⟩
    · rintro ⟨rows', news, w, hrows, rfl, h⟩
      cases hrows
      exact ⟨(w, news), upgradeRows_eq_ok.mpr h, rfl⟩
  · next hu =>
    constructor
    · intro h
      cases h
    · rintro ⟨rows', news, w, hrows, -⟩
      cases hrows
      exact absurd rfl hu

theorem Table.upgrade_eq_error {range : BlockRange} {rows : List (OldRow t)}
    {fault : UpgradeError} :
    t.upgrade range ⟨t, rows⟩ = .error fault ↔
      upgradeRows (.begin range t.continuity) rows = .error fault := by
  rw [upgrade, if_pos rfl, bind_eq_error, or_iff_left]
  rintro ⟨_, -, h⟩
  cases h

theorem Table.missing_of_none {range : BlockRange} {old : OldRows} {upgraded : Upgraded}
    (hc : t.continuity = .none) (h : t.upgrade range old = .ok upgraded) :
    upgraded.missing = [] := by
  obtain ⟨rows, news, w, rfl, rfl, hp, -⟩ := Table.upgrade_eq_ok.mp h
  unfold PassAll at hp
  rw [if_pos hc] at hp
  rw [hp, HeightWalk.finish, HeightWalk.begin, if_pos hc]

/-- **The heights found missing** are those of the range that no row has, and all rows lie in the
range. -/
theorem Table.heightsIn_missing {range : BlockRange} {old : OldRows} {upgraded : Upgraded}
    (hc : t.continuity ≠ .none) (h : t.upgrade range old = .ok upgraded) :
    heightsIn upgraded.missing = range.heights.filter (· ∉ old.heights) ∧
      ∀ k ∈ old.heights, k ∈ range.heights := by
  obtain ⟨rows, news, w, rfl, rfl, hp, -⟩ := Table.upgrade_eq_ok.mp h
  unfold PassAll at hp
  rw [if_neg hc] at hp
  exact ⟨HeightWalk.heightsIn_finish_observeAll hc hp.2,
    HeightWalk.mem_heights_of_observeAll hc hp.2⟩

end ChainMigration
