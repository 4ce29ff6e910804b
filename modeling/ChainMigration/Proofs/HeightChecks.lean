import ChainMigration.Database.Reader
import ChainMigration.Proofs.MissingRuns
import ChainMigration.Proofs.Upgrade

/-! # Tables with rows at every height

Block headers, state nodes and accounts are taken only if the heights of their rows go on through
the range in order. Row by row there are up to four checks: the block number is read, its height
goes on with the walk, and for a block header the beneficiary is read and the height fits the new
column. `Accepted` says of a whole list of rows that all checks pass, without a walk; `AtFault` says
which check is the first that a row fails behind others. A row fails behind rows that are accepted
exactly as `AtFault` says (`upgrade_eq_error_iff`), and so do rows in order
(`upgrade_heightChecked`). -/

namespace ChainMigration

variable {t : Table}

theorem Table.continuity_ne_none_iff :
    t.continuity ≠ .none ↔ t = .headers ∨ t = .state ∨ t = .accounts := by
  cases t <;> decide

theorem toInt_eq_iff {number : Int64} {height : Nat} :
    number.toInt = height ↔ height ≤ bigintMax ∧ .ofNat height = number := by
  constructor
  · intro h
    have hlt := number.toInt_lt
    have hfits : height ≤ bigintMax := by
      rw [h] at hlt
      unfold bigintMax
      omega
    exact ⟨hfits, by rw [← Int64.toInt_inj, h, Int64.toInt_ofNat_of_lt (Nat.lt_succ_of_le hfits)]⟩
  · rintro ⟨hfits, rfl⟩
    exact Int64.toInt_ofNat_of_lt (Nat.lt_succ_of_le hfits)

namespace OldRow

/-! ### The checks of one row -/

/-- The error for a block number that cannot be read, which also names the block of an account. -/
def heightFault : {t : Table} → OldRow t → String → Text.NumberError → UpgradeError
  | .accounts, r => .accountHeight (OldAccount.blockHash r)
  | _, _ => .height

/-- **A row can be renewed at a height**: the beneficiary of a block header can be read and the
height fits the new column. Nothing is asked of other rows. -/
def RenewableAt (height : Nat) : {t : Table} → OldRow t → Prop
  | .headers, r =>
    (∃ coinbase, Chain.beneficiary (OldHeader.data r) = .ok coinbase) ∧ height ≤ bigintMax
  | _, _ => True

/-- **What a row becomes at a height**: it keeps its columns, and a block header gains its
beneficiary. -/
inductive RenewedAt (height : Nat) : {t : Table} → OldRow t → NewRow t → Prop
  | header {r : OldHeader} {number : Int64} {coinbase : String} (hnumber : number.toInt = height)
    (hcoinbase : Chain.beneficiary r.data = .ok coinbase) :
    RenewedAt height (t := .headers) r ⟨number, r.blockHash, r.parentHash, r.cid, r.mhKey, r.td,
      r.nodeId, r.reward, r.stateRoot, r.uncleRoot, r.txRoot, r.receiptRoot, r.bloom, r.timestamp,
      r.timesValidated, coinbase⟩
  | state (r : OldStateNode) : RenewedAt height (t := .state) r
      ⟨r.blockHash, r.statePath, r.stateLeafKey, r.nodeType, r.cid, r.mhKey, r.diff⟩
  | account (r : OldAccount) : RenewedAt height (t := .accounts) r
      ⟨r.blockHash, r.statePath, r.balance, r.nonce, r.codeHash, r.storageRoot⟩

/-- **Why a row cannot be renewed at a height**, which is asked about the beneficiary first. -/
inductive RefusedAt (height : Nat) : {t : Table} → OldRow t → UpgradeError → Prop
  | header {r : OldHeader} {reason : Chain.CodecError}
    (hdata : Chain.beneficiary r.data = .error reason) :
    RefusedAt height (t := .headers) r (.header r.blockHash reason)
  | bigint {r : OldHeader} {coinbase : String} (hdata : Chain.beneficiary r.data = .ok coinbase)
    (hbig : bigintMax < height) : RefusedAt height (t := .headers) r (.bigint height)

/-- **What is wrong with a row behind rows of these heights**: the first check that it fails. Each
check is made only if the row has passed those before it. -/
inductive AtFault (range : BlockRange) (before : List Nat) (row : OldRow t) : UpgradeError → Prop
  | unread {raw : String} {reason : Text.NumberError} (hraw : row.blockNumber? = some raw)
    (hread : readHeight raw = .error reason) :
    AtFault range before row (row.heightFault raw reason)
  | broken {height : Nat} {reason : HeightError} (hheight : row.height? = some height)
    (hbroken : t.continuity.Broken range before height reason) :
    AtFault range before row (.continuity reason)
  | refused {height : Nat} {fault : UpgradeError} (hheight : row.height? = some height)
    (hin : height ∈ range.heights) (hord : t.continuity.Ordered (before ++ [height]))
    (hrefused : row.RefusedAt height fault) : AtFault range before row fault

variable {row : OldRow t} {height : Nat}

theorem renewed_eq_ok {r : OldHeader} {new : NewHeader} :
    r.renewed height = .ok new ↔ RenewedAt height (t := .headers) r new := by
  unfold OldHeader.renewed
  simp only [bind_eq_ok, mapError_eq_ok]
  constructor
  · rintro ⟨coinbase, hcoinbase, h⟩
    split at h
    · next hfits =>
      cases h
      exact .header (toInt_eq_iff.mpr ⟨hfits, rfl⟩) hcoinbase
    · cases h
  · intro h
    cases h with
    | header hnumber hcoinbase =>
      obtain ⟨hfits, rfl⟩ := toInt_eq_iff.mp hnumber
      exact ⟨_, hcoinbase, if_pos hfits⟩

theorem renewed_eq_error {r : OldHeader} {fault : UpgradeError} :
    r.renewed height = .error fault ↔ RefusedAt height (t := .headers) r fault := by
  unfold OldHeader.renewed
  simp only [bind_eq_error, mapError_eq_error, mapError_eq_ok]
  constructor
  · rintro (⟨reason, hdata, rfl⟩ | ⟨coinbase, hdata, h⟩)
    · exact .header hdata
    · split at h
      · cases h
      · next hbig =>
        cases h
        exact .bigint hdata (Nat.lt_of_not_le hbig)
  · intro h
    cases h with
    | header hdata => exact Or.inl ⟨_, hdata, rfl⟩
    | bigint hdata hbig => exact Or.inr ⟨_, hdata, if_neg (Nat.not_le_of_lt hbig)⟩

/-- **A row that takes a height is upgraded in two steps**: its block number is read and taken into
the walk, and then the row is renewed at that height, whatever the walk. -/
theorem exists_renewal (hc : t.continuity ≠ .none) (row : OldRow t) :
    ∃ raw, row.blockNumber? = some raw ∧ ∃ renew : Nat → Except UpgradeError (NewRow t),
      (∀ w, row.upgrade w = w.observeText raw (row.heightFault raw) >>= fun x =>
        (renew x.1).map (x.2, ·)) ∧
      (∀ height new, renew height = .ok new ↔ row.RenewedAt height new) ∧
      ∀ height fault, renew height = .error fault ↔ row.RefusedAt height fault := by
  cases t with
  | headers =>
    exact ⟨_, rfl, OldHeader.renewed row, OldHeader.upgrade_eq row, fun _ _ => renewed_eq_ok,
      fun _ _ => renewed_eq_error⟩
  | state =>
    refine ⟨_, rfl, fun _ => .ok _, fun _ => rfl, fun _ _ => ⟨?_, ?_⟩, fun _ _ =>
      iff_of_false nofun nofun⟩
    · rintro ⟨⟩
      exact .state row
    · rintro ⟨⟩
      rfl
  | accounts =>
    refine ⟨_, rfl, fun _ => .ok _, fun _ => rfl, fun _ _ => ⟨?_, ?_⟩, fun _ _ =>
      iff_of_false nofun nofun⟩
    · rintro ⟨⟩
      exact .account row
    · rintro ⟨⟩
      rfl
  | _ => exact absurd rfl hc

theorem becomes_iff_renewedAt (hc : t.continuity ≠ .none) {new : NewRow t} :
    row.Becomes new ↔ ∃ height, row.height? = some height ∧ row.RenewedAt height new := by
  obtain ⟨raw, hraw, renew, hupgrade, hrenewed, -⟩ := row.exists_renewal hc
  simp only [height?_eq hraw, ← hrenewed]
  constructor
  · rintro ⟨w, next, h⟩
    rw [hupgrade] at h
    obtain ⟨⟨height, w'⟩, hread, h⟩ := bind_eq_ok.mp h
    obtain ⟨new', hnew, h⟩ := map_eq_ok.mp h
    cases h
    exact ⟨height, (HeightWalk.observeText_eq_ok.mp hread).1, hnew⟩
  · rintro ⟨height, hread, hnew⟩
    let w : HeightWalk := .begin ⟨0, 0, Nat.le_refl 0, by decide⟩ .none
    refine ⟨w, w, ?_⟩
    rw [hupgrade]
    exact bind_eq_ok.mpr ⟨(height, w), HeightWalk.observeText_eq_ok.mpr
      ⟨hread, HeightWalk.observe_of_none rfl height⟩, map_eq_ok.mpr ⟨new, hnew, rfl⟩⟩

theorem exists_renewedAt_iff (hc : t.continuity ≠ .none) :
    (∃ new, row.RenewedAt height new) ↔ row.RenewableAt height := by
  cases t with
  | headers =>
    constructor
    · rintro ⟨_, hnumber, hcoinbase⟩
      exact ⟨⟨_, hcoinbase⟩, (toInt_eq_iff.mp hnumber).1⟩
    · rintro ⟨⟨coinbase, hcoinbase⟩, hfits⟩
      exact ⟨_, .header (toInt_eq_iff.mpr ⟨hfits, rfl⟩) hcoinbase⟩
  | state => exact iff_of_true ⟨_, .state row⟩ trivial
  | accounts => exact iff_of_true ⟨_, .account row⟩ trivial
  | _ => exact absurd rfl hc

/-- **A row fails behind rows that were accepted** exactly if something is wrong with it there. -/
theorem upgrade_eq_error_iff {w : HeightWalk} {taken : List Nat} {fault : UpgradeError}
    (hw : w.Tracks taken) (hcont : w.continuity = t.continuity) (hc : t.continuity ≠ .none) :
    row.upgrade w = .error fault ↔ row.AtFault w.range taken fault := by
  obtain ⟨raw, hraw, renew, hupgrade, -, hrefused⟩ := row.exists_renewal hc
  have hc' : w.continuity ≠ .none := hcont.trans_ne hc
  have hfollows (height : Nat) : (∃ next, w.observe height = .ok next) ↔
      height ∈ w.range.heights ∧ t.continuity.Ordered (taken ++ [height]) := by
    rw [hw.exists_observe_iff_ordered hc', hcont]
  have hbroken {height : Nat} {reason : HeightError} : w.observe height = .error reason ↔
      t.continuity.Broken w.range taken height reason := by
    rw [hw.observe_eq_error hc', hcont]
  rw [hupgrade, bind_eq_error, HeightWalk.observeText_eq_error]
  simp only [map_eq_error, hrefused]
  constructor
  · rintro ((⟨reason, hread, rfl⟩ | ⟨height, reason, hread, hobserve, rfl⟩) |
      ⟨⟨height, next⟩, htext, hrefused⟩)
    · exact .unread hraw hread
    · exact .broken ((height?_eq hraw).trans hread) (hbroken.mp hobserve)
    · obtain ⟨hread, hobserve⟩ := HeightWalk.observeText_eq_ok.mp htext
      have hgoes := (hfollows height).mp ⟨next, hobserve⟩
      exact .refused ((height?_eq hraw).trans hread) hgoes.1 hgoes.2 hrefused
  · intro h
    have hread {height : Nat} := (height?_eq hraw).symm.trans (b := row.height?) (c := some height)
    cases h with
    | unread hraw' hreason =>
      cases hraw.symm.trans hraw'
      exact Or.inl (Or.inl ⟨_, hreason, rfl⟩)
    | broken hheight hbreaks =>
      exact Or.inl (Or.inr ⟨_, _, hread hheight, hbroken.mpr hbreaks, rfl⟩)
    | refused hheight hin hord hfault =>
      obtain ⟨next, hobserve⟩ := (hfollows _).mpr ⟨hin, hord⟩
      exact Or.inr ⟨(_, next), HeightWalk.observeText_eq_ok.mpr ⟨hread hheight, hobserve⟩, hfault⟩

end OldRow

/-! ### All rows of a range -/

variable {range : BlockRange} {rows : List (OldRow t)}

/-- **Rows that pass all checks**: each has a height in the range at which it can be renewed, and
the heights are in the order that the table promises. -/
structure Accepted (range : BlockRange) (rows : List (OldRow t)) : Prop where
  renewable : ∀ row ∈ rows, ∃ height ∈ range.heights,
    row.height? = some height ∧ row.RenewableAt height
  ordered : t.continuity.Ordered (heightsOf rows)

theorem tracks_of_upgradeRows {w : HeightWalk} {news : List (NewRow t)} (hc : t.continuity ≠ .none)
    (h : upgradeRows (.begin range t.continuity) rows = .ok (w, news)) :
    w.Tracks (heightsOf rows) ∧ w.range = range ∧ w.continuity = t.continuity := by
  obtain ⟨hpass, -⟩ := upgradeRows_eq_ok.mp h
  rw [PassAll, if_neg hc] at hpass
  exact ⟨(HeightWalk.tracks_begin range t.continuity).observeAll hc hpass.2,
    ((HeightWalk.seen_begin range t.continuity).observeAll hc hpass.2).2⟩

/-- **The rows that are upgraded** are those that pass all checks. -/
theorem exists_upgradeRows_iff (hc : t.continuity ≠ .none) :
    (∃ w news, upgradeRows (.begin range t.continuity) rows = .ok (w, news)) ↔
      Accepted range rows := by
  constructor
  · rintro ⟨w, news, h⟩
    obtain ⟨htracks, -, hcont⟩ := tracks_of_upgradeRows hc h
    obtain ⟨hpass, hall⟩ := upgradeRows_eq_ok.mp h
    rw [PassAll, if_neg hc] at hpass
    refine ⟨fun row hrow => ?_, hcont ▸ htracks.ordered⟩
    obtain ⟨new, hbecomes⟩ := exists_forall₂_iff.mp ⟨news, hall⟩ row hrow
    obtain ⟨height, hheight, hrenewed⟩ := (OldRow.becomes_iff_renewedAt hc).mp hbecomes
    exact ⟨height, HeightWalk.mem_heights_of_observeAll hc hpass.2 height
      (List.mem_filterMap.mpr ⟨row, hrow, hheight⟩), hheight,
      (OldRow.exists_renewedAt_iff hc).mp ⟨new, hrenewed⟩⟩
  · rintro ⟨hrenewable, hord⟩
    have hin (height : Nat) (hmem : height ∈ heightsOf rows) : height ∈ range.heights := by
      obtain ⟨row, hrow, hheight⟩ := List.mem_filterMap.mp hmem
      obtain ⟨height', hin, hheight', -⟩ := hrenewable row hrow
      rwa [Option.some.inj (hheight.symm.trans hheight')]
    have hbecomes (row : OldRow t) (hrow : row ∈ rows) : ∃ new, row.Becomes new := by
      obtain ⟨height, -, hheight, hrow⟩ := hrenewable row hrow
      obtain ⟨new, hnew⟩ := (OldRow.exists_renewedAt_iff hc).mpr hrow
      exact ⟨new, (OldRow.becomes_iff_renewedAt hc).mpr ⟨height, hheight, hnew⟩⟩
    obtain ⟨w, hobserve⟩ := HeightWalk.exists_observeAll_begin hc hord hin
    obtain ⟨news, hall⟩ := exists_forall₂_iff.mpr hbecomes
    refine ⟨w, news, upgradeRows_eq_ok.mpr ⟨?_, hall⟩⟩
    rw [PassAll, if_neg hc]
    refine ⟨fun row hrow => ?_, hobserve⟩
    obtain ⟨height, -, hheight, -⟩ := hrenewable row hrow
    exact Option.isSome_iff_exists.mpr ⟨height, hheight⟩

namespace Table

/-- **The first row at fault decides the error**, behind rows that pass all checks. -/
theorem upgrade_eq_error_iff {fault : UpgradeError} (hc : t.continuity ≠ .none) :
    t.upgrade range ⟨t, rows⟩ = .error fault ↔ ∃ before row after, rows = before ++ row :: after ∧
      Accepted range before ∧ row.AtFault range (heightsOf before) fault := by
  rw [upgrade_eq_error]
  constructor
  · intro h
    obtain ⟨before, row, after, w, news, rfl, hbefore, hrow⟩ := exists_of_upgradeRows_eq_error h
    obtain ⟨htracks, hrange, hcont⟩ := tracks_of_upgradeRows hc hbefore
    refine ⟨before, row, after, rfl, (exists_upgradeRows_iff hc).mp ⟨w, news, hbefore⟩, ?_⟩
    rw [← hrange]
    exact (OldRow.upgrade_eq_error_iff htracks hcont hc).mp hrow
  · rintro ⟨before, row, after, rfl, haccepted, hfault⟩
    obtain ⟨w, news, hbefore⟩ := (exists_upgradeRows_iff hc).mpr haccepted
    obtain ⟨htracks, hrange, hcont⟩ := tracks_of_upgradeRows hc hbefore
    rw [← hrange] at hfault
    exact upgradeRows_of_upgrade_eq_error
      ((OldRow.upgrade_eq_error_iff htracks hcont hc).mpr hfault) hbefore

theorem upgrade_eq_ok_iff {upgraded : Upgraded} :
    t.upgrade range ⟨t, rows⟩ = .ok upgraded ↔ ∃ w news,
      upgradeRows (.begin range t.continuity) rows = .ok (w, news) ∧
        upgraded = ⟨⟨t, news⟩, w.finish⟩ := by
  constructor
  · intro h
    obtain ⟨rows', news, w, hrows, rfl, hdone⟩ := upgrade_eq_ok.mp h
    cases hrows
    exact ⟨w, news, upgradeRows_eq_ok.mpr hdone, rfl⟩
  · rintro ⟨w, news, h, rfl⟩
    exact upgrade_eq_ok.mpr ⟨rows, news, w, rfl, rfl, upgradeRows_eq_ok.mp h⟩

theorem le_bigintMax_of_heightParameter {height : Nat} {p : Int64}
    (h : heightParameter t range height = .ok p) : height ≤ bigintMax := by
  unfold heightParameter at h
  split at h
  · assumption
  · cases h

/-- A range is only read if its heights fit the parameters of the statement. -/
theorem le_bigintMax_of_statements {c : Connection} (ht : t.heightSegmented = true)
    (h : (c.readRows t range).statements ≠ []) :
    range.start ≤ bigintMax ∧ range.stop ≤ bigintMax := by
  cases hparams : readParameters t range with
  | error reason =>
    -- The work ends before its first statement.
    refine absurd ?_ h
    unfold Connection.readRows
    rw [hparams]
    cases hclosed : c.closed with
    | true =>
      rw [Connection.get, if_pos hclosed]
      rfl
    | false =>
      rw [Connection.get, hclosed, if_neg Bool.false_ne_true]
      rfl
  | ok bounds =>
    rw [readParameters, if_pos ht] at hparams
    obtain ⟨start, hstart, hparams⟩ := bind_eq_ok.mp hparams
    obtain ⟨stop, hstop, -⟩ := bind_eq_ok.mp hparams
    exact ⟨le_bigintMax_of_heightParameter hstart, le_bigintMax_of_heightParameter hstop⟩

theorem upgrade_ne_bigint (hc : t.continuity ≠ .none) (hfits : range.stop ≤ bigintMax)
    (number : Nat) : t.upgrade range ⟨t, rows⟩ ≠ .error (.bigint number) := by
  intro h
  obtain ⟨before, row, after, -, -, hfault⟩ := (upgrade_eq_error_iff hc).mp h
  generalize hcause : UpgradeError.bigint number = cause at hfault
  cases hfault with
  | unread _ _ => cases t <;> cases hcause
  | broken _ _ => cases hcause
  | refused _ hin _ hrefused =>
    cases hrefused with
    | header _ => cases hcause
    | bigint _ hbig =>
      have := (BlockRange.mem_heights.mp hin).2
      omega

/-- **Block headers, state nodes and accounts are upgraded if their heights go on in order.**
* The heights of block headers must strictly ascend, those of the other rows may repeat.
* The upgrade of rows for a range succeeds if and only if every row has a height in the range, the
  heights are in this order, and all beneficiaries can be read and all their heights fit the new
  column.
* Then each row becomes one new row, in order, and the heights found missing are the maximal runs of
  heights of the range that no row has.
* Otherwise there are no new rows, and the error tells the first check that the first row at fault
  fails, whatever rows follow.
* A range is only read if its ends fit the parameters of the statement, and then all its heights fit
  the new column. -/
theorem upgrade_heightChecked (ht : t = .headers ∨ t = .state ∨ t = .accounts) (range : BlockRange)
    (rows : List (OldRow t)) :
    (t.continuity = if t = .headers then .strict else .grouped) ∧
    ((∃ upgraded, t.upgrade range ⟨t, rows⟩ = .ok upgraded) ↔ Accepted range rows) ∧
    (∀ upgraded, t.upgrade range ⟨t, rows⟩ = .ok upgraded →
      (∃ news : List (NewRow t), upgraded.rows = ⟨t, news⟩ ∧ List.Forall₂ (fun row new =>
        ∃ height, row.height? = some height ∧ row.RenewedAt height new) rows news) ∧
      MissingRuns range (heightsOf rows) upgraded.missing) ∧
    (∀ fault, t.upgrade range ⟨t, rows⟩ = .error fault ↔
      ∃ before row after, rows = before ++ row :: after ∧ Accepted range before ∧
        row.AtFault range (heightsOf before) fault) ∧
    (∀ c : Connection, (c.readRows t range).statements ≠ [] →
      range.start ≤ bigintMax ∧ range.stop ≤ bigintMax) ∧
    (range.start ≤ bigintMax → range.stop ≤ bigintMax → ∀ number,
      t.upgrade range ⟨t, rows⟩ ≠ .error (.bigint number)) := by
  have hc := continuity_ne_none_iff.mpr ht
  refine ⟨?_, ?_, fun upgraded h => ?_, fun fault => upgrade_eq_error_iff hc, fun c h => ?_,
    fun _ hstop => upgrade_ne_bigint hc hstop⟩
  · rcases ht with rfl | rfl | rfl <;> rfl
  · rw [← exists_upgradeRows_iff hc]
    simp only [upgrade_eq_ok_iff]
    constructor
    · rintro ⟨_, w, news, h, -⟩
      exact ⟨w, news, h⟩
    · rintro ⟨w, news, h⟩
      exact ⟨_, w, news, h, rfl⟩
  · obtain ⟨w, news, hrows, rfl⟩ := upgrade_eq_ok_iff.mp h
    obtain ⟨htracks, hrange, hcont⟩ := tracks_of_upgradeRows hc hrows
    have hall := (upgradeRows_eq_ok.mp hrows).2
    refine ⟨⟨news, rfl, hall.imp fun _ _ => (OldRow.becomes_iff_renewedAt hc).mp⟩, ?_⟩
    rw [← hrange]
    exact htracks.missingRuns_finish (hcont.trans_ne hc)
  · refine le_bigintMax_of_statements ?_ h
    rcases ht with rfl | rfl | rfl <;> rfl

/-- Accounts at the heights 5, 5 and 7, and behind them one that descends and one without a
height. -/
theorem upgrade_accounts_descending :
    let range : BlockRange := ⟨4, 8, by decide, by decide⟩
    let account (height : String) : OldRow .accounts :=
      (⟨height, "0xb", none, "1", 4, [], "0xr"⟩ : OldAccount)
    let rows := [account "5", account "5", account " 7"]
    let runs : List BlockRange :=
      [⟨4, 4, by decide, by decide⟩, ⟨6, 6, by decide, by decide⟩, ⟨8, 8, by decide, by decide⟩]
    Accepted range rows ∧ MissingRuns range (heightsOf rows) runs ∧
      Table.accounts.upgrade range ⟨.accounts, rows ++ [account "6", account "five"]⟩ =
        .error (.continuity (.descending 6 8)) := by
  intro range account rows runs
  have hrows := upgrade_heightChecked (t := .accounts) (by decide) range rows
  have hmore := upgrade_heightChecked (t := .accounts) (by decide) range
    (rows ++ [account "6", account "five"])
  have hok : ∃ news, Table.accounts.upgrade range ⟨.accounts, rows⟩ =
      .ok ⟨⟨.accounts, news⟩, runs⟩ := by
    let new : NewRow .accounts := (⟨"0xb", none, "1", 4, [], "0xr"⟩ : NewAccount)
    exact ⟨[new, new, new], by decide +kernel⟩
  obtain ⟨news, hok⟩ := hok
  have haccepted := hrows.2.1.mp ⟨_, hok⟩
  refine ⟨haccepted, (hrows.2.2.1 _ hok).2, (hmore.2.2.2.1 _).mpr
    ⟨rows, account "6", [account "five"], rfl, haccepted, ?_⟩⟩
  have hheight : (account "6").height? = some 6 := by decide +kernel
  have hlast : (heightsOf rows).getLast? = some 7 := by decide +kernel
  exact .broken hheight (.descending (by decide) (by decide +kernel) hlast)

end Table

end ChainMigration
