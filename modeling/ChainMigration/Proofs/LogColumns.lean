import ChainMigration.Proofs.LogRepair
import ChainMigration.Proofs.WrittenHex

/-! # What the columns of a log mean

Columns are read as the log that they denote (`ofColumns_eq_ok_iff_denote`): blanks, marks, the case
of digits and the slots of topics make no difference, and everything else makes one. They denote a
log exactly if the address and every topic that is not blank have their numbers of digits
(`exists_denote_iff`); otherwise the first of them that has not decides the error
(`ofColumns_eq_error_iff`). -/

namespace ChainMigration

namespace Chain

/-! ### Meaning -/

/-- **The slots denote topics**: those that are empty or blank denote nothing, and each of the
others writes one topic of 32 bytes, in order. -/
inductive DenoteTopics : List (Option String) → List Bytes → Prop
  | nil : DenoteTopics [] []
  | empty {slots : List (Option String)} {topics : List Bytes} (h : DenoteTopics slots topics) :
    DenoteTopics (none :: slots) topics
  | blank {text : String} {slots : List (Option String)} {topics : List Bytes}
    (hblank : Text.AllBlank text.toList) (h : DenoteTopics slots topics) :
    DenoteTopics (some text :: slots) topics
  | topic {text : String} {topic : Bytes} {slots : List (Option String)} {topics : List Bytes}
    (hlength : topic.length = 32) (hwrites : Text.Writes text topic)
    (h : DenoteTopics slots topics) : DenoteTopics (some text :: slots) (topic :: topics)

/-- **The columns denote a log**: they write its address of 20 bytes, denote its topics and hold its
data. -/
structure Denote (address : String) (slots : List (Option String)) (data : Bytes)
    (log : CanonicalLog) : Prop where
  length : log.address.length = 20
  address : Text.Writes address log.address
  topics : DenoteTopics slots log.topics
  data : log.data = data

variable {address text : String} {slots : List (Option String)} {data : Bytes}
  {topics : List Bytes} {log : CanonicalLog} {reason : CodecError}

theorem denoteTopics_iff : DenoteTopics slots topics ↔
    List.Forall₂ (fun text topic => topic.length = 32 ∧ Text.SpellsHex text topic)
      (writtenTopics slots) topics := by
  constructor
  · intro h
    induction h with
    | nil => exact .nil
    | empty _ ih => exact ih
    | blank hblank _ ih =>
      rw [CanonicalLog.writtenTopics_some, if_pos (Text.trimmed_eq_nil_iff.mpr hblank)]
      exact ih
    | topic hlength hwrites _ ih =>
      have hspells := Text.writes_iff.mp hwrites
      rw [CanonicalLog.writtenTopics_some, if_neg (Text.ne_nil_of_spellsHex hspells (by omega))]
      exact .cons ⟨hlength, hspells⟩ ih
  · intro h
    induction slots generalizing topics with
    | nil =>
      cases h
      exact .nil
    | cons slot slots ih =>
      cases slot with
      | none => exact .empty (ih h)
      | some text =>
        rw [CanonicalLog.writtenTopics_some] at h
        split at h
        · next hblank => exact .blank (Text.trimmed_eq_nil_iff.mp hblank) (ih h)
        · obtain ⟨topic, rest, ⟨hlength, hspells⟩, hrest, rfl⟩ := List.forall₂_cons_left_iff.mp h
          exact .topic hlength (Text.writes_iff.mpr hspells) (ih hrest)

theorem denote_iff : Denote address slots data log ↔ log.Described address slots data := by
  constructor
  · rintro ⟨hlength, haddress, htopics, hdata⟩
    exact ⟨hlength, Text.writes_iff.mp haddress, denoteTopics_iff.mp htopics, hdata⟩
  · rintro ⟨hlength, haddress, htopics, hdata⟩
    exact ⟨hlength, Text.writes_iff.mpr haddress, denoteTopics_iff.mpr htopics, hdata⟩

/-- **Columns are read as the log that they denote.** -/
theorem ofColumns_eq_ok_iff_denote :
    CanonicalLog.ofColumns address slots data = .ok log ↔ Denote address slots data log := by
  rw [CanonicalLog.ofColumns_eq_ok, denote_iff]

/-! ### Columns that can be read -/

/-- **A topic column can be read**: it is blank, or has the digits of 32 bytes. -/
def IsTopicText (text : String) : Prop := Text.AllBlank text.toList ∨ Text.IsHexText 64 text

/-- **Why columns are not read**: the address has not the digits of 20 bytes, or it has and this is
the first topic that cannot be read. -/
inductive Unreadable (address : String) (slots : List (Option String)) : CodecError → Prop
  | address (h : ¬ Text.IsHexText 40 address) : Unreadable address slots (.hex .address address)
  | topic {before after : List (Option String)} {text : String} (h : Text.IsHexText 40 address)
    (hslots : slots = before ++ some text :: after)
    (hbefore : ∀ text, some text ∈ before → IsTopicText text) (hbad : ¬ IsTopicText text) :
    Unreadable address slots (.hex .topic (Text.trim text))

theorem mem_writtenTopics_iff {cs : List Char} : cs ∈ writtenTopics slots ↔
    cs ≠ [] ∧ ∃ text, some text ∈ slots ∧ Text.trimmed text.toList = cs := by
  rw [writtenTopics, List.mem_filter, List.mem_filterMap, decide_eq_true_eq, and_comm]
  refine and_congr_right fun _ => ?_
  constructor
  · rintro ⟨slot, hslot, h⟩
    obtain ⟨text, rfl, htext⟩ := Option.map_eq_some_iff.mp h
    exact ⟨text, hslot, htext⟩
  · rintro ⟨text, hslot, h⟩
    exact ⟨some text, hslot, congrArg some h⟩

theorem isTopicText_iff : IsTopicText text ↔ (Text.trimmed text.toList ≠ [] →
    ∃ topic : Bytes, topic.length = 32 ∧ Text.SpellsHex (Text.trimmed text.toList) topic) := by
  rw [IsTopicText, ← Text.trimmed_eq_nil_iff, ← Text.exists_writes_iff 32]
  simp only [Text.writes_iff]
  exact or_iff_not_imp_left

theorem exists_denoteTopics_iff :
    (∃ topics, DenoteTopics slots topics) ↔ ∀ text, some text ∈ slots → IsTopicText text := by
  simp only [denoteTopics_iff, exists_forall₂_iff, mem_writtenTopics_iff, isTopicText_iff]
  constructor
  · exact fun h text hslot hwritten => h _ ⟨hwritten, text, hslot, rfl⟩
  · rintro h - ⟨hwritten, text, hslot, rfl⟩
    exact h text hslot hwritten

/-- **Columns denote a log** exactly if all of them can be read. -/
theorem exists_denote_iff : (∃ log, Denote address slots data log) ↔
    Text.IsHexText 40 address ∧ ∀ text, some text ∈ slots → IsTopicText text := by
  rw [← exists_denoteTopics_iff, ← Text.exists_writes_iff 20]
  constructor
  · rintro ⟨log, hlength, haddress, htopics, -⟩
    exact ⟨⟨log.address, hlength, haddress⟩, log.topics, htopics⟩
  · rintro ⟨⟨bs, hlength, haddress⟩, topics, htopics⟩
    exact ⟨⟨bs, topics, data⟩, hlength, haddress, htopics, rfl⟩

theorem readAddress_eq_error_iff : CanonicalLog.readAddress address = .error reason ↔
    ¬ Text.IsHexText 40 address ∧ reason = .hex .address address := by
  rw [← Text.exists_writes_iff 20]
  simp only [Text.writes_iff, ← Text.readHexOf?_eq_some_iff, CanonicalLog.readAddress]
  cases Text.readHexOf? 20 (Text.trimmed address.toList) with
  | none => simp [eq_comm]
  | some bs => simp

/-- **The first topic that cannot be read** decides the error. -/
theorem readTopics_eq_error_iff_unreadable : CanonicalLog.readTopics slots = .error reason ↔
    ∃ before text after, slots = before ++ some text :: after ∧
      (∀ text, some text ∈ before → IsTopicText text) ∧ ¬ IsTopicText text ∧
        reason = .hex .topic (Text.trim text) := by
  have hbad (text : String) : ¬ IsTopicText text ↔ Text.trimmed text.toList ≠ [] ∧
      Text.readHexOf? 32 (Text.trimmed text.toList) = none := by
    rw [isTopicText_iff, Classical.not_imp, Option.eq_none_iff_forall_ne_some]
    simp only [← Text.readHexOf?_eq_some_iff, not_exists, ne_eq]
  rw [CanonicalLog.readTopics_eq_error_iff]
  simp only [hbad, CanonicalLog.readTopics_eq_ok, ← denoteTopics_iff, exists_denoteTopics_iff,
    and_assoc]
  rfl

/-- **Columns are refused** for the address if that cannot be read, and else for the first topic
that cannot. -/
theorem ofColumns_eq_error_iff : CanonicalLog.ofColumns address slots data = .error reason ↔
    Unreadable address slots reason := by
  have haddress : (∃ bs, CanonicalLog.readAddress address = .ok bs) ↔
      Text.IsHexText 40 address := by
    rw [← Text.exists_writes_iff 20]
    simp only [CanonicalLog.readAddress_eq_ok, Text.writes_iff]
  constructor
  · intro h
    obtain h | ⟨bs, hread, h⟩ := bind_eq_error.mp h
    · obtain ⟨hbad, rfl⟩ := readAddress_eq_error_iff.mp h
      exact .address hbad
    · obtain h | ⟨topics, -, h⟩ := bind_eq_error.mp h
      · obtain ⟨before, text, after, hslots, hbefore, hbad, rfl⟩ :=
          readTopics_eq_error_iff_unreadable.mp h
        exact .topic (haddress.mp ⟨bs, hread⟩) hslots hbefore hbad
      · cases h
  · rintro (hbad | ⟨hgood, hslots, hbefore, hbad⟩)
    · exact bind_eq_error.mpr (Or.inl (readAddress_eq_error_iff.mpr ⟨hbad, rfl⟩))
    · obtain ⟨bs, hread⟩ := haddress.mpr hgood
      refine bind_eq_error.mpr (Or.inr ⟨bs, hread, bind_eq_error.mpr (Or.inl ?_)⟩)
      exact readTopics_eq_error_iff_unreadable.mpr ⟨_, _, _, hslots, hbefore, hbad, rfl⟩

end Chain

namespace StoredLog

/-- **The row denotes a log**: its columns do, where no data count as none. -/
def Denotes (r : StoredLog) (log : Chain.CanonicalLog) : Prop :=
  Chain.Denote r.address r.slots (r.logData.getD []) log

/-- The canonical bytes of a row with their key. -/
def keyedBytes (r : StoredLog) : Except Chain.CodecError (Bytes × String) := do
  let log ← r.canonical
  return (log.encode, Chain.blobKey log.encode)

variable {r r' : StoredLog} {log log' : Chain.CanonicalLog}

theorem Denotes.keyedBytes (h : r.Denotes log) :
    r.keyedBytes = .ok (log.encode, Chain.blobKey log.encode) := by
  have hlog : r.canonical = .ok log := Chain.ofColumns_eq_ok_iff_denote.mpr h
  rw [StoredLog.keyedBytes, hlog]
  rfl

theorem Denotes.formed (h : r.Denotes log) : log.Formed :=
  (Chain.denote_iff.mp h).formed (Nat.le_refl 4)

end StoredLog

namespace Chain

/-- **The key of a log depends only on what its columns mean.** The columns are read exactly if the
address has the digits of 20 bytes and each topic that is not blank those of 32, between blanks and
with or without a mark; otherwise the error is about the address, or else about the first topic that
has not. What is read is the log that they denote. So rows that denote one log have the same
canonical bytes and the same key, however they are written, and rows that denote different logs have
different canonical bytes. -/
theorem ofColumns_meaning :
    (∀ address slots data, (∃ log, CanonicalLog.ofColumns address slots data = .ok log) ↔
      Text.IsHexText 40 address ∧
        ∀ text, some text ∈ slots → Text.AllBlank text.toList ∨ Text.IsHexText 64 text) ∧
    (∀ address slots data reason, CanonicalLog.ofColumns address slots data = .error reason ↔
      Unreadable address slots reason) ∧
    (∀ address slots data log, CanonicalLog.ofColumns address slots data = .ok log ↔
      Denote address slots data log) ∧
    (∀ (r r' : StoredLog) (log : CanonicalLog), r.Denotes log → r'.Denotes log →
      ∃ bytes, r.keyedBytes = .ok (bytes, blobKey bytes) ∧ r'.keyedBytes = r.keyedBytes) ∧
    ∀ (r r' : StoredLog) (log log' : CanonicalLog), r.Denotes log → r'.Denotes log' →
      log ≠ log' → r.keyedBytes.map Prod.fst ≠ r'.keyedBytes.map Prod.fst := by
  refine ⟨fun address slots data => ?_, fun _ _ _ _ => ofColumns_eq_error_iff,
    fun _ _ _ _ => ofColumns_eq_ok_iff_denote, fun r r' log h h' => ?_,
    fun r r' log log' h h' hne hsame => hne ?_⟩
  · simp only [ofColumns_eq_ok_iff_denote]
    exact exists_denote_iff
  · exact ⟨log.encode, h.keyedBytes, h'.keyedBytes.trans h.keyedBytes.symm⟩
  · rw [h.keyedBytes, h'.keyedBytes] at hsame
    exact CanonicalLog.encode_injective h.formed h'.formed (Except.ok.inj hsame)

end Chain

namespace StoredLog

/-- A transfer of a token, as its columns are usually written. -/
def transfer : StoredLog where
  blockNumber := "1"
  rctId := "r"
  leafCid := "c"
  leafMhKey := "k"
  address := "0x5a0b54d5dc17e0aadc383d2db43b0a0d3e029c4c"
  index := 0
  logData := none
  topic0 := some "0xddf252ad1be2c89b69c2b068fc378daa952ba7f163c4a11628f55a4df523b3ef"
  topic1 := some "0x000000000000000000000000000000000000000000000000000000000000dead"
  topic2 := none
  topic3 := none

/-- The same log in other slots, with other blanks, marks and letters. -/
def respelled : StoredLog :=
  { transfer with
    address := "\t5A0B54D5DC17E0AADC383D2DB43B0A0D3E029C4C\u00a0"
    logData := some []
    topic0 := some " "
    topic1 := some " 0XDDF252AD1BE2C89B69C2B068FC378DAA952BA7F163C4A11628F55A4DF523B3EF"
    topic3 := some "000000000000000000000000000000000000000000000000000000000000DEAD" }

/-- A transfer that differs in its data. -/
def annotated : StoredLog := { transfer with logData := some [0] }

/-- The log of the first two. -/
def transferLog : Chain.CanonicalLog where
  address :=
    [0x5a, 0x0b, 0x54, 0xd5, 0xdc, 0x17, 0xe0, 0xaa, 0xdc, 0x38, 0x3d, 0x2d, 0xb4, 0x3b, 0x0a, 0x0d,
      0x3e, 0x02, 0x9c, 0x4c]
  topics :=
    [[0xdd, 0xf2, 0x52, 0xad, 0x1b, 0xe2, 0xc8, 0x9b, 0x69, 0xc2, 0xb0, 0x68, 0xfc, 0x37, 0x8d,
      0xaa, 0x95, 0x2b, 0xa7, 0xf1, 0x63, 0xc4, 0xa1, 0x16, 0x28, 0xf5, 0x5a, 0x4d, 0xf5, 0x23,
      0xb3, 0xef], .replicate 30 0 ++ [0xde, 0xad]]
  data := []

theorem transfer_respelled : transfer.Denotes transferLog ∧ respelled.Denotes transferLog ∧
    annotated.Denotes { transferLog with data := [0] } ∧
    transferLog ≠ { transferLog with data := [0] } ∧
    (∃ bytes, transfer.keyedBytes = .ok (bytes, Chain.blobKey bytes) ∧
      respelled.keyedBytes = transfer.keyedBytes) ∧
    transfer.keyedBytes.map Prod.fst ≠ annotated.keyedBytes.map Prod.fst := by
  have hdenotes {r : StoredLog} {log : Chain.CanonicalLog} (h : r.canonical = .ok log) :
      r.Denotes log := Chain.ofColumns_eq_ok_iff_denote.mp h
  have htransfer : transfer.Denotes transferLog := hdenotes (by decide +kernel)
  have hrespelled : respelled.Denotes transferLog := hdenotes (by decide +kernel)
  have hannotated : annotated.Denotes { transferLog with data := [0] } :=
    hdenotes (by decide +kernel)
  have hne : transferLog ≠ { transferLog with data := [0] } := by decide
  exact ⟨htransfer, hrespelled, hannotated, hne,
    Chain.ofColumns_meaning.2.2.2.1 _ _ _ htransfer hrespelled,
    Chain.ofColumns_meaning.2.2.2.2 _ _ _ _ htransfer hannotated hne⟩

end StoredLog

end ChainMigration
