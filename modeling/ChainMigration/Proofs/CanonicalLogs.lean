import ChainMigration.Chain.BlobKey
import ChainMigration.Chain.Log
import ChainMigration.Proofs.Base32
import ChainMigration.Proofs.HexText
import ChainMigration.Proofs.Items
import Mathlib.Data.List.Forall2

/-! # Logs, their columns and their keys

Columns describe a log exactly if the address and every topic that is present and not blank spell
bytes of the right number (`Chain.CanonicalLog.ofColumns_eq_ok`). The encoded form of a log tells
the log (`Chain.CanonicalLog.encode_injective`), and the key of a blob tells the digest of the blob
(`Chain.blobKey_eq_iff`); so two logs with one key are the same unless their encoded forms collide
(`Chain.CanonicalLog.eq_or_collide`). -/

namespace ChainMigration.Chain

open Rlp

/-! ### Columns -/

/-- The topics that are present and not blank, in slot order. -/
def writtenTopics (slots : List (Option String)) : List (List Char) :=
  (slots.filterMap fun slot => slot.map (Text.trimmed ·.toList)).filter (· ≠ [])

/-- **The columns describe a log**: the address and the topics spell its bytes. -/
structure CanonicalLog.Described (log : CanonicalLog) (address : String)
    (slots : List (Option String)) (data : Bytes) : Prop where
  address_length : log.address.length = 20
  address_spelled : Text.SpellsHex (Text.trimmed address.toList) log.address
  topics : List.Forall₂ (fun text topic => topic.length = 32 ∧ Text.SpellsHex text topic)
    (writtenTopics slots) log.topics
  data : log.data = data

namespace CanonicalLog

theorem readAddress_eq_ok {text : String} {address : Bytes} :
    readAddress text = .ok address ↔
      address.length = 20 ∧ Text.SpellsHex (Text.trimmed text.toList) address := by
  rw [← Text.readHexOf?_eq_some_iff, readAddress]
  cases Text.readHexOf? 20 (Text.trimmed text.toList) with
  | none => exact iff_of_false (by rintro ⟨⟩) (by rintro ⟨⟩)
  | some bs => simp

theorem writtenTopics_none (slots : List (Option String)) :
    writtenTopics (none :: slots) = writtenTopics slots := rfl

theorem writtenTopics_some (text : String) (slots : List (Option String)) :
    writtenTopics (some text :: slots) = if Text.trimmed text.toList = [] then writtenTopics slots
      else Text.trimmed text.toList :: writtenTopics slots := by
  have hcons : (some text :: slots).filterMap (fun slot => slot.map (Text.trimmed ·.toList)) =
      Text.trimmed text.toList :: slots.filterMap fun slot => slot.map (Text.trimmed ·.toList) :=
    rfl
  rw [writtenTopics, hcons, List.filter_cons]
  by_cases hblank : Text.trimmed text.toList = []
  · rw [if_pos hblank, if_neg (by simpa using hblank), writtenTopics]
  · rw [if_neg hblank, if_pos (by simpa using hblank), writtenTopics]

theorem readTopics_some (text : String) (slots : List (Option String)) :
    readTopics (some text :: slots) = if Text.trimmed text.toList = [] then readTopics slots
      else match Text.readHexOf? 32 (Text.trimmed text.toList) with
        | some topic => (readTopics slots).map (topic :: ·)
        | none => .error (.hex .topic (.ofList (Text.trimmed text.toList))) := by
  rw [readTopics]
  rfl

/-- **The topics are read** exactly if all that are written spell 32 bytes. -/
theorem readTopics_eq_ok {slots : List (Option String)} {topics : List Bytes} :
    readTopics slots = .ok topics ↔
      List.Forall₂ (fun text topic => topic.length = 32 ∧ Text.SpellsHex text topic)
        (writtenTopics slots) topics := by
  induction slots generalizing topics with
  | nil =>
    rw [readTopics, Except.ok.injEq]
    cases topics with
    | nil => exact iff_of_true rfl .nil
    | cons topic topics => exact iff_of_false (by rintro ⟨⟩) (by rintro ⟨⟩)
  | cons slot slots ih =>
    cases slot with
    | none => rw [readTopics, writtenTopics_none, ih]
    | some text =>
      rw [readTopics_some, writtenTopics_some]
      split
      · exact ih
      · simp only [List.forall₂_cons_left_iff, ← ih]
        simp only [← Text.readHexOf?_eq_some_iff]
        cases Text.readHexOf? 32 (Text.trimmed text.toList) with
        | none => exact iff_of_false (by rintro ⟨⟩) (by rintro ⟨_, _, ⟨⟩, -⟩)
        | some topic =>
          rw [map_eq_ok]
          constructor
          · rintro ⟨rest, hrest, rfl⟩
            exact ⟨topic, rest, rfl, hrest, rfl⟩
          · rintro ⟨topic', rest, htopic, hrest, rfl⟩
            cases htopic
            exact ⟨rest, hrest, rfl⟩

theorem readTopics_append (before after : List (Option String)) :
    readTopics (before ++ after) = do
      let topics ← readTopics before
      return topics ++ (← readTopics after) := by
  induction before with
  | nil =>
    rw [List.nil_append, readTopics]
    cases readTopics after <;> rfl
  | cons slot before ih =>
    cases slot with
    | none => exact ih
    | some text =>
      rw [List.cons_append, readTopics_some, readTopics_some, ih]
      split
      · rfl
      · cases Text.readHexOf? 32 (Text.trimmed text.toList) with
        | none => rfl
        | some topic =>
          cases readTopics before with
          | error reason => rfl
          | ok topics => cases readTopics after <;> rfl

/-- **The first topic that is written and spells no 32 bytes** decides the error. -/
theorem readTopics_eq_error_iff {slots : List (Option String)} {reason : CodecError} :
    readTopics slots = .error reason ↔ ∃ before text after, slots = before ++ some text :: after ∧
      (∃ topics, readTopics before = .ok topics) ∧ Text.trimmed text.toList ≠ [] ∧
      Text.readHexOf? 32 (Text.trimmed text.toList) = none ∧
      reason = .hex .topic (.ofList (Text.trimmed text.toList)) := by
  constructor
  · intro h
    induction slots with
    | nil => cases h
    | cons slot slots ih =>
      cases slot with
      | none =>
        obtain ⟨before, text, after, rfl, hbefore, hbad⟩ := ih h
        exact ⟨none :: before, text, after, rfl, hbefore, hbad⟩
      | some text =>
        rw [readTopics_some] at h
        split at h
        · next hblank =>
          obtain ⟨before, bad, after, rfl, ⟨topics, hbefore⟩, hbad⟩ := ih h
          refine ⟨some text :: before, bad, after, rfl, ⟨topics, ?_⟩, hbad⟩
          rw [readTopics_some, if_pos hblank, hbefore]
        · next hwritten =>
          cases hread : Text.readHexOf? 32 (Text.trimmed text.toList) with
          | none =>
            rw [hread] at h
            cases h
            exact ⟨[], text, slots, rfl, ⟨[], rfl⟩, hwritten, hread, rfl⟩
          | some topic =>
            rw [hread] at h
            obtain ⟨before, bad, after, rfl, ⟨topics, hbefore⟩, hbad⟩ := ih (map_eq_error.mp h)
            refine ⟨some text :: before, bad, after, rfl, ⟨topic :: topics, ?_⟩, hbad⟩
            rw [readTopics_some, if_neg hwritten, hread, hbefore]
            rfl
  · rintro ⟨before, text, after, rfl, ⟨topics, hbefore⟩, hwritten, hread, rfl⟩
    rw [readTopics_append, hbefore, readTopics_some, if_neg hwritten, hread]
    rfl

theorem exists_topic_of_readTopics_eq_error {slots : List (Option String)} {reason : CodecError}
    (h : readTopics slots = .error reason) : ∃ text ∈ writtenTopics slots,
      reason = .hex .topic (.ofList text) ∧
        ∀ topic : Bytes, topic.length = 32 → ¬ Text.SpellsHex text topic := by
  obtain ⟨before, text, after, rfl, -, hwritten, hread, rfl⟩ := readTopics_eq_error_iff.mp h
  refine ⟨_, ?_, rfl, fun topic hlength hspelled => ?_⟩
  · have hfront : Text.trimmed text.toList ∈ writtenTopics (some text :: after) := by
      rw [writtenTopics_some, if_neg hwritten]
      exact List.mem_cons_self
    rw [writtenTopics, List.filterMap_append, List.filter_append]
    exact List.mem_append_right _ hfront
  · rw [Text.readHexOf?_eq_some_iff.mpr ⟨hlength, hspelled⟩] at hread
    cases hread

/-- **Columns are read as a log** exactly if they describe it. -/
theorem ofColumns_eq_ok {address : String} {slots : List (Option String)} {data : Bytes}
    {log : CanonicalLog} :
    ofColumns address slots data = .ok log ↔ log.Described address slots data := by
  unfold ofColumns
  simp only [bind_eq_ok, readAddress_eq_ok, readTopics_eq_ok, pure_eq_ok]
  constructor
  · rintro ⟨a, ⟨hlength, hspelled⟩, topics, htopics, rfl⟩
    exact ⟨hlength, hspelled, htopics, rfl⟩
  · rintro ⟨hlength, hspelled, htopics, rfl⟩
    exact ⟨log.address, ⟨hlength, hspelled⟩, log.topics, htopics, rfl⟩

/-- **Why columns are not read as a log**: the address spells no 20 bytes, or a topic no 32. -/
inductive Misspelled (address : String) (slots : List (Option String)) : CodecError → Prop
  | address (h : ∀ bs : Bytes, bs.length = 20 → ¬ Text.SpellsHex (Text.trimmed address.toList) bs) :
    Misspelled address slots (.hex .address address)
  | topic {text : List Char} (hmem : text ∈ writtenTopics slots)
    (h : ∀ bs : Bytes, bs.length = 32 → ¬ Text.SpellsHex text bs) :
    Misspelled address slots (.hex .topic (.ofList text))

theorem misspelled_of_ofColumns_eq_error {address : String} {slots : List (Option String)}
    {data : Bytes} {reason : CodecError} (h : ofColumns address slots data = .error reason) :
    Misspelled address slots reason := by
  cases haddress : readAddress address with
  | error cause =>
    rw [ofColumns, haddress] at h
    cases h
    have hnone : ∀ bs : Bytes, bs.length = 20 →
        ¬ Text.SpellsHex (Text.trimmed address.toList) bs := by
      intro bs hlength hspelled
      rw [readAddress_eq_ok.mpr ⟨hlength, hspelled⟩] at haddress
      cases haddress
    rw [readAddress] at haddress
    split at haddress
    · cases haddress
    · cases haddress
      exact .address hnone
  | ok bs =>
    cases htopics : readTopics slots with
    | error cause =>
      rw [ofColumns, haddress, htopics] at h
      cases h
      obtain ⟨text, hmem, rfl, hnone⟩ := exists_topic_of_readTopics_eq_error htopics
      exact .topic hmem hnone
    | ok topics =>
      rw [ofColumns, haddress, htopics] at h
      cases h

/-! ### Encoded forms -/

/-- The parts of a log have the sizes that chains give them. -/
structure Formed (log : CanonicalLog) : Prop where
  address : log.address.length = 20
  topics : ∀ topic ∈ log.topics, topic.length = 32
  count : log.topics.length ≤ 4

theorem length_encodeTopic {topic : Bytes} (h : topic.length = 32) :
    (encodeString topic).length = 33 := by
  have halone : ¬ Alone topic := by
    rintro ⟨b, rfl, -⟩
    cases h
  rw [encodeString_of_not_alone halone, List.length_append, h]
  rfl

theorem length_flatten_topics : ∀ {topics : List Bytes}, (∀ topic ∈ topics, topic.length = 32) →
    ((topics.map encodeString).flatten).length = 33 * topics.length
  | [], _ => rfl
  | topic :: topics, h => by
    obtain ⟨htopic, htopics⟩ := List.forall_mem_cons.mp h
    rw [List.map_cons, List.flatten_cons, List.length_append, length_encodeTopic htopic,
      length_flatten_topics htopics, List.length_cons]
    omega

theorem topics_eq_of_flatten_eq : ∀ {topics topics' : List Bytes},
    (∀ topic ∈ topics, topic.length = 32) → (∀ topic ∈ topics', topic.length = 32) →
    (topics.map encodeString).flatten = (topics'.map encodeString).flatten → topics = topics'
  | [], [], _, _, _ => rfl
  | [], topic :: topics, _, h', heq | topic :: topics, [], h', _, heq => by
    have hlength := congrArg List.length heq
    rw [length_flatten_topics h'] at hlength
    simp at hlength
  | topic :: topics, topic' :: topics', h, h', heq => by
    obtain ⟨htopic, htopics⟩ := List.forall_mem_cons.mp h
    obtain ⟨htopic', htopics'⟩ := List.forall_mem_cons.mp h'
    rw [List.map_cons, List.map_cons, List.flatten_cons, List.flatten_cons] at heq
    have hread := payload_encodeString (show topic.length < 256 ^ 8 by rw [htopic]; decide)
      (topics.map encodeString).flatten
    rw [heq, payload_encodeString (by rw [htopic']; decide)] at hread
    obtain ⟨rfl, hrest⟩ := Prod.mk.inj (Except.ok.inj hread)
    rw [topics_eq_of_flatten_eq htopics htopics' hrest.symm]

/-- **The encoded form of a log tells the log.** -/
theorem encode_injective {log log' : CanonicalLog} (h : log.Formed) (h' : log'.Formed)
    (heq : log.encode = log'.encode) : log = log' := by
  have hflat := flatten_eq_of_encodeList_eq heq
  simp only [List.flatten_cons, List.flatten_nil, List.append_nil] at hflat
  -- The address and the topics are short enough to be read back; the data come last.
  have hshort {l : CanonicalLog} (hl : l.Formed) :
      ((l.topics.map encodeString).flatten).length < 256 ^ 8 := by
    have hcount := hl.count
    rw [length_flatten_topics hl.topics]
    omega
  have hlength : log.address.length < 256 ^ 8 := by rw [h.address]; decide
  have haddress := payload_encodeString hlength
    (encodeList (log.topics.map encodeString) ++ encodeString log.data)
  rw [hflat, payload_encodeString (by rw [h'.address]; decide)] at haddress
  obtain ⟨haddress, hrest⟩ := Prod.mk.inj (Except.ok.inj haddress)
  have htopics := payload_encodeList (hshort h) (encodeString log.data)
  rw [← hrest, payload_encodeList (hshort h')] at htopics
  obtain ⟨htopics, hdata⟩ := Prod.mk.inj (Except.ok.inj htopics)
  have hsame := topics_eq_of_flatten_eq h'.topics h.topics htopics
  have hbytes := encodeString_injective hdata
  obtain ⟨address, topics, data⟩ := log
  obtain ⟨address', topics', data'⟩ := log'
  dsimp only at haddress hsame hbytes
  rw [haddress, hsame, hbytes]

theorem Described.formed {log : CanonicalLog} {address : String} {slots : List (Option String)}
    {data : Bytes} (h : log.Described address slots data) (hslots : slots.length ≤ 4) :
    log.Formed := by
  refine ⟨h.address_length, ((List.forall₂_and_left _ _).mp h.topics.flip).1, ?_⟩
  · rw [← h.topics.length_eq]
    exact (List.length_filter_le _ _).trans ((List.length_filterMap_le _ _).trans hslots)

end CanonicalLog

/-! ### Keys -/

/-- Two blobs that differ have one digest. -/
def Collide (a b : Bytes) : Prop := a ≠ b ∧ Digest.keccak256 a = Digest.keccak256 b

/-- **Blobs have one key exactly if they have one digest.** -/
theorem blobKey_eq_iff {a b : Bytes} :
    blobKey a = blobKey b ↔ Digest.keccak256 a = Digest.keccak256 b := by
  constructor
  · intro h
    have hchars := congrArg String.toList h
    rw [blobKey, blobKey, String.toList_append, String.toList_append] at hchars
    have hhash := Text.base32_injective (String.toList_injective (List.append_cancel_left hchars))
    exact List.tail_eq_of_cons_eq (List.tail_eq_of_cons_eq hhash)
  · intro h
    rw [blobKey, blobKey, multihash, multihash, h]

/-- **Two logs under one key are the same**, unless their encoded forms collide. -/
theorem CanonicalLog.eq_or_collide {log log' : CanonicalLog} (h : log.Formed) (h' : log'.Formed)
    (hkey : blobKey log.encode = blobKey log'.encode) :
    log = log' ∨ Collide log.encode log'.encode := by
  by_cases heq : log.encode = log'.encode
  · exact Or.inl (encode_injective h h' heq)
  · exact Or.inr ⟨heq, blobKey_eq_iff.mp hkey⟩

end ChainMigration.Chain
