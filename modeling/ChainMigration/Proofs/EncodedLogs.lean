import ChainMigration.Chain.Log
import ChainMigration.Proofs.ReadItems

/-! # Encoded logs read back

A log is read from a list that holds an address, a list of strings of 32 bytes and a string
(`readLog`). What is read with nothing left in the list is the log that stands in front, encoded
(`readLog_eq_ok_iff`), so that a log is told by its encoded form and by every text that begins with
it. -/

namespace ChainMigration

namespace Rlp

variable {bs content rest : Bytes} {count : Nat}

theorem encodeString_ne_nil (bs : Bytes) : encodeString bs ≠ [] := by
  by_cases halone : Alone bs
  · rw [encodeString_of_alone halone]
    obtain ⟨b, rfl, -⟩ := halone
    exact List.cons_ne_nil _ _
  · rw [encodeString_of_not_alone halone]
    have hheader := List.ne_nil_of_length_pos (length_lengthHeader_pos 0x80 bs.length)
    exact List.append_ne_nil_of_left_ne_nil hheader _

theorem length_lt_of_fixed_eq_ok (h : fixed count bs = .ok (content, rest)) :
    rest.length < bs.length := by
  obtain ⟨-, -, rfl⟩ := fixed_eq_ok_iff.mp h
  have hpos := List.length_pos_of_ne_nil (encodeString_ne_nil content)
  rw [List.length_append]
  omega

/-- Strings of exactly `count` bytes, one after the other up to the end. -/
def fixedItems (count : Nat) (bs : Bytes) : Except RlpError (List Bytes) :=
  if bs = [] then .ok []
  else match _h : fixed count bs with
    | .error reason => .error reason
    | .ok (content, rest) => (fixedItems count rest).map (content :: ·)
termination_by bs.length
decreasing_by exact length_lt_of_fixed_eq_ok _h

theorem fixedItems_nil (count : Nat) : fixedItems count [] = .ok [] := by
  rw [fixedItems, if_pos rfl]

theorem fixedItems_of_ne_nil (h : bs ≠ []) : fixedItems count bs = do
    let (content, rest) ← fixed count bs
    return content :: (← fixedItems count rest) := by
  rw [fixedItems, if_neg h]
  split
  · next reason hread =>
    rw [hread]
    rfl
  · next content rest hread =>
    rw [hread]
    rfl

/-- **Strings are read up to the end** exactly if nothing else is there. -/
theorem fixedItems_eq_ok_iff {contents : List Bytes} (hcount : count < 256 ^ 8) :
    fixedItems count bs = .ok contents ↔
      (∀ content ∈ contents, content.length = count) ∧
        bs = (contents.map encodeString).flatten := by
  induction contents generalizing bs with
  | nil =>
    constructor
    · intro h
      refine ⟨fun _ hmem => absurd hmem List.not_mem_nil, ?_⟩
      by_contra hne
      rw [fixedItems_of_ne_nil hne] at h
      obtain ⟨⟨content, rest⟩, -, h⟩ := bind_eq_ok.mp h
      obtain ⟨contents, -, h⟩ := bind_eq_ok.mp h
      cases h
    · rintro ⟨-, rfl⟩
      exact fixedItems_nil count
  | cons content contents ih =>
    rw [List.forall_mem_cons, List.map_cons, List.flatten_cons]
    constructor
    · intro h
      have hne : bs ≠ [] := by
        rintro rfl
        rw [fixedItems_nil] at h
        cases h
      rw [fixedItems_of_ne_nil hne] at h
      obtain ⟨⟨content', rest⟩, hread, h⟩ := bind_eq_ok.mp h
      obtain ⟨contents', hrest, h⟩ := bind_eq_ok.mp h
      cases h
      obtain ⟨hlength, -, hbs⟩ := fixed_eq_ok_iff.mp hread
      obtain ⟨hlengths, rfl⟩ := ih.mp hrest
      exact ⟨⟨hlength, hlengths⟩, hbs⟩
    · rintro ⟨⟨hlength, hlengths⟩, rfl⟩
      rw [fixedItems_of_ne_nil (List.append_ne_nil_of_left_ne_nil (encodeString_ne_nil content) _),
        fixed_eq_ok_iff.mpr ⟨hlength, hlength ▸ hcount, rfl⟩]
      exact bind_eq_ok.mpr ⟨_, rfl, bind_eq_ok.mpr ⟨contents, ih.mpr ⟨hlengths, rfl⟩, rfl⟩⟩

end Rlp

namespace Chain

open Rlp

/-- Reads an encoded log: its address, its list of topics and its data. Besides the log it tells
what is left in the list and what stands behind it. -/
def readLog (bs : Bytes) : Except RlpError (CanonicalLog × Bytes × Bytes) := do
  let (fields, behind) ← payload .list bs
  let (address, fields) ← fixed 20 fields
  let (topics, fields) ← payload .list fields
  let topics ← fixedItems 32 topics
  let (data, left) ← payload .string fields
  return (⟨address, topics, data⟩, left, behind)

namespace CanonicalLog

/-- **The log is one that there can be**: an address of 20 bytes, topics of 32 bytes each, and an
encoded form that is shorter than 2^64 bytes. -/
structure Proper (log : CanonicalLog) : Prop where
  address : log.address.length = 20
  topics : ∀ topic ∈ log.topics, topic.length = 32
  length : log.encode.length < 2 ^ 64

/-- The encoded fields of the log, one after the other. -/
def fields (log : CanonicalLog) : Bytes :=
  encodeString log.address ++ encodeList (log.topics.map encodeString) ++ encodeString log.data

theorem encode_eq_item (log : CanonicalLog) : log.encode = item .list log.fields := by
  rw [encode, encodeList_eq_item, fields]
  simp only [List.flatten_cons, List.flatten_nil, List.append_nil, List.append_assoc]

end CanonicalLog

variable {bs left behind : Bytes} {log log' : CanonicalLog}

/-- **A log is read** exactly if its fields stand at the front of a list in front. -/
theorem readLog_eq_ok_iff : readLog bs = .ok (log, left, behind) ↔
    log.address.length = 20 ∧ (∀ topic ∈ log.topics, topic.length = 32) ∧
      (log.fields ++ left).length < 256 ^ 8 ∧ bs = item .list (log.fields ++ left) ++ behind := by
  unfold readLog
  simp only [bind_eq_ok, pure_eq_ok, Prod.exists, payload_eq_ok_iff, fixed_eq_ok_iff,
    fixedItems_eq_ok_iff (show 32 < 256 ^ 8 by decide)]
  constructor
  · rintro ⟨payload, junk, ⟨hfits, hbs⟩, address, fields, ⟨haddress, -, hpayload⟩, topics, fields',
      ⟨-, hfields⟩, contents, ⟨htopics, hcontents⟩, data, rest, ⟨-, hfields'⟩, h⟩
    obtain ⟨rfl, rfl, rfl⟩ : (⟨address, contents, data⟩ : CanonicalLog) = log ∧ rest = left ∧
      junk = behind := by simpa using h
    have hwhole : payload = CanonicalLog.fields ⟨address, contents, data⟩ ++ rest := by
      rw [hpayload, hfields, hfields', hcontents, CanonicalLog.fields, encodeList_eq_item]
      simp only [List.append_assoc, item]
    rw [← hwhole]
    exact ⟨haddress, htopics, hfits, hbs⟩
  · rintro ⟨haddress, htopics, hfits, hbs⟩
    have hdata := length_le_encodeString log.data
    have hlength := hfits
    rw [CanonicalLog.fields, encodeList_eq_item, item_list] at hlength
    simp only [List.length_append] at hlength
    refine ⟨_, behind, ⟨hfits, hbs⟩, log.address, _, ⟨haddress, by omega, ?_⟩,
      (log.topics.map encodeString).flatten, _, ⟨by omega, rfl⟩, log.topics, ⟨htopics, rfl⟩,
      log.data, left, ⟨by omega, rfl⟩, rfl⟩
    rw [CanonicalLog.fields, encodeList_eq_item]
    simp only [List.append_assoc, item]

theorem CanonicalLog.Proper.readLog (h : log.Proper) (rest : Bytes) :
    readLog (log.encode ++ rest) = .ok (log, [], rest) := by
  have hfits : (log.fields ++ []).length < 256 ^ 8 := by
    have hlength := h.length
    rw [log.encode_eq_item, item_list, List.length_append] at hlength
    rw [List.append_nil]
    omega
  refine readLog_eq_ok_iff.mpr ⟨h.address, h.topics, hfits, ?_⟩
  rw [log.encode_eq_item, List.append_nil]

/-- A log is told by whatever begins with its encoded form. -/
theorem CanonicalLog.Proper.eq_of_prefix (h : log.Proper) (h' : log'.Proper)
    (hencode : log.encode <+: log'.encode) : log = log' := by
  obtain ⟨rest, hrest⟩ := hencode
  have hread := h.readLog rest
  have hread' := h'.readLog []
  rw [List.append_nil, ← hrest, hread] at hread'
  exact (Prod.mk.inj (Except.ok.inj hread')).1

/-- **The encoded form of a log loses nothing.** Read as a list that holds an address, a list of
strings of 32 bytes and a string, it gives the log back, with nothing left in the list and nothing
taken from what stands behind it. So logs with one encoded form are equal, and no encoded form is
the beginning of a longer one. -/
theorem readLog_encode :
    (∀ log : CanonicalLog, log.Proper → readLog log.encode = .ok (log, [], [])) ∧
    (∀ (log : CanonicalLog) (rest : Bytes), log.Proper →
      readLog (log.encode ++ rest) = .ok (log, [], rest)) ∧
    ∀ log log' : CanonicalLog, log.Proper → log'.Proper →
      (log.encode = log'.encode ↔ log = log') ∧
        (log.encode <+: log'.encode ↔ log.encode = log'.encode) := by
  refine ⟨fun log h => ?_, fun log rest h => h.readLog rest,
    fun log log' h h' => ⟨⟨fun hencode => ?_, congrArg _⟩, fun hencode => ?_, fun hencode => ?_⟩⟩
  · have hread := h.readLog []
    rwa [List.append_nil] at hread
  · exact h.eq_of_prefix h' (hencode ▸ List.prefix_rfl)
  · rw [h.eq_of_prefix h' hencode]
  · exact hencode ▸ List.prefix_rfl

/-- A log whose parts are longer than the short headers reach. -/
def longLog : CanonicalLog where
  address := .replicate 20 0x5a
  topics := [.replicate 32 1, .replicate 32 2]
  data := .replicate 300 0xaa

/-- The same log with a single byte of data, which stands for itself. -/
def shortLog : CanonicalLog := { longLog with data := [0x7f] }

theorem readLog_longLog : longLog.Proper ∧ shortLog.Proper ∧
    readLog longLog.encode = .ok (longLog, [], []) ∧
    readLog (shortLog.encode ++ [0xff]) = .ok (shortLog, [], [0xff]) ∧
    (shortLog.encode = longLog.encode ↔ shortLog = longLog) ∧
    ¬ shortLog.encode <+: longLog.encode := by
  have hlong : longLog.Proper := ⟨rfl, by decide, by decide +kernel⟩
  have hshort : shortLog.Proper := ⟨rfl, by decide, by decide +kernel⟩
  obtain ⟨hequal, hfront⟩ := readLog_encode.2.2 shortLog longLog hshort hlong
  refine ⟨hlong, hshort, readLog_encode.1 longLog hlong, readLog_encode.2.1 shortLog [0xff] hshort,
    hequal, ?_⟩
  rw [hfront, hequal]
  decide

end Chain

end ChainMigration
