import ChainMigration.Proofs.ConfigDocument
import ChainMigration.Proofs.RenderedDocuments

/-! # Fingerprints of configurations

The text that a configuration is identified by is read back as the configuration. So configurations
that differ in any setting have different texts, whatever the settings look like: every node that a
configuration is written as is one that tells its scalars apart (`Config.written_settings`). -/

namespace ChainMigration

open Yaml

/-! ### Scalars -/

instance (cs : List Char) : Decidable (IsName cs) :=
  decidable_of_iff (cs ≠ [] ∧ cs.length ≤ 1024 ∧ cs.all (fun c => c.isLower || c == '_') = true)
    ⟨fun h => ⟨h.1, h.2.1, List.all_eq_true.mp h.2.2⟩,
      fun h => ⟨h.ne_nil, h.length_le, List.all_eq_true.mpr h.letters⟩⟩

namespace Yaml.ScalarStyle

variable {c d : Char} {cs : List Char}

theorem ne_of_isDigit (hc : c.isDigit = true) (hd : d.isDigit = false) : c ≠ d := by
  rintro rfl
  rw [hc] at hd
  cases hd

theorem isPrintable_of_isDigit (hc : c.isDigit = true) : isPrintable c = true := by
  have hrange : 48 ≤ c.toNat ∧ c.toNat ≤ 57 := by
    simpa [Char.isDigit, UInt32.le_iff_toNat_le] using hc
  simp [isPrintable]
  omega

theorem isBreak_of_isDigit (hc : c.isDigit = true) : isBreak c = false := by
  have hrange : 48 ≤ c.toNat ∧ c.toNat ≤ 57 := by
    simpa [Char.isDigit, UInt32.le_iff_toNat_le] using hc
  simp [isBreak, ne_of_isDigit hc (d := '\n') (by decide)]
  omega

theorem hasInnerIndicator_of_digits (h : ∀ c ∈ cs, c.isDigit = true) (before : Char) :
    hasInnerIndicator before cs = false := by
  induction cs generalizing before with
  | nil => rfl
  | cons c cs ih =>
    obtain ⟨hc, hcs⟩ := List.forall_mem_cons.mp h
    simp [hasInnerIndicator, ih hcs c, ne_of_isDigit hc (d := ':') (by decide),
      ne_of_isDigit hc (d := '#') (by decide)]

/-- **Digits are written plain.** -/
theorem allowsPlain_of_digits (h : ∀ c ∈ cs, c.isDigit = true) : allowsPlain cs = true := by
  cases cs with
  | nil => rfl
  | cons c rest =>
    have hc := h c List.mem_cons_self
    have hmark : startsWithMark (c :: rest) = false := by
      simp [startsWithMark, ne_of_isDigit hc (d := '-') (by decide),
        ne_of_isDigit hc (d := '.') (by decide)]
    have hleading : isLeadingIndicator c rest = false :=
      isLeadingIndicator_of_kind Char.isDigit (by decide) hc
    have hinner := hasInnerIndicator_of_digits (fun d hd => h d (List.mem_cons_of_mem _ hd)) c
    have hspecial : hasSpecial (c :: rest) = false := by
      simp only [hasSpecial, List.any_eq_false, Bool.not_eq_true', Bool.not_eq_false]
      exact fun d hd => isPrintable_of_isDigit (h d hd)
    have houter : hasOuterBlank (c :: rest) = false := by
      have hblank (d : Char) (hd : d ∈ c :: rest) : (d == ' ' || isBreak d) = false := by
        simp [ne_of_isDigit (h d hd) (d := ' ') (by decide), isBreak_of_isDigit (h d hd)]
      rw [hasOuterBlank, List.getLast?_eq_some_getLast (List.cons_ne_nil _ _)]
      simp only [List.head?_cons, Option.any_some, hblank c List.mem_cons_self,
        hblank _ (List.getLast_mem _), Bool.or_self]
    have hbreak : (c :: rest).any isBreak = false := by
      simp only [List.any_eq_false, Bool.not_eq_true]
      exact fun d hd => isBreak_of_isDigit (h d hd)
    simp only [allowsPlain, hmark, hleading, hinner, hspecial, houter, hbreak, Bool.or_self,
      Bool.not_false]

end Yaml.ScalarStyle

theorem written_numberNode (n : Nat) : (numberNode n).Written := by
  have hdigits : (toString n).toList = Nat.toDigits 10 n := Nat.toList_repr
  refine .scalar ⟨?_, ?_⟩
  · rw [hdigits]
    exact Nat.toDigits_ne_nil
  · rw [hdigits]
    exact ScalarStyle.allowsPlain_of_digits fun c hc => Text.isDigit_of_mem_toDigits hc

theorem written_boolNode (b : Bool) : (boolNode b).Written := by
  refine .scalar ⟨?_, ?_⟩
  · cases b <;> decide
  · cases b <;> decide

theorem written_textsNode (texts : List String) : (textsNode texts).Written := by
  refine .sequence fun item hitem => ?_
  obtain ⟨text, -, rfl⟩ := List.mem_map.mp hitem
  exact Node.written_ofText text

/-! ### Sections -/

/-- The setting is written with a name that is read as a key. -/
structure IsWritten (s : String × Node) : Prop where
  name : IsName s.1.toList
  value : s.2.Written

theorem written_mapping {settings : List (String × Node)} (h : ∀ s ∈ settings, IsWritten s) :
    (Node.mapping (Node.named settings)).Written :=
  .mapping (fun s hs => (h s hs).name) fun s hs => (h s hs).value

section

variable {name : String} (hname : IsName name.toList)

include hname

theorem isWritten_value {v : Node} (hv : v.Written) : IsWritten (name, v) := ⟨hname, hv⟩

theorem isWritten_text (text : String) : IsWritten (name, .ofText text) :=
  ⟨hname, Node.written_ofText text⟩

theorem isWritten_number (n : Nat) : IsWritten (name, numberNode n) := ⟨hname, written_numberNode n⟩

theorem isWritten_bool (b : Bool) : IsWritten (name, boolNode b) := ⟨hname, written_boolNode b⟩

theorem isWritten_namedSetting {α : Type} {f : α → Node} (hf : ∀ a, (f a).Written)
    (value : Option α) : ∀ s ∈ namedSetting name f value, IsWritten s := by
  intro s hs
  obtain ⟨a, -, rfl⟩ := Option.map_eq_some_iff.mp (Option.mem_toList.mp hs)
  exact ⟨hname, hf a⟩

theorem isWritten_optionalNumber (n : Option UInt64) :
    ∀ s ∈ namedSetting name (fun n => numberNode n.toNat) n, IsWritten s :=
  isWritten_namedSetting hname (fun n => written_numberNode n.toNat) n

end

theorem DatabaseConfig.written_node (db : DatabaseConfig) : db.node.Written := by
  rw [node_eq]
  refine written_mapping ?_
  simp only [settings, List.forall_mem_append, List.forall_mem_cons]
  exact ⟨⟨⟨isWritten_text (by decide) _, isWritten_number (by decide) _,
    isWritten_text (by decide) _, isWritten_text (by decide) _, isWritten_text (by decide) _,
    isWritten_text (by decide) _, List.forall_mem_nil _⟩, isWritten_optionalNumber (by decide) _⟩,
    isWritten_number (by decide) _, List.forall_mem_nil _⟩

theorem MigrationConfig.written_node (m : MigrationConfig) : m.node.Written := by
  have hranges : (Node.sequence (m.ranges.map fun r =>
      .sequence [numberNode r.start, numberNode r.stop])).Written := by
    refine .sequence fun item hitem => ?_
    obtain ⟨r, -, rfl⟩ := List.mem_map.mp hitem
    exact .sequence (List.forall_mem_cons.mpr ⟨written_numberNode _,
      List.forall_mem_singleton.mpr (written_numberNode _)⟩)
  rw [node_eq]
  refine written_mapping ?_
  simp only [settings, List.forall_mem_append, List.forall_mem_cons]
  exact ⟨⟨⟨⟨⟨⟨⟨⟨⟨isWritten_value (by decide) (written_textsNode _), List.forall_mem_nil _⟩,
    isWritten_optionalNumber (by decide) _⟩,
    isWritten_value (by decide) hranges, List.forall_mem_nil _⟩,
    isWritten_optionalNumber (by decide) _⟩, isWritten_optionalNumber (by decide) _⟩,
    isWritten_bool (by decide) _, List.forall_mem_nil _⟩, isWritten_optionalNumber (by decide) _⟩,
    isWritten_namedSetting (by decide) written_textsNode _⟩, isWritten_bool (by decide) _,
    List.forall_mem_nil _⟩

theorem TransferConfig.written_node (t : TransferConfig) : t.node.Written := by
  rw [node_eq]
  refine written_mapping ?_
  simp only [settings, List.forall_mem_cons]
  exact ⟨isWritten_text (by decide) _, isWritten_number (by decide) _,
    isWritten_number (by decide) _, isWritten_number (by decide) _, List.forall_mem_nil _⟩

theorem LogConfig.written_node (l : LogConfig) : l.node.Written := by
  rw [node_eq]
  refine written_mapping ?_
  simp only [settings, List.forall_mem_append, List.forall_mem_cons]
  exact ⟨⟨⟨⟨isWritten_namedSetting (by decide) Node.written_ofText _,
    isWritten_namedSetting (by decide) Node.written_ofText _⟩, isWritten_text (by decide) _,
    List.forall_mem_nil _⟩, isWritten_text (by decide) _, List.forall_mem_nil _⟩,
    isWritten_text (by decide) _, List.forall_mem_nil _⟩

/-! ### The whole configuration -/

namespace Config

/-- **The sections of a configuration are written** by lines that tell them. -/
theorem written_settings (c : Config) : ∀ s ∈ c.settings, IsWritten s := by
  simp only [settings, List.forall_mem_cons]
  exact ⟨isWritten_value (by decide) c.old.written_node,
    isWritten_value (by decide) c.new.written_node,
    isWritten_value (by decide) c.migration.written_node,
    isWritten_value (by decide) c.transfer.written_node,
    isWritten_value (by decide) c.log.written_node, List.forall_mem_nil _⟩

/-- **The text of a configuration is read back** as the configuration. -/
theorem ofText?_text (c : Config) : ofText? c.text = some c := by
  have hdocument := Document.ofChars?_render (fun s hs => (c.written_settings s hs).name)
    (fun s hs => (c.written_settings s hs).value) (List.cons_ne_nil _ _)
  rw [← node_eq] at hdocument
  rw [ofText?, text, hdocument]
  exact c.read_node

/-- **The fingerprinted text determines the configuration**: it is read back as the configuration,
and a configuration that differs in any setting has another one. -/
theorem fingerprinted_text (c : Config) :
    c.fingerprint = Text.hex (Digest.sha256 c.text.toUTF8.toList) ∧ ofText? c.text = some c ∧
      ∀ d : Config, d ≠ c → d.text ≠ c.text := by
  refine ⟨rfl, c.ofText?_text, fun d hd htext => hd (Option.some.inj ?_)⟩
  rw [← d.ofText?_text, htext, c.ofText?_text]

end Config

end ChainMigration
