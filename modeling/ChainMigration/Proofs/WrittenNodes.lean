import ChainMigration.Yaml.Render
import ChainMigration.Yaml.Token

/-! # Nodes that are written

A node is written if each of its scalars is in a style that holds its text and its keys are plain
names; then the lines that it is rendered as tell it. `Node.tokens` are the tokens of these
lines. -/

namespace ChainMigration.Yaml

/-! ### Styles -/

/-- The style holds the text: it is read back from what is written. -/
def ScalarStyle.Holds : ScalarStyle → List Char → Prop
  | .plain, cs => cs ≠ [] ∧ allowsPlain cs = true
  | .singleQuoted, cs => '\n' ∉ cs ∧ allowsSingle cs = true
  | .doubleQuoted, _ => True
  | .literal, cs => cs ≠ [] ∧ allowsLiteral cs = true
  | .folded, _ => False

/-- **The style that suits a text holds it.** -/
theorem ScalarStyle.holds_ofText (text : String) : (ofText text).Holds text.toList := by
  simp only [ofText]
  split
  · next hbreak =>
    have hne : text.toList ≠ [] := by
      intro hnil
      rw [hnil] at hbreak
      cases hbreak
    split
    · next hallows => exact ⟨hne, hallows⟩
    · trivial
  · next hbreak =>
    split
    · next hplain =>
      rw [Bool.and_eq_true] at hplain
      refine ⟨fun hnil => ?_, hplain.1⟩
      rw [String.toList_eq_nil_iff.mp hnil] at hplain
      exact absurd hplain.2 (by decide)
    · split
      · next hallows => exact ⟨by simpa using hbreak, hallows⟩
      · trivial

/-! ### Nodes -/

/-- A name of lowercase letters and underscores that is short enough for a key. -/
structure IsName (cs : List Char) : Prop where
  ne_nil : cs ≠ []
  length_le : cs.length ≤ 1024
  letters : ∀ c ∈ cs, (c.isLower || c == '_') = true

namespace Node

/-- The entries of a mapping whose keys are names. -/
def named (settings : List (String × Node)) : List (Node × Node) :=
  settings.map fun entry => (.plain entry.1, entry.2)

/-- **A node is written** by lines that tell it. -/
inductive Written : Node → Prop
  | scalar {style : ScalarStyle} {text : String} (hholds : style.Holds text.toList) :
    Written (.scalar style none text)
  | sequence {items : List Node} (hitems : ∀ item ∈ items, Written item) :
    Written (.sequence items)
  | mapping {settings : List (String × Node)} (hnames : ∀ s ∈ settings, IsName s.1.toList)
    (hvalues : ∀ s ∈ settings, Written s.2) :
    Written (.mapping (named settings))

theorem written_ofText (text : String) : (ofText text).Written :=
  .scalar (ScalarStyle.holds_ofText text)

mutual

/-- The tokens of a node. Below a key the items of a list are not enclosed. -/
def tokens (belowKey : Bool) : Node → List Token
  | .scalar style _ text => [.scalar style text]
  | .sequence [] => [.flowSequence, .flowSequenceEnd]
  | .sequence (item :: items) =>
    if belowKey then itemTokens (item :: items)
    else .blockSequence :: itemTokens (item :: items) ++ [.blockEnd]
  | .mapping [] => [.flowMapping, .flowMappingEnd]
  | .mapping (entry :: entries) => .blockMapping :: entryTokens (entry :: entries) ++ [.blockEnd]
  | .alias _ => []

/-- The tokens of the items of a list. -/
def itemTokens : List Node → List Token
  | [] => []
  | item :: items => .blockEntry :: tokens false item ++ itemTokens items

/-- The tokens of the entries of a mapping. -/
def entryTokens : List (Node × Node) → List Token
  | [] => []
  | (key, value) :: entries =>
    .key :: tokens true key ++ .value :: tokens true value ++ entryTokens entries

end

end Node

end ChainMigration.Yaml
