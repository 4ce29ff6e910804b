import ChainMigration.Proofs.WrittenNodes
import ChainMigration.Yaml.Composer

/-! # Composing the tokens of a node

Reading the tokens of a written node gives the node back (`Composer.composes_of_written`): each kind
of token that a node may begin with has one equation, and lists and mappings are read item by item.
Three times as much fuel as there are tokens is enough, and all tokens of a document are read
(`Composer.document_tokens`). -/

namespace ChainMigration.Yaml.Composer

variable {c : Composer} {t : Token} {ts rest ends : List Token} {k fuel : Nat}
  {block indentless belowKey : Bool} {n : Node} {items : List Node}
  {settings : List (String × Node)}

/-- The state with other tokens left, after so many nodes. -/
def withTokens (c : Composer) (ts : List Token) (k : Nat) : Composer :=
  { c with tokens := ts, begun := k }

/-! ### One token -/

theorem sees_withTokens : (c.withTokens ts k).sees t = (ts.head? == some t) := rfl

theorem next_withTokens : (c.withTokens (t :: ts) k).next = c.withTokens ts k := rfl

theorem node_scalar (style : ScalarStyle) (text : String) :
    node block indentless (fuel + 1) (c.withTokens (.scalar style text :: ts) k) =
      some (.scalar style none text, c.withTokens ts (k + 1)) := by
  simp [withTokens, node, takeMarks, takeTag, beginNode, endNode, next]

theorem node_flowSequence :
    node block indentless (fuel + 1) (c.withTokens (.flowSequence :: ts) k) =
      (flowItems true fuel (c.withTokens ts (k + 1))).bind
        fun (items, c) => some (.sequence items, c) := by
  simp [withTokens, node, takeMarks, takeTag, beginNode, endNode, next]

theorem node_flowMapping :
    node block indentless (fuel + 1) (c.withTokens (.flowMapping :: ts) k) =
      (flowEntries true fuel (c.withTokens ts (k + 1))).bind
        fun (entries, c) => some (.mapping entries, c) := by
  simp [withTokens, node, takeMarks, takeTag, beginNode, endNode, next]

theorem node_blockEntry :
    node block true (fuel + 1) (c.withTokens (.blockEntry :: ts) k) =
      (indentlessItems fuel (c.withTokens (.blockEntry :: ts) (k + 1))).bind
        fun (items, c) => some (.sequence items, c) := by
  simp [withTokens, node, takeMarks, takeTag, beginNode, endNode]

theorem node_blockSequence :
    node true indentless (fuel + 1) (c.withTokens (.blockSequence :: ts) k) =
      (blockItems fuel (c.withTokens ts (k + 1))).bind
        fun (items, c) => some (.sequence items, c) := by
  simp [withTokens, node, takeMarks, takeTag, beginNode, endNode, next]

theorem node_blockMapping :
    node true indentless (fuel + 1) (c.withTokens (.blockMapping :: ts) k) =
      (blockEntries fuel (c.withTokens ts (k + 1))).bind
        fun (entries, c) => some (.mapping entries, c) := by
  simp [withTokens, node, takeMarks, takeTag, beginNode, endNode, next]

/-! ### Nodes between other tokens -/

/-- **The node is composed** of its tokens, whatever follows them. Items that are not enclosed must
not go on. -/
def Composes (n : Node) : Prop :=
  ∀ (belowKey : Bool) (rest : List Token) (fuel : Nat) (c : Composer) (k : Nat),
    (belowKey = true → rest.head? ≠ some .blockEntry) →
    3 * (n.tokens belowKey).length + 2 ≤ fuel →
    ∃ k', node true belowKey fuel (c.withTokens (n.tokens belowKey ++ rest) k) =
      some (n, c.withTokens rest k')

/-- The tokens of a node do not begin with a token that ends a node or stands outside of all. -/
theorem exists_tokens_eq (hn : n.Written) (belowKey : Bool) :
    ∃ t ts, n.tokens belowKey = t :: ts ∧ isOutside t = false ∧
      t ∉ [Token.key, .value, .blockEnd] ∧ (t = .blockEntry → belowKey = true) := by
  cases hn with
  | @scalar style text => exact ⟨.scalar style text, [], by rw [Node.tokens], rfl, by simp, nofun⟩
  | @sequence items =>
    cases items with
    | nil => exact ⟨.flowSequence, _, by rw [Node.tokens], rfl, by decide, nofun⟩
    | cons item items =>
      cases belowKey with
      | false => exact ⟨.blockSequence, _, by rw [Node.tokens]; rfl, rfl, by decide, nofun⟩
      | true =>
        exact ⟨.blockEntry, _, by rw [Node.tokens, if_pos rfl, Node.itemTokens]; rfl, rfl,
          by decide, fun _ => rfl⟩
  | @mapping settings =>
    cases settings with
    | nil =>
      exact ⟨.flowMapping, _, by rw [Node.named, List.map_nil, Node.tokens], rfl, by decide, nofun⟩
    | cons s settings =>
      exact ⟨.blockMapping, _, by rw [Node.named, List.map_cons, Node.tokens]; rfl, rfl, by decide,
        nofun⟩

/-- The node does not begin with one of the tokens. -/
def Opens (n : Node) (belowKey : Bool) (ends : List Token) : Prop :=
  ∃ t ts, n.tokens belowKey = t :: ts ∧ t ∉ ends

theorem opens_value (hn : n.Written) : Opens n true [.key, .value, .blockEnd] := by
  obtain ⟨t, ts, htokens, -, ht, -⟩ := exists_tokens_eq hn true
  exact ⟨t, ts, htokens, ht⟩

theorem opens_item (hn : n.Written) (ends : List Token)
    (hends : ends ⊆ [.blockEntry, .key, .value, .blockEnd]) :
    Opens n false ends := by
  obtain ⟨t, ts, htokens, -, ht, hentry⟩ := exists_tokens_eq hn false
  refine ⟨t, ts, htokens, fun hmem => ?_⟩
  rcases List.mem_cons.mp (hends hmem) with rfl | hend
  · cases hentry rfl
  · exact ht hend

theorem Composes.nodeUnless (hc : Composes n) (hopens : Opens n belowKey ends) (rest : List Token)
    (fuel : Nat) (hrest : belowKey = true → rest.head? ≠ some .blockEntry)
    (hfuel : 3 * (n.tokens belowKey).length + 3 ≤ fuel) (c : Composer) (k : Nat) :
    ∃ k', nodeUnless ends true belowKey fuel (c.withTokens (n.tokens belowKey ++ rest) k) =
      some (n, c.withTokens rest k') := by
  obtain ⟨fuel, rfl⟩ : ∃ f, fuel = f + 1 := ⟨fuel - 1, by omega⟩
  have hsees : seesAny (c.withTokens (n.tokens belowKey ++ rest) k) ends = false := by
    obtain ⟨t, ts, htokens, ht⟩ := hopens
    simpa [seesAny, withTokens, htokens] using ht
  rw [Composer.nodeUnless, hsees]
  exact hc belowKey rest fuel c k hrest (by omega)

theorem composes_scalar (style : ScalarStyle) (text : String) :
    Composes (.scalar style none text) := by
  intro belowKey rest fuel c k hrest hfuel
  obtain ⟨fuel, rfl⟩ : ∃ f, fuel = f + 1 := ⟨fuel - 1, by omega⟩
  rw [Node.tokens, List.singleton_append, node_scalar]
  exact ⟨_, rfl⟩

/-! ### Lists -/

theorem indentlessItems_tokens (hitems : ∀ item ∈ items, Composes item ∧ item.Written)
    (hrest : rest.head? ≠ some .blockEntry) (fuel : Nat)
    (hfuel : 3 * (Node.itemTokens items).length + 1 ≤ fuel) (c : Composer) (k : Nat) :
    ∃ k', indentlessItems fuel (c.withTokens (Node.itemTokens items ++ rest) k) =
      some (items, c.withTokens rest k') := by
  induction items generalizing fuel k with
  | nil =>
    obtain ⟨fuel, rfl⟩ : ∃ f, fuel = f + 1 := ⟨fuel - 1, by omega⟩
    refine ⟨k, ?_⟩
    rw [Node.itemTokens, List.nil_append, indentlessItems, sees_withTokens,
      if_neg (by simpa using hrest)]
  | cons item items ih =>
    obtain ⟨⟨hcomposes, hwritten⟩, hitems⟩ := List.forall_mem_cons.mp hitems
    simp only [Node.itemTokens, List.length_append, List.length_cons] at hfuel
    obtain ⟨fuel, rfl⟩ : ∃ f, fuel = f + 1 := ⟨fuel - 1, by omega⟩
    obtain ⟨k₁, hitem⟩ := hcomposes.nodeUnless
      (opens_item hwritten _ (List.Subset.refl _)) (Node.itemTokens items ++ rest) fuel nofun
      (by omega) c k
    obtain ⟨k₂, hlater⟩ := ih hitems fuel (by omega) k₁
    refine ⟨k₂, ?_⟩
    rw [Node.itemTokens, List.cons_append, List.cons_append, List.append_assoc, indentlessItems,
      sees_withTokens, if_pos (by simp), next_withTokens, hitem]
    simp only [Option.bind_eq_bind, Option.bind_some, hlater, Option.pure_def]

theorem blockItems_tokens (hitems : ∀ item ∈ items, Composes item ∧ item.Written)
    (rest : List Token) (fuel : Nat) (hfuel : 3 * (Node.itemTokens items).length + 1 ≤ fuel)
    (c : Composer) (k : Nat) :
    ∃ k', blockItems fuel (c.withTokens (Node.itemTokens items ++ .blockEnd :: rest) k) =
      some (items, c.withTokens rest k') := by
  induction items generalizing fuel k with
  | nil =>
    obtain ⟨fuel, rfl⟩ : ∃ f, fuel = f + 1 := ⟨fuel - 1, by omega⟩
    refine ⟨k, ?_⟩
    rw [Node.itemTokens, List.nil_append, blockItems, sees_withTokens, sees_withTokens,
      if_neg (by simp), if_pos (by simp), next_withTokens]
  | cons item items ih =>
    obtain ⟨⟨hcomposes, hwritten⟩, hitems⟩ := List.forall_mem_cons.mp hitems
    simp only [Node.itemTokens, List.length_append, List.length_cons] at hfuel
    obtain ⟨fuel, rfl⟩ : ∃ f, fuel = f + 1 := ⟨fuel - 1, by omega⟩
    obtain ⟨k₁, hitem⟩ := hcomposes.nodeUnless
      (opens_item hwritten [.blockEntry, .blockEnd] (by decide))
      (Node.itemTokens items ++ .blockEnd :: rest) fuel nofun (by omega) c k
    obtain ⟨k₂, hlater⟩ := ih hitems fuel (by omega) k₁
    refine ⟨k₂, ?_⟩
    rw [Node.itemTokens, List.cons_append, List.cons_append, List.append_assoc, blockItems,
      sees_withTokens, if_pos (by simp), next_withTokens, hitem]
    simp only [Option.bind_eq_bind, Option.bind_some, hlater, Option.pure_def]

theorem composes_sequence (hitems : ∀ item ∈ items, Composes item ∧ item.Written) :
    Composes (.sequence items) := by
  intro belowKey rest fuel c k hrest hfuel
  obtain ⟨fuel, rfl⟩ : ∃ f, fuel = f + 1 := ⟨fuel - 1, by omega⟩
  cases hcs : items with
  | nil =>
    obtain ⟨fuel, rfl⟩ : ∃ f, fuel = f + 1 := by
      subst hcs
      rw [Node.tokens] at hfuel
      exact ⟨fuel - 1, by simp at hfuel; omega⟩
    refine ⟨k + 1, ?_⟩
    rw [Node.tokens, List.cons_append, node_flowSequence, flowItems, sees_withTokens]
    rfl
  | cons item others =>
    rw [← hcs]
    cases belowKey with
    | true =>
      have htokens : (Node.sequence items).tokens true = Node.itemTokens items := by
        rw [hcs, Node.tokens, if_pos rfl]
      rw [htokens] at hfuel ⊢
      obtain ⟨k', h⟩ := indentlessItems_tokens hitems (hrest rfl) fuel (by omega) c (k + 1)
      refine ⟨k', ?_⟩
      rw [hcs, Node.itemTokens, List.cons_append, List.cons_append] at h ⊢
      rw [node_blockEntry, h, Option.bind_some]
    | false =>
      have htokens : (Node.sequence items).tokens false =
          .blockSequence :: (Node.itemTokens items ++ [.blockEnd]) := by
        rw [hcs, Node.tokens, if_neg (by decide), List.cons_append]
      rw [htokens] at hfuel ⊢
      simp only [List.length_append, List.length_cons] at hfuel
      obtain ⟨k', h⟩ := blockItems_tokens hitems rest fuel (by omega) c (k + 1)
      refine ⟨k', ?_⟩
      rw [List.cons_append, List.append_assoc, List.singleton_append, node_blockSequence, h,
        Option.bind_some]

/-! ### Mappings -/

theorem head?_entryTokens_ne (entries : List (Node × Node)) :
    (Node.entryTokens entries ++ .blockEnd :: rest).head? ≠ some .blockEntry := by
  rcases entries with - | ⟨⟨key, value⟩, entries⟩
  · simp [Node.entryTokens]
  · simp [Node.entryTokens]

theorem blockEntries_tokens (hvalues : ∀ s ∈ settings, Composes s.2 ∧ s.2.Written)
    (rest : List Token) (fuel : Nat)
    (hfuel : 3 * (Node.entryTokens (Node.named settings)).length + 1 ≤ fuel) (c : Composer)
    (k : Nat) :
    ∃ k', blockEntries fuel
        (c.withTokens (Node.entryTokens (Node.named settings) ++ .blockEnd :: rest) k) =
      some (Node.named settings, c.withTokens rest k') := by
  induction settings generalizing fuel k with
  | nil =>
    obtain ⟨fuel, rfl⟩ : ∃ f, fuel = f + 1 := ⟨fuel - 1, by omega⟩
    refine ⟨k, ?_⟩
    rw [Node.named, List.map_nil, Node.entryTokens, List.nil_append, blockEntries, sees_withTokens,
      sees_withTokens, if_neg (by simp), if_pos (by simp), next_withTokens]
  | cons s settings ih =>
    obtain ⟨name, value⟩ := s
    obtain ⟨⟨hcomposes, hwritten⟩, hvalues⟩ := List.forall_mem_cons.mp hvalues
    have htokens : Node.entryTokens (Node.named ((name, value) :: settings)) ++ .blockEnd :: rest =
        .key :: ((Node.plain name).tokens true ++ .value :: (value.tokens true ++
          (Node.entryTokens (Node.named settings) ++ .blockEnd :: rest))) := by
      rw [Node.named, List.map_cons, Node.entryTokens, ← Node.named]
      simp only [List.cons_append, List.append_assoc]
    have hlength : (Node.entryTokens (Node.named ((name, value) :: settings))).length =
        3 + (value.tokens true).length + (Node.entryTokens (Node.named settings)).length := by
      rw [Node.named, List.map_cons, Node.entryTokens, ← Node.named, Node.plain, Node.tokens]
      simp only [List.length_append, List.length_cons, List.length_nil]
      omega
    have hkey : (Node.plain name).tokens true = [.scalar .plain name] := by
      rw [Node.plain, Node.tokens]
    rw [hlength] at hfuel
    obtain ⟨fuel, rfl⟩ : ∃ f, fuel = f + 1 := ⟨fuel - 1, by omega⟩
    have hopens : Opens (Node.plain name) true [.key, .value, .blockEnd] := ⟨_, _, hkey, by simp⟩
    obtain ⟨k₁, hfirst⟩ := (composes_scalar .plain name).nodeUnless hopens
      (.value :: (value.tokens true ++
        (Node.entryTokens (Node.named settings) ++ .blockEnd :: rest)))
      fuel (by simp) (by rw [← Node.plain, hkey]; simp; omega) c k
    obtain ⟨k₂, hsecond⟩ := hcomposes.nodeUnless (opens_value hwritten)
      (Node.entryTokens (Node.named settings) ++ .blockEnd :: rest) fuel
      (fun _ => head?_entryTokens_ne _) (by dsimp only; omega) c k₁
    obtain ⟨k₃, hlater⟩ := ih hvalues fuel (by omega) k₂
    refine ⟨k₃, ?_⟩
    rw [htokens, blockEntries, sees_withTokens, if_pos (by simp), next_withTokens]
    simp only [Node.plain, hfirst, Option.bind_eq_bind, Option.bind_some, sees_withTokens,
      List.head?_cons, beq_self_eq_true, if_true, next_withTokens, hsecond, hlater, Option.pure_def]
    rfl

theorem composes_mapping (hvalues : ∀ s ∈ settings, Composes s.2 ∧ s.2.Written) :
    Composes (.mapping (Node.named settings)) := by
  intro belowKey rest fuel c k hrest hfuel
  obtain ⟨fuel, rfl⟩ : ∃ f, fuel = f + 1 := ⟨fuel - 1, by omega⟩
  cases hcs : settings with
  | nil =>
    obtain ⟨fuel, rfl⟩ : ∃ f, fuel = f + 1 := by
      subst hcs
      rw [Node.named, List.map_nil, Node.tokens] at hfuel
      exact ⟨fuel - 1, by simp at hfuel; omega⟩
    refine ⟨k + 1, ?_⟩
    rw [Node.named, List.map_nil, Node.tokens, List.cons_append, node_flowMapping, flowEntries,
      sees_withTokens]
    rfl
  | cons s others =>
    have htokens : (Node.mapping (Node.named settings)).tokens belowKey =
        .blockMapping :: (Node.entryTokens (Node.named settings) ++ [.blockEnd]) := by
      rw [hcs, Node.named, List.map_cons, Node.tokens, List.cons_append]
    rw [← hcs]
    rw [htokens] at hfuel ⊢
    simp only [List.length_append, List.length_cons] at hfuel
    obtain ⟨k', h⟩ := blockEntries_tokens hvalues rest fuel (by omega) c (k + 1)
    refine ⟨k', ?_⟩
    rw [List.cons_append, List.append_assoc, List.singleton_append, node_blockMapping, h,
      Option.bind_some]

/-! ### Documents -/

/-- **A written node is composed of its tokens.** -/
theorem composes_of_written (hn : n.Written) : Composes n := by
  induction hn with
  | scalar => exact composes_scalar _ _
  | sequence hitems ih => exact composes_sequence fun item hmem => ⟨ih item hmem, hitems item hmem⟩
  | mapping hnames hvalues ih =>
    exact composes_mapping fun s hmem => ⟨ih s hmem, hvalues s hmem⟩

/-- **The tokens of a written node are a document** with the node as its root. -/
theorem document_tokens (hn : n.Written) : document (n.tokens false) = some (⟨n, []⟩, []) := by
  obtain ⟨t, ts, htokens, houtside, -⟩ := exists_tokens_eq hn false
  obtain ⟨k, h⟩ := composes_of_written hn false [] (3 * (n.tokens false).length + 3)
    ⟨n.tokens false, standardHandles, [], [], 0⟩ 0 nofun (by omega)
  have hroot : node true false (3 * (n.tokens false).length + 3)
      ⟨n.tokens false, standardHandles, [], [], 0⟩ =
        some (n, ⟨[], standardHandles, [], [], k⟩) := by
    rw [List.append_nil] at h
    exact h
  rw [htokens] at hroot ⊢
  simp only [document, houtside, Bool.false_eq_true, if_false, hroot]
  simp

end ChainMigration.Yaml.Composer
