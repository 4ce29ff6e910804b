import ChainMigration.Yaml.Scanner

/-! # The nodes of a document

Tokens become the tree of nodes that they stand for. A text holds exactly one document. -/

namespace ChainMigration.Yaml

/-- The state between two nodes: the tokens left, the known tag handles, the number of each anchor
name, and the numbered nodes with the number of nodes that began before them. -/
structure Composer where
  tokens : List Token
  handles : List (String × String)
  names : List (String × Nat)
  anchored : List (Nat × Nat × Node)
  begun : Nat

namespace Composer

/-- Passes one token. -/
def next (c : Composer) : Composer := { c with tokens := c.tokens.drop 1 }

/-- The next token is the given one. -/
def sees (c : Composer) (t : Token) : Bool := c.tokens.head? == some t

/-- The next token is one of the given ones. -/
def seesAny (c : Composer) (ts : List Token) : Bool := c.tokens.head?.any ts.contains

/-- Passes the anchor in front, if there is one. -/
def takeAnchor (c : Composer) : Option String × Composer :=
  match c.tokens with
  | .anchor name :: _ => (some name, c.next)
  | _ => (none, c)

/-- Passes the tag in front, if there is one, and writes it out. -/
def takeTag (c : Composer) : Option (Option String × Composer) :=
  match c.tokens with
  | .tag "" suffix :: _ => some (some suffix, c.next)
  | .tag handle suffix :: _ => do return (some ((← c.handles.lookup handle) ++ suffix), c.next)
  | _ => some (none, c)

/-- Passes the anchor and the tag in front, in either order. -/
def takeMarks (c : Composer) : Option (Option String × Option String × Composer) := do
  match c.tokens with
  | .anchor _ :: _ =>
    let (anchor, c) := c.takeAnchor
    let (tag, c) ← c.takeTag
    return (anchor, tag, c)
  | _ =>
    let (tag, c) ← c.takeTag
    let (anchor, c) := if tag.isSome then c.takeAnchor else (none, c)
    return (anchor, tag, c)

/-- Begins a node: an anchor is given the number of names known so far. -/
def beginNode (c : Composer) (anchor : Option String) : Composer :=
  match anchor with
  | none => { c with begun := c.begun + 1 }
  | some name =>
    { c with
      begun := c.begun + 1
      names := (name, c.names.length) :: c.names.filter (·.1 != name) }

/-- Ends the node that began as the given one, and keeps it if it has an anchor. -/
def endNode (c : Composer) (began : Composer) (anchor : Option String) (node : Node) :
    Node × Composer :=
  match anchor with
  | none => (node, c)
  | some _ => (node, { c with anchored := (began.names.length, began.begun, node) :: c.anchored })

mutual

/-- Reads a node. Outside of brackets blocks may begin; below a key, items may stand that are not
indented. -/
def node (block indentless : Bool) : (fuel : Nat) → Composer → Option (Node × Composer)
  | 0, _ => none
  | fuel + 1, c =>
    match c.tokens with
    | .alias name :: _ => do return (.alias (← c.names.lookup name), c.next)
    | _ => do
      let (anchor, tag, began) ← c.takeMarks
      let c := began.beginNode anchor
      let finish (node : Node) (c : Composer) := some (c.endNode began anchor node)
      match c.tokens with
      | .scalar style text :: _ =>
        finish (.scalar style (if tag = some "!" then none else tag) text) c.next
      | .flowSequence :: _ => do
        let (items, c) ← flowItems true fuel c.next
        finish (.sequence items) c
      | .flowMapping :: _ => do
        let (entries, c) ← flowEntries true fuel c.next
        finish (.mapping entries) c
      | t :: _ =>
        if t = .blockEntry ∧ indentless then do
          let (items, c) ← indentlessItems fuel c
          finish (.sequence items) c
        else if t = .blockSequence ∧ block then do
          let (items, c) ← blockItems fuel c.next
          finish (.sequence items) c
        else if t = .blockMapping ∧ block then do
          let (entries, c) ← blockEntries fuel c.next
          finish (.mapping entries) c
        else if anchor.isSome ∨ tag.isSome then finish (.scalar .plain tag "") c
        else none
      | [] => if anchor.isSome ∨ tag.isSome then finish (.scalar .plain tag "") c else none

/-- Reads a node, or the empty node before one of the given tokens. -/
def nodeUnless (ends : List Token) (block indentless : Bool) :
    (fuel : Nat) → Composer → Option (Node × Composer)
  | 0, _ => none
  | fuel + 1, c => if c.seesAny ends then some (.empty, c) else node block indentless fuel c

/-- Reads the items of an indented sequence and its end. -/
def blockItems : (fuel : Nat) → Composer → Option (List Node × Composer)
  | 0, _ => none
  | fuel + 1, c =>
    if c.sees .blockEntry then do
      let (item, c) ← nodeUnless [.blockEntry, .blockEnd] true false fuel c.next
      let (items, c) ← blockItems fuel c
      return (item :: items, c)
    else if c.sees .blockEnd then some ([], c.next)
    else none

/-- Reads the items of a sequence that is not indented. -/
def indentlessItems : (fuel : Nat) → Composer → Option (List Node × Composer)
  | 0, _ => none
  | fuel + 1, c =>
    if c.sees .blockEntry then do
      let (item, c) ← nodeUnless [.blockEntry, .key, .value, .blockEnd] true false fuel c.next
      let (items, c) ← indentlessItems fuel c
      return (item :: items, c)
    else some ([], c)

/-- Reads the entries of an indented mapping and its end. -/
def blockEntries : (fuel : Nat) → Composer → Option (List (Node × Node) × Composer)
  | 0, _ => none
  | fuel + 1, c =>
    if c.sees .key then do
      let ends : List Token := [.key, .value, .blockEnd]
      let (key, c) ← nodeUnless ends true true fuel c.next
      let (value, c) ←
        if c.sees .value then nodeUnless ends true true fuel c.next else some (.empty, c)
      let (entries, c) ← blockEntries fuel c
      return ((key, value) :: entries, c)
    else if c.sees .blockEnd then some ([], c.next)
    else none

/-- Reads the items of a sequence in brackets and the closing bracket. -/
def flowItems (first : Bool) : (fuel : Nat) → Composer → Option (List Node × Composer)
  | 0, _ => none
  | fuel + 1, c =>
    if c.sees .flowSequenceEnd then some ([], c.next)
    else do
      let c ← if first then some c else if c.sees .flowEntry then some c.next else none
      if c.sees .flowSequenceEnd then return ([], c.next)
      let (item, c) ← if c.sees .key then pair fuel c.next else node false false fuel c
      let (items, c) ← flowItems false fuel c
      return (item :: items, c)

/-- Reads a single entry that stands as an item of a sequence in brackets. -/
def pair : (fuel : Nat) → Composer → Option (Node × Composer)
  | 0, _ => none
  | fuel + 1, c => do
    let began := c.beginNode none
    let (key, c) ←
      if c.seesAny [.value, .flowEntry, .flowSequenceEnd] then some (.empty, began.next)
      else node false false fuel began
    let (value, c) ←
      if c.sees .value then nodeUnless [.flowEntry, .flowSequenceEnd] false false fuel c.next
      else some (.empty, c)
    return (.mapping [(key, value)], c)

/-- Reads the entries of a mapping in braces and the closing brace. -/
def flowEntries (first : Bool) :
    (fuel : Nat) → Composer → Option (List (Node × Node) × Composer)
  | 0, _ => none
  | fuel + 1, c =>
    if c.sees .flowMappingEnd then some ([], c.next)
    else do
      let c ← if first then some c else if c.sees .flowEntry then some c.next else none
      if c.sees .flowMappingEnd then return ([], c.next)
      let ends : List Token := [.flowEntry, .flowMappingEnd]
      let ((key, value), c) ←
        if c.sees .key then do
          let (key, c) ← nodeUnless (.value :: ends) false false fuel c.next
          let (value, c) ←
            if c.sees .value then nodeUnless ends false false fuel c.next else some (.empty, c)
          pure ((key, value), c)
        else do
          let (key, c) ← node false false fuel c
          pure ((key, Node.empty), c)
      let (entries, c) ← flowEntries false fuel c
      return ((key, value) :: entries, c)

end

/-- The handles that every document knows. -/
def standardHandles : List (String × String) := [("!", "!"), ("!!", "tag:yaml.org,2002:")]

/-- Takes the directives in front of a document: at most one version, which must be known, and each
handle once. -/
def directives (versioned : Bool) (handles : List (String × String)) :
    List Token → Option (List (String × String) × List Token)
  | .version major minor :: ts =>
    if versioned ∨ major ≠ 1 ∨ (minor ≠ 1 ∧ minor ≠ 2) then none else directives true handles ts
  | .handle name start :: ts =>
    if (handles.lookup name).isSome then none
    else directives versioned ((name, start) :: handles) ts
  | ts => some (handles, ts)

/-- The token stands in front of a document and not in one. -/
def isOutside : Token → Bool
  | .version _ _ | .handle _ _ | .documentStart => true
  | _ => false

/-- The document of the tokens, with the tokens after it. -/
def document (tokens : List Token) : Option (Document × List Token) := do
  let begin (handles : List (String × String)) (tokens : List Token) : Composer :=
    ⟨tokens, handles, [], [], 0⟩
  let fuel := 3 * tokens.length + 3
  let (root, c) ← match tokens with
    | [] => none
    | t :: _ =>
      if isOutside t then do
        let (own, rest) ← directives false [] tokens
        if rest.head? ≠ some .documentStart then none
        let c := begin (own ++ standardHandles) (rest.drop 1)
        if c.tokens.head?.all fun t => isOutside t || t == .documentEnd then pure (Node.empty, c)
        else node true false fuel c
      else node true false fuel (begin standardHandles tokens)
  let latestFirst := c.anchored.mergeSort fun a b => b.2.1 ≤ a.2.1
  return (⟨root, latestFirst.map fun (number, _, node) => (number, node)⟩, c.tokens)

end Composer

/-- The single document of a text. -/
def Document.ofChars? (cs : List Char) : Option Document := do
  let (d, rest) ← Composer.document (← Token.ofChars? cs)
  if rest.all (· == .documentEnd) then some d else none

end ChainMigration.Yaml
