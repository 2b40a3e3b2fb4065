import LdapWire.Yaml.Token

/-!
# Nodes of a YAML document

A `Node` is what a document holds: a scalar, a sequence, a mapping or an alias of
another node. `Node.ofTokens` builds the only document of a list of tokens. Where
an entry has no key or no value, the node there is the empty plain scalar.
-/

set_option autoImplicit false

namespace LdapWire.Yaml

/-- A document or a part of it, with the number that an anchor gives it. -/
inductive Node where
  /-- The node of the given number once more. -/
  | alias (number : Nat)
  | scalar (anchor : Option Nat) (tag : Option String) (style : Style) (text : String)
  | sequence (anchor : Option Nat) (items : List Node)
  | mapping (anchor : Option Nat) (entries : List (Node × Node))

namespace Node

/-- The node where nothing is written. -/
def empty : Node := .scalar none none .plain ""

/-- Where a node stands. -/
inductive Place where
  | flow
  | block
  /-- As a key or a value of a block mapping, where a sequence may start in the
  column of the mapping itself. -/
  | entry
deriving DecidableEq

/-- What stands before a node. -/
structure Properties where
  anchor : Option Nat := none
  tag : Option String := none

/-- An anchor and a tag, in either order, and what follows them. -/
def Properties.take : List Token → Properties × List Token
  | .anchor number :: .tag name :: rest => ({ anchor := some number, tag := some name }, rest)
  | .tag name :: .anchor number :: rest => ({ anchor := some number, tag := some name }, rest)
  | .anchor number :: rest => ({ anchor := some number }, rest)
  | .tag name :: rest => ({ tag := some name }, rest)
  | all => ({}, all)

/-- A scalar with its properties. The exclamation mark alone says only that the
scalar has no other tag. -/
def Properties.scalar (properties : Properties) (style : Style) (text : String) : Node :=
  .scalar properties.anchor (properties.tag.filter (fun tag => tag != "!")) style text

def Properties.isPresent (properties : Properties) : Bool :=
  properties.anchor.isSome || properties.tag.isSome

/-- The node of which nothing but properties is written. -/
def Properties.bare (properties : Properties) (rest : List Token) : Option (Node × List Token) :=
  if properties.isPresent then some (properties.scalar .plain "", rest) else none

/-! ## Reading -/

mutual

/-- A node. The rounds bound the nesting and the number of entries. -/
def read : (rounds : Nat) → Place → List Token → Option (Node × List Token)
  | 0, _, _ => none
  | rounds + 1, place, all =>
      let (properties, content) := Properties.take all
      match content with
      | .alias number :: rest =>
          if properties.isPresent then properties.bare content else some (.alias number, rest)
      | .scalar style text :: rest => some (properties.scalar style text, rest)
      | .openList :: rest => do
          let (found, rest) ← flowItems rounds rest
          return (.sequence properties.anchor found, rest)
      | .openMap :: rest => do
          let (found, rest) ← flowEntries rounds rest
          return (.mapping properties.anchor found, rest)
      | .blockList :: rest =>
          if place = .flow then properties.bare content
          else do
            let (found, rest) ← blockItems rounds rest
            return (.sequence properties.anchor found, rest)
      | .blockMap :: rest =>
          if place = .flow then properties.bare content
          else do
            let (found, rest) ← blockEntries rounds rest
            return (.mapping properties.anchor found, rest)
      | .dash :: _ =>
          if place = .entry then do
            let (found, rest) ← entryItems rounds content
            return (.sequence properties.anchor found, rest)
          else properties.bare content
      | _ => properties.bare content

/-- A node, or the empty one where one of the given tokens comes next. -/
def readBefore : (rounds : Nat) → Place → (ends : List Token) → List Token →
    Option (Node × List Token)
  | 0, _, _, _ => none
  | rounds + 1, place, ends, all =>
      if all.head?.any (fun token => ends.contains token) then some (empty, all)
      else read rounds place all

/-- The value after a key, or the empty node where there is none. -/
def readValue : (rounds : Nat) → Place → (ends : List Token) → List Token →
    Option (Node × List Token)
  | 0, _, _, _ => none
  | rounds + 1, place, ends, .value :: rest => readBefore rounds place ends rest
  | _ + 1, _, _, all => some (empty, all)

/-- The items of a block sequence up to its end. -/
def blockItems : (rounds : Nat) → List Token → Option (List Node × List Token)
  | 0, _ => none
  | rounds + 1, .dash :: rest => do
      let (item, rest) ← readBefore rounds .block [.dash, .blockEnd] rest
      let (items, rest) ← blockItems rounds rest
      return (item :: items, rest)
  | _ + 1, .blockEnd :: rest => some ([], rest)
  | _ + 1, _ => none

/-- The items of a sequence in the column of the mapping around it, which ends
where no dash follows. -/
def entryItems : (rounds : Nat) → List Token → Option (List Node × List Token)
  | 0, _ => none
  | rounds + 1, .dash :: rest => do
      let (item, rest) ← readBefore rounds .block [.dash, .key, .value, .blockEnd] rest
      let (items, rest) ← entryItems rounds rest
      return (item :: items, rest)
  | _ + 1, all => some ([], all)

/-- The entries of a block mapping up to its end. -/
def blockEntries : (rounds : Nat) → List Token → Option (List (Node × Node) × List Token)
  | 0, _ => none
  | rounds + 1, .key :: rest => do
      let ends := [.key, .value, .blockEnd]
      let (key, rest) ← readBefore rounds .entry ends rest
      let (value, rest) ← readValue rounds .entry ends rest
      let (entries, rest) ← blockEntries rounds rest
      return ((key, value) :: entries, rest)
  | _ + 1, .blockEnd :: rest => some ([], rest)
  | _ + 1, _ => none

/-- The entries of a flow mapping up to its end. A node without the sign of a key
is a key without a value. -/
def flowEntries : (rounds : Nat) → List Token → Option (List (Node × Node) × List Token)
  | 0, _ => none
  | _ + 1, .closeMap :: rest => some ([], rest)
  | rounds + 1, all => do
      let (key, value, rest) ←
        match all with
        | .key :: rest => do
            let (key, rest) ← readBefore rounds .flow [.value, .comma, .closeMap] rest
            let (value, rest) ← readValue rounds .flow [.comma, .closeMap] rest
            pure (key, value, rest)
        | _ => do
            let (key, rest) ← read rounds .flow all
            pure (key, empty, rest)
      match rest with
      | .comma :: rest => do
          let (entries, rest) ← flowEntries rounds rest
          return ((key, value) :: entries, rest)
      | .closeMap :: rest => return ([(key, value)], rest)
      | _ => none

/-- The items of a flow sequence up to its end. An item with the sign of a key is
a mapping of one entry; where its key is missing the next token is passed over. -/
def flowItems : (rounds : Nat) → List Token → Option (List Node × List Token)
  | 0, _ => none
  | _ + 1, .closeList :: rest => some ([], rest)
  | rounds + 1, all => do
      let (item, rest) ←
        match all with
        | .key :: rest => do
            let missing := rest.head?.any (fun token =>
              [Token.value, .comma, .closeList].contains token)
            let (key, rest) ←
              if missing then pure (empty, rest.drop 1) else read rounds .flow rest
            let (value, rest) ← readValue rounds .flow [.comma, .closeList] rest
            pure (mapping none [(key, value)], rest)
        | _ => read rounds .flow all
      match rest with
      | .comma :: rest => do
          let (items, rest) ← flowItems rounds rest
          return (item :: items, rest)
      | .closeList :: rest => return ([item], rest)
      | _ => none

end

/-- The node of the only document in a list of tokens; without tokens there is
none. Directives ask for the mark of the document's start after them, and behind
the document only marks of its end may stand. -/
def ofTokens (tokens : List Token) : Option (Option Node) := do
  if tokens.isEmpty then return none
  let content := tokens.dropWhile (fun token => token == .directive)
  let directed := content.length != tokens.length
  let (node, rest) ←
    match content with
    | .documentStart :: rest =>
        let bare := rest.head?.all (fun token =>
          [Token.directive, .documentStart, .documentEnd].contains token)
        if bare then pure (empty, rest) else read (3 * rest.length + 3) .block rest
    | _ => if directed then none else read (3 * tokens.length + 3) .block tokens
  if rest.all (fun token => token == .documentEnd) then return some node else none

/-! ## Anchors -/

mutual

/-- The nodes within a node that have a number, in the order of the text. -/
def anchored : Node → List (Nat × Node)
  | .alias _ => []
  | .scalar anchor tag style text => (anchor.map (·, .scalar anchor tag style text)).toList
  | .sequence anchor items =>
      (anchor.map (·, .sequence anchor items)).toList ++ anchoredItems items
  | .mapping anchor entries =>
      (anchor.map (·, .mapping anchor entries)).toList ++ anchoredEntries entries

def anchoredItems : List Node → List (Nat × Node)
  | [] => []
  | item :: items => anchored item ++ anchoredItems items

def anchoredEntries : List (Node × Node) → List (Nat × Node)
  | [] => []
  | (key, value) :: entries => anchored key ++ anchored value ++ anchoredEntries entries

end

end Node

end LdapWire.Yaml
