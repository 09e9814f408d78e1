import CommandComposer.Yaml.Token
/-!
# Written — a YAML document as it stands

A document is one node: a scalar, a list or a map, each with its tag if it has one, or an alias for a node that an
anchor names.  Here an alias stays an alias.  It does not keep the anchor's name but its slot.  The slot of an anchor
is the number of different names used so far; so a name that is used a second time gets a new slot, and it shares that
slot with the next new name.  The readers count down from a number of steps; each step takes a token or goes one level
down.
-/
namespace CommandComposer
namespace Yaml

/-- **A node as it is written**; a scalar also knows whether it was plain. -/
inductive Written where
  | scalar (tag : Option Tag) (plain : Bool) (text : Text)
  | list (tag : Option Tag) (entries : List Written)
  | map (tag : Option Tag) (entries : List (Written × Written))
  | anchored (slot : Nat) (node : Written)
  | alias (slot : Nat)

def Written.nothing : Written := .scalar none true []

/-- What a tag handle stands for. -/
abbrev Handles := List (Text × Tag)

/-- What is left of the tokens, and the slots of the anchors' names. -/
structure Reading where
  rest : List Token
  slots : List (Text × Nat)

namespace Reading

def endsBlockEntry : List Token → Bool
  | .key :: _ | .value :: _ | .blockEnd :: _ => true
  | _ => false

/-- The tokens that stand in place of a key that is not written, behind a question mark in a flow collection. -/
def standsForKey (inList : Bool) : Token → Bool
  | .value | .comma => true
  | .listClose => inList
  | .mapClose => !inList
  | _ => false

def tagOf (handles : Handles) : Token → Option Tag
  | .tag [] suffix => some suffix
  | .tag handle suffix => (handles.lookup handle).map (· ++ suffix)
  | _ => none

/-- **The anchor and the tag in front of a node**, in either order. -/
def properties (handles : Handles) : List Token → Option (Option Text × Option Tag × List Token)
  | .anchor a :: .tag h t :: rest => do return (some a, some (← tagOf handles (.tag h t)), rest)
  | .tag h t :: .anchor a :: rest => do return (some a, some (← tagOf handles (.tag h t)), rest)
  | .anchor a :: rest => some (some a, none, rest)
  | .tag h t :: rest => do return (none, some (← tagOf handles (.tag h t)), rest)
  | rest => some (none, none, rest)

def enter (slots : List (Text × Nat)) (anchor : Text) : List (Text × Nat) :=
  (anchor, slots.length) :: slots.filter (·.1 != anchor)

mutual

/-- **A node**; `block` says whether a block collection may stand here, `flush` whether a list may stand here that is
not indented further than the map around it. -/
def node (handles : Handles) : Nat → Bool → Bool → Reading → Option (Written × Reading)
  | 0, _, _, _ => none
  | n + 1, block, flush, r =>
    match r.rest with
    | .alias a :: rest => do return (.alias (← r.slots.lookup a), { r with rest := rest })
    | tokens => do
      let (anchor, tag, rest) ← properties handles tokens
      match anchor with
      | none => content handles n block flush tag false ⟨rest, r.slots⟩
      | some a => do
        let (node, after) ← content handles n block flush tag true ⟨rest, enter r.slots a⟩
        return (.anchored r.slots.length node, after)

/-- The node behind its anchor and its tag; behind an anchor or a tag it need not be written. -/
def content (handles : Handles) : Nat → Bool → Bool → Option Tag → Bool → Reading → Option (Written × Reading)
  | 0, _, _, _, _, _ => none
  | n + 1, block, flush, tag, anchored, r =>
    match r.rest with
    | .scalar plain text :: rest => some (.scalar tag plain text, { r with rest := rest })
    | .listOpen :: rest => do
      let (entries, r) ← flowList handles n true { r with rest := rest }
      return (.list tag entries, r)
    | .mapOpen :: rest => do
      let (entries, r) ← flowMap handles n true { r with rest := rest }
      return (.map tag entries, r)
    | tokens => do
      let inBlock := if block then tokens else []
      match inBlock with
      | .blockList :: rest => do
        let (entries, r) ← blockList handles n { r with rest := rest }
        return (.list tag entries, r)
      | .blockMap :: rest => do
        let (entries, r) ← blockMap handles n { r with rest := rest }
        return (.map tag entries, r)
      | _ =>
        if flush && tokens.head? == some .entry then do
          let (entries, r) ← flushList handles n r
          return (.list tag entries, r)
        else if anchored || tag.isSome then some (.scalar tag true [], r)
        else none

def blockList (handles : Handles) : Nat → Reading → Option (List Written × Reading)
  | 0, _ => none
  | n + 1, r =>
    match r.rest with
    | .blockEnd :: rest => some ([], { r with rest := rest })
    | .entry :: rest => do
      let r := { r with rest := rest }
      let empty :=
        match rest with
        | .entry :: _ | .blockEnd :: _ => true
        | _ => false
      let (entry, r) ← if empty then some (.nothing, r) else node handles n true false r
      let (entries, r) ← blockList handles n r
      return (entry :: entries, r)
    | _ => none

/-- The entries of a list that stands flush with the map around it. -/
def flushList (handles : Handles) : Nat → Reading → Option (List Written × Reading)
  | 0, _ => none
  | n + 1, r =>
    match r.rest with
    | .entry :: rest => do
      let r := { r with rest := rest }
      let empty :=
        match rest with
        | .entry :: _ => true
        | rest => endsBlockEntry rest
      let (entry, r) ← if empty then some (.nothing, r) else node handles n true false r
      let (entries, r) ← flushList handles n r
      return (entry :: entries, r)
    | _ => some ([], r)

/-- The entries of a map in its own block; a key or a value that is not written is nothing. -/
def blockMap (handles : Handles) : Nat → Reading → Option (List (Written × Written) × Reading)
  | 0, _ => none
  | n + 1, r =>
    match r.rest with
    | .blockEnd :: rest => some ([], { r with rest := rest })
    | .key :: rest => do
      let r := { r with rest := rest }
      let (key, r) ← if endsBlockEntry rest then some (.nothing, r) else node handles n true true r
      let (value, r) ←
        match r.rest with
        | .value :: rest =>
          let r := { r with rest := rest }
          if endsBlockEntry rest then some (.nothing, r) else node handles n true true r
        | _ => some (.nothing, r)
      let (entries, r) ← blockMap handles n r
      return ((key, value) :: entries, r)
    | _ => none

/-- The value of an entry in a flow collection, if it has one. -/
def flowValue (handles : Handles) : Nat → Reading → Option (Written × Reading)
  | 0, _ => none
  | n + 1, r =>
    match r.rest with
    | .value :: rest =>
      let r := { r with rest := rest }
      match rest with
      | .comma :: _ | .listClose :: _ | .mapClose :: _ => some (.nothing, r)
      | _ => node handles n false false r
    | _ => some (.nothing, r)

/-- **An entry behind a question mark in a flow collection.**  Where a list has no key behind the mark, the token that
stands there counts as the key: it is taken away. -/
def flowPair (handles : Handles) : Nat → Bool → Reading → Option ((Written × Written) × Reading)
  | 0, _, _ => none
  | n + 1, inList, r => do
    let (key, r) ←
      match r.rest with
      | [] => none
      | t :: rest =>
        if standsForKey inList t then some (.nothing, if inList then { r with rest := rest } else r)
        else node handles n false false r
    let (value, r) ← flowValue handles n r
    return ((key, value), r)

/-- The entries of a flow list; behind the first one a comma stands in front of each. -/
def flowList (handles : Handles) : Nat → Bool → Reading → Option (List Written × Reading)
  | 0, _, _ => none
  | n + 1, first, r =>
    match first, r.rest with
    | _, .listClose :: rest => some ([], { r with rest := rest })
    | false, .comma :: .listClose :: rest => some ([], { r with rest := rest })
    | false, .comma :: rest => flowList handles n true { r with rest := rest }
    | false, _ => none
    | true, .key :: rest => do
      let (pair, r) ← flowPair handles n true { r with rest := rest }
      let (entries, r) ← flowList handles n false r
      return (.map none [pair] :: entries, r)
    | true, _ => do
      let (entry, r) ← node handles n false false r
      let (entries, r) ← flowList handles n false r
      return (entry :: entries, r)

def flowMap (handles : Handles) : Nat → Bool → Reading → Option (List (Written × Written) × Reading)
  | 0, _, _ => none
  | n + 1, first, r =>
    match first, r.rest with
    | _, .mapClose :: rest => some ([], { r with rest := rest })
    | false, .comma :: .mapClose :: rest => some ([], { r with rest := rest })
    | false, .comma :: rest => flowMap handles n true { r with rest := rest }
    | false, _ => none
    | true, .key :: rest => do
      let (pair, r) ← flowPair handles n false { r with rest := rest }
      let (entries, r) ← flowMap handles n false r
      return (pair :: entries, r)
    | true, _ => do
      let (key, r) ← node handles n false false r
      let (entries, r) ← flowMap handles n false r
      return ((key, .nothing) :: entries, r)

end

/-- The directives of a document: its version at most once, each tag handle at most once. -/
def directives : List Token → Bool → Handles → Option (Handles × List Token)
  | .version major minor :: rest, versioned, handles =>
    if versioned || major != 1 || (minor != 1 && minor != 2) then none else directives rest true handles
  | .tagHandle handle start :: rest, versioned, handles =>
    if (handles.lookup handle).isSome then none else directives rest versioned ((handle, start) :: handles)
  | rest, _, handles => some (handles, rest)

/-- What the handles stand for that no directive names. -/
def usualHandles : Handles := [(['!'], Tag.mark), (['!', '!'], Tag.standard [])]

def isOver (tokens : List Token) : Bool := tokens.all (· == .documentEnd)

/-- The node of the tokens behind the start of a document, if nothing follows the document. -/
def root (handles : Handles) (tokens : List Token) : Option Written := do
  let (root, r) ← node handles (4 * tokens.length + 4) true false ⟨tokens, []⟩
  if isOver r.rest then some root else none

/-- **The node of a stream** that holds exactly one document. -/
def document (tokens : List Token) : Option Written := do
  let (handles, rest) ← directives tokens false []
  let handles := handles ++ usualHandles
  match rest with
  | .documentStart :: [] => some .nothing
  | .documentStart :: .documentEnd :: rest => if isOver rest then some .nothing else none
  | .documentStart :: rest => root handles rest
  | rest => if rest.length < tokens.length then none else root handles rest

end Reading
end Yaml
end CommandComposer
