import CommandComposer.Error
/-!
# Template — text with places for values

A template is a list of pieces, each a literal text or the key of a value.  In its source a key stands between braces,
and a backslash before a brace or a backslash makes that character literal.  Rendering puts the values in as they are:
nothing in a value is read again.
-/
namespace CommandComposer

/-- Values by key; each key has at most one. -/
abbrev Values := List (Text × Text)

namespace Values

def get? (values : Values) (key : Text) : Option Text := values.lookup key

/-- The values with the key set; what it had before is forgotten. -/
def set (values : Values) (key value : Text) : Values := (key, value) :: values.filter (fun e => e.1 ≠ key)

end Values

/-- A literal text, or the place of a value. -/
inductive Piece where
  | text (literal : Text)
  | key (name : Text)
deriving DecidableEq, Repr

namespace Piece

def escaped (c : Char) : Text := if c = '\\' ∨ c = '{' ∨ c = '}' then ['\\', c] else [c]

def source : Piece → Text
  | .text t => t.flatMap escaped
  | .key name => '{' :: name ++ ['}']

def fill (values : Values) : Piece → Except Error Text
  | .text t => .ok t
  | .key name =>
    match values.get? name with
    | some value => .ok value
    | none => .error (.missingValue name)

end Piece

/-- A template is its pieces in order. -/
abbrev Template := List Piece

namespace Template

/-- One literal character in front; it joins the literal text there. -/
def push (c : Char) : Template → Template
  | .text t :: rest => .text (c :: t) :: rest
  | rest => .text [c] :: rest

/-- Where a reader stands: in literal text, behind a backslash, or in a key with what it has of it so far. -/
inductive Place where
  | literal
  | escape (start : Nat)
  | key (start : Nat) (name : Text)

def keyOf (source : Text) (start : Nat) (name : Text) : Except Error Text :=
  let before := name.takeWhile (· ≠ '\\')
  if '\\' ∈ name then .error (.malformedTemplate .escapeInKey start (2 + Text.byteLength before) source)
  else if name.allBlank then .error (.malformedTemplate .emptyKey start (Text.byteLength name + 2) source)
  else .ok name.trim

/-- **Reading on** from a place, `offset` bytes into the source. -/
def readFrom (source : Text) : Place → Nat → Text → Except Error Template
  | .literal, _, [] => .ok []
  | .escape start, _, [] => .error (.malformedTemplate .badEscape start 2 source)
  | .key start _, offset, [] => .error (.malformedTemplate .strayBrace start (offset - start + 1) source)
  | .literal, offset, c :: t =>
    if c = '\\' then readFrom source (.escape offset) (offset + 1) t
    else if c = '{' then readFrom source (.key offset []) (offset + 1) t
    else if c = '}' then .error (.malformedTemplate .strayBrace offset 1 source)
    else (readFrom source .literal (offset + c.utf8Size) t).map (push c)
  | .escape start, offset, c :: t =>
    if c = '\\' ∨ c = '{' ∨ c = '}' then (readFrom source .literal (offset + 1) t).map (push c)
    else .error (.malformedTemplate .badEscape start 2 source)
  | .key start name, offset, c :: t =>
    if c = '}' then do
      let name ← keyOf source start name
      let rest ← readFrom source .literal (offset + 1) t
      return .key name :: rest
    else readFrom source (.key start (name ++ [c])) (offset + c.utf8Size) t

/-- **The template of a source**, or the first flaw in it. -/
def read (source : Text) : Except Error Template := readFrom source .literal 0 source

/-- **The source of a template.** -/
def source (template : Template) : Text := template.flatMap Piece.source

def keys (template : Template) : List Text :=
  template.filterMap fun
    | .text _ => none
    | .key name => some name

/-- **The template with its values**, or the first key that has none. -/
def render (values : Values) : Template → Except Error Text
  | [] => .ok []
  | piece :: rest => do
    let text ← piece.fill values
    let more ← render values rest
    return text ++ more

end Template
end CommandComposer
