import CommandComposer.Yaml.Scalar
import CommandComposer.Yaml.Tag
/-!
# Token — the marks and words of a YAML stream

Scanning turns a stream into tokens.  Indentation becomes tokens of its own: a block opens where a line stands further
right than the block around it and closes where one stands further left.  A key without a question mark is seen only
at its colon, so the scanner remembers where a key may have started, one place for each open collection, and puts the
key token in there.
-/
namespace CommandComposer
namespace Yaml

/-- The tokens of a stream. -/
inductive Token where
  | version (major minor : Nat)
  | tagHandle (handle : Text) (start : Tag)
  | documentStart
  | documentEnd
  | blockList
  | blockMap
  | blockEnd
  | listOpen
  | listClose
  | mapOpen
  | mapClose
  | entry
  | comma
  | key
  | value
  | alias (name : Text)
  | anchor (name : Text)
  | tag (handle : Text) (suffix : Tag)
  | scalar (plain : Bool) (text : Text)
deriving DecidableEq, Repr

/-- A place where a key may have started. -/
structure Candidate where
  required : Bool
  place : Nat
  offset : Nat
  line : Nat
  column : Nat

/-- **What a scanner knows**: where it stands, the tokens so far, the indentation of the open blocks, how many flow
collections are open, whether a key may start here, and the possible keys, innermost collection first. -/
structure Scanner where
  cursor : Cursor
  tokens : Array Token
  indent : Int
  outer : List Int
  flow : Nat
  keyAllowed : Bool
  candidates : List (Option Candidate)

namespace Scanner

def start (t : Text) : Scanner := ⟨.start t, #[], -1, [], 0, true, [none]⟩

def emit (s : Scanner) (t : Token) : Scanner := { s with tokens := s.tokens.push t }

/-- The cursor at the next token: behind spaces, comments and line breaks.  A tab is space only where no key may
start, and a byte order mark may stand at the start of a line. -/
def skipToToken : Nat → Scanner → Scanner
  | 0, s => s
  | n + 1, s =>
    let c := s.cursor
    match c.here with
    | none => s
    | some ch =>
      if ch == ' ' || (ch == '\t' && (s.flow != 0 || !s.keyAllowed)) || (ch == '\ufeff' && c.column == 0) then
        skipToToken n { s with cursor := c.next }
      else if ch == '#' then skipToToken n { s with cursor := c.skipWhile (fun d => !isBreak d) }
      else if isBreak ch then
        skipToToken n { s with cursor := c.newLine.2, keyAllowed := s.keyAllowed || s.flow == 0 }
      else s

/-- The candidate, unless it is too far behind the cursor: on an earlier line or more than 1024 bytes back.  A key
that has to be there may not be lost. -/
def keepFresh (c : Cursor) : Option Candidate → Option (Option Candidate)
  | none => some none
  | some k =>
    if k.line < c.line || k.offset + 1024 < c.offset then
      if k.required then none else some none
    else some (some k)

/-- The scanner without candidates that are too far behind. -/
def dropStale (s : Scanner) : Option Scanner := do
  return { s with candidates := ← s.candidates.mapM (keepFresh s.cursor) }

/-- The scanner without a candidate in the innermost collection. -/
def dropCandidate (s : Scanner) : Option Scanner :=
  match s.candidates with
  | some k :: rest => if k.required then none else some { s with candidates := none :: rest }
  | _ => some s

/-- A candidate at the cursor, if a key may start here. -/
def saveCandidate (s : Scanner) : Option Scanner :=
  if s.keyAllowed then do
    let s ← s.dropCandidate
    let k : Candidate :=
      { required := s.flow == 0 && s.indent == (s.cursor.column : Int), place := s.tokens.size,
        offset := s.cursor.offset, line := s.cursor.line, column := s.cursor.column }
    return { s with candidates := some k :: s.candidates.tail }
  else some s

/-- The blocks further right than `column` are closed. -/
def closeBlocks (column : Int) : Int → List Int → Array Token → Int × List Int × Array Token
  | indent, [], tokens => (indent, [], tokens)
  | indent, o :: outer, tokens =>
    if column < indent then closeBlocks column o outer (tokens.push .blockEnd) else (indent, o :: outer, tokens)

/-- The scanner with the blocks further right than `column` closed, outside flow collections. -/
def unroll (s : Scanner) (column : Int) : Scanner :=
  if s.flow != 0 then s
  else
    let (indent, outer, tokens) := closeBlocks column s.indent s.outer s.tokens
    { s with indent := indent, outer := outer, tokens := tokens }

/-- A block opened at `column`, if that is further right than the block around; its token goes to a place among the
tokens, or to their end. -/
def roll (s : Scanner) (column : Nat) (place : Option Nat) (t : Token) : Scanner :=
  if s.flow != 0 then s
  else if s.indent < (column : Int) then
    { s with
      indent := column, outer := s.indent :: s.outer,
      tokens := s.tokens.insertIdxIfInBounds (place.getD s.tokens.size) t }
  else s

/-- The token of the characters at the cursor, `width` of them. -/
def mark (s : Scanner) (width : Nat) (t : Token) : Scanner := { s.emit t with cursor := s.cursor.skip width }

def finish (s : Scanner) : Option Scanner := (s.unroll (-1)).dropCandidate

def documentMark (s : Scanner) (t : Token) : Option Scanner := do
  let s ← (s.unroll (-1)).dropCandidate
  return { s with keyAllowed := false }.mark 3 t

def openFlow (s : Scanner) (t : Token) : Option Scanner := do
  let s ← s.saveCandidate
  return { s with flow := s.flow + 1, candidates := none :: s.candidates, keyAllowed := true }.mark 1 t

def closeFlow (s : Scanner) (t : Token) : Option Scanner := do
  let s ← s.dropCandidate
  let s := if s.flow == 0 then s else { s with flow := s.flow - 1, candidates := s.candidates.tail }
  return { s with keyAllowed := false }.mark 1 t

def comma (s : Scanner) : Option Scanner := do
  return { ← s.dropCandidate with keyAllowed := true }.mark 1 .comma

def entry (s : Scanner) : Option Scanner := do
  let s ←
    if s.flow != 0 then some s
    else if s.keyAllowed then some (s.roll s.cursor.column none .blockList)
    else none
  return { ← s.dropCandidate with keyAllowed := true }.mark 1 .entry

def key (s : Scanner) : Option Scanner := do
  let s ←
    if s.flow != 0 then some s
    else if s.keyAllowed then some (s.roll s.cursor.column none .blockMap)
    else none
  return { ← s.dropCandidate with keyAllowed := s.flow == 0 }.mark 1 .key

/-- **The colon of a value**: if a key started in this collection, its token goes in front of what was read since. -/
def value (s : Scanner) : Option Scanner :=
  match s.candidates with
  | some k :: rest =>
    let s := { s with candidates := none :: rest, tokens := s.tokens.insertIdxIfInBounds k.place .key }
    some ({ s.roll k.column (some k.place) .blockMap with keyAllowed := false }.mark 1 .value)
  | _ =>
    if s.flow != 0 then some ({ s with keyAllowed := false }.mark 1 .value)
    else if s.keyAllowed then some ({ s.roll s.cursor.column none .blockMap with keyAllowed := true }.mark 1 .value)
    else none

/-- The name behind the mark of an anchor or an alias. -/
def name (s : Scanner) (t : Text → Token) : Option Scanner := do
  let s ← s.saveCandidate
  let (text, c) := s.cursor.next.takeWhile isNameChar
  let ends := endsWord c.here || c.here.any (fun ch => ch ∈ ['?', ':', ',', ']', '}', '%', '@', '\x60'])
  if text.isEmpty || !ends then none
  else some { s.emit (t text) with cursor := c, keyAllowed := false }

/-- The handle of a tag at an exclamation mark: it ends with a second mark, if there is one behind its letters. -/
def tagHandleAt (c : Cursor) : Text × Cursor :=
  let (letters, after) := c.next.takeWhile isNameChar
  if after.here == some '!' then ('!' :: letters ++ ['!'], after.next) else ('!' :: letters, after)

/-- **A tag**: verbatim between angle brackets, or a handle and a suffix; a lone exclamation mark has no handle. -/
def tag (s : Scanner) : Option Scanner := do
  let s ← s.saveCandidate
  let c := s.cursor
  let (t, c) ←
    if c.peek 1 == some '<' then do
      let (bytes, c) ← Tag.read? true (c.skip 2)
      if bytes.isEmpty || c.here != some '>' then none else some (Token.tag [] (Tag.upToZero bytes), c.next)
    else do
      let (handle, after) := tagHandleAt c
      let (bytes, c) ← Tag.read? false after
      if 2 ≤ handle.length && handle.getLast? == some '!' then
        if bytes.isEmpty then none else some (Token.tag handle (Tag.upToZero bytes), c)
      else
        let suffix := Tag.upToZero (Tag.ofText handle.tail ++ bytes)
        some (if suffix.isEmpty then Token.tag [] Tag.mark else Token.tag ['!'] suffix, c)
  if endsWord c.here || (s.flow != 0 && c.here == some ',') then
    some { s.emit t with cursor := c, keyAllowed := false }
  else none

/-- The number of a version, of at most nine digits. -/
def versionNumber (c : Cursor) : Option (Nat × Cursor) :=
  let (digits, c) := c.takeWhile Char.isDigit
  if digits.isEmpty || 9 < digits.length then none
  else some (digits.foldl (fun n d => 10 * n + (d.toNat - '0'.toNat)) 0, c)

/-- **A directive**: the version of the format, or the meaning of a tag handle. -/
def directive (s : Scanner) : Option Scanner := do
  let s ← (s.unroll (-1)).dropCandidate
  let (name, c) := s.cursor.next.takeWhile isNameChar
  if !endsWord c.here then none
  let (t, c) ←
    if name = "YAML" then do
      let (major, c) ← versionNumber (c.skipWhile isSpace)
      if c.here != some '.' then none
      let (minor, c) ← versionNumber c.next
      some (Token.version major minor, c)
    else if name = "TAG" then do
      let c := c.skipWhile isSpace
      if c.here != some '!' then none
      let (handle, c) := tagHandleAt c
      if handle != ['!'] && handle.getLast? != some '!' then none
      if !c.here.any isSpace then none
      let (bytes, c) ← Tag.read? true (c.skipWhile isSpace)
      if bytes.isEmpty || !endsWord c.here then none
      some (Token.tagHandle handle (Tag.upToZero bytes), c)
    else none
  let c := c.skipWhile isSpace
  let c := if c.here == some '#' then c.skipWhile (fun d => !isBreak d) else c
  if c.here.any (fun d => !isBreak d) then none
  some { s.emit t with cursor := if c.here.isSome then c.newLine.2 else c, keyAllowed := false }

def blockScalar (s : Scanner) (steps : Nat) (literal : Bool) : Option Scanner := do
  let s ← s.dropCandidate
  let (text, c) ← block steps literal s.indent s.cursor.next
  return { s.emit (.scalar false text) with cursor := c, keyAllowed := true }

def quotedScalar (s : Scanner) (steps : Nat) (double : Bool) : Option Scanner := do
  let s ← s.saveCandidate
  let (text, c) ← quoted steps double [] s.cursor.next
  return { s.emit (.scalar false text) with cursor := c, keyAllowed := false }

/-- A plain scalar; behind a line break a key may start again. -/
def plainScalar (s : Scanner) (steps : Nat) : Option Scanner := do
  let s ← s.saveCandidate
  let (text, lineEnded, c) ← plain steps (s.flow != 0) (s.indent + 1) [] Gap.none s.cursor
  return { s.emit (.scalar true text) with cursor := c, keyAllowed := lineEnded }

/-- Characters that start something else than a plain scalar. -/
def indicators : Text :=
  ['-', '?', ':', ',', '[', ']', '{', '}', '#', '&', '*', '!', '|', '>', '\'', '"', '%', '@', '\x60']

/-- Whether a plain scalar starts with `c` before `after`. -/
def startsPlain (inFlow : Bool) (c : Char) (after : Option Char) : Bool :=
  (!isGap c && !indicators.contains c) || (c == '-' && !after.any isSpace) ||
    (!inFlow && (c == '?' || c == ':') && !endsWord after)

/-- **The next token** at a character; `steps` is greater than the number of characters left. -/
def token (s : Scanner) (steps : Nat) (ch : Char) : Option Scanner :=
  let after := s.cursor.peek 1
  if s.cursor.column == 0 && ch == '%' then s.directive
  else if s.cursor.atMark ['-', '-', '-'] then s.documentMark .documentStart
  else if s.cursor.atMark ['.', '.', '.'] then s.documentMark .documentEnd
  else if ch == '[' then s.openFlow .listOpen
  else if ch == '{' then s.openFlow .mapOpen
  else if ch == ']' then s.closeFlow .listClose
  else if ch == '}' then s.closeFlow .mapClose
  else if ch == ',' then s.comma
  else if ch == '-' && endsWord after then s.entry
  else if ch == '?' && (s.flow != 0 || endsWord after) then s.key
  else if ch == ':' && (s.flow != 0 || endsWord after) then s.value
  else if ch == '*' then s.name .alias
  else if ch == '&' then s.name .anchor
  else if ch == '!' then s.tag
  else if ch == '|' && s.flow == 0 then s.blockScalar steps true
  else if ch == '>' && s.flow == 0 then s.blockScalar steps false
  else if ch == '\'' then s.quotedScalar steps false
  else if ch == '"' then s.quotedScalar steps true
  else if startsPlain (s.flow != 0) ch after then s.plainScalar steps
  else none

/-- The scanner at the end of its stream.  Each token takes a character at least, so the steps stay more than the
characters left. -/
def run : Nat → Scanner → Option Scanner
  | 0, _ => none
  | n + 1, s => do
    let s ← (s.skipToToken (n + 1)).dropStale
    match s.cursor.here with
    | none => s.finish
    | some ch => run n (← (s.unroll s.cursor.column).token (n + 1) ch)

end Scanner

/-- **The tokens of a stream**, if it is well formed as far as tokens go. -/
def tokens? (t : Text) : Option (List Token) :=
  if t.all isAllowed then (Scanner.run (t.length + 1) (.start t)).map (·.tokens.toList) else none

end Yaml
end CommandComposer
