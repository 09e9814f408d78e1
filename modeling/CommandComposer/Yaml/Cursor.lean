import CommandComposer.Text
/-!
# Cursor — a place in a YAML stream

The character classes of the format, and a cursor that knows its line, its column in characters and its distance from
the start in bytes.  A line break is a line feed, a carriage return, both together, the next-line character or a line
or paragraph separator; the last two stand for themselves in a scalar, the others for a line feed.
-/
namespace CommandComposer
namespace Yaml

def isAllowed (c : Char) : Bool :=
  let n := c.toNat
  n == 0x09 || n == 0x0A || n == 0x0D || (0x20 ≤ n && n ≤ 0x7E) || n == 0x85 || (0xA0 ≤ n && n ≤ 0xD7FF) ||
    (0xE000 ≤ n && n ≤ 0xFFFD) || 0x10000 ≤ n

/-- A separator that keeps its own form in a scalar. -/
def isSeparator (c : Char) : Bool := c.toNat == 0x2028 || c.toNat == 0x2029

def isBreak (c : Char) : Bool := c == '\n' || c == '\r' || c.toNat == 0x85 || isSeparator c

def isSpace (c : Char) : Bool := c == ' ' || c == '\t'

def isGap (c : Char) : Bool := isSpace c || isBreak c

/-- The end of a word: a gap or the end of the stream. -/
def endsWord : Option Char → Bool
  | none => true
  | some c => isGap c

/-- The characters of names: letters, digits, the low line and the hyphen. -/
def isNameChar (c : Char) : Bool := c.isAlphanum || c == '_' || c == '-'

def hexValue? (c : Char) : Option Nat :=
  if c.isDigit then some (c.toNat - '0'.toNat)
  else if 'a' ≤ c ∧ c ≤ 'f' then some (c.toNat - 'a'.toNat + 10)
  else if 'A' ≤ c ∧ c ≤ 'F' then some (c.toNat - 'A'.toNat + 10)
  else none

/-- **A place in the stream**: what follows, how many bytes stand in front of it, and its line and column. -/
structure Cursor where
  rest : Text
  offset : Nat
  line : Nat
  column : Nat

namespace Cursor

def start (t : Text) : Cursor := ⟨t, 0, 0, 0⟩

def here (c : Cursor) : Option Char := c.rest.head?

def peek (c : Cursor) (k : Nat) : Option Char := c.rest[k]?

def next (c : Cursor) : Cursor :=
  match c.rest with
  | [] => c
  | ch :: t => ⟨t, c.offset + ch.utf8Size, c.line, c.column + 1⟩

def skip (c : Cursor) (n : Nat) : Cursor :=
  ⟨c.rest.drop n, c.offset + Text.byteLength (c.rest.take n), c.line, c.column + n⟩

/-- The characters that satisfy `p`, none of them a line break, and the cursor behind them. -/
def takeWhile (p : Char → Bool) (c : Cursor) : Text × Cursor :=
  let t := c.rest.takeWhile p
  (t, c.skip t.length)

/-- The cursor behind the characters that satisfy `p`, none of them a line break. -/
def skipWhile (p : Char → Bool) (c : Cursor) : Cursor := (c.takeWhile p).2

/-- The cursor behind a line break, and what the break stands for. -/
def newLine (c : Cursor) : Text × Cursor :=
  match c.rest with
  | [] => ([], c)
  | '\r' :: '\n' :: t => (['\n'], ⟨t, c.offset + 2, c.line + 1, 0⟩)
  | b :: t => (if isSeparator b then [b] else ['\n'], ⟨t, c.offset + b.utf8Size, c.line + 1, 0⟩)

/-- Whether a mark of three characters stands here as a word of its own at the start of a line. -/
def atMark (c : Cursor) (mark : Text) : Bool :=
  c.column == 0 && mark.isPrefixOf c.rest && endsWord (c.peek 3)

def atDocumentMark (c : Cursor) : Bool := c.atMark ['-', '-', '-'] || c.atMark ['.', '.', '.']

end Cursor
end Yaml
end CommandComposer
