import CommandComposer.Text
/-!
# Subsequence — how well a pattern fits into a text

A pattern matches a text that holds its characters in order, with any others between.  A match scores more where it
continues a run, starts a word or follows a separator, and less for every gap.  Letters match in any case unless the
pattern has a capital letter.

The table has one row per pattern character and one column per text character, and only two rows are kept: a new row
is written over the one before the last, from the first column where its character can stand.  Columns left of that
keep what they held, and a row may look there, so the old values are part of the result.
-/
namespace CommandComposer
namespace Ranking
namespace Subsequence

/-- What a text character is, for the weight of a match beside it. -/
inductive CharKind where
  | empty
  | hardSeparator
  | softSeparator
  | number
  | upper
  | lower
deriving DecidableEq, Repr

def hardSeparators : Text := [' ', '/', '\\', '|', '(', ')', '[', ']', '{', '}']

def softSeparators : Text :=
  ['!', '"', '#', '$', '%', '&', '\'', '*', '+', ',', '-', '.', ':', ';', '<', '=', '>', '?', '@', '^', '_', '\x60',
    '~']

/-- The kind of a character; all that is no separator, digit or capital letter counts as small. -/
def CharKind.of (c : Char) : CharKind :=
  if c = '\x00' then .empty
  else if c ∈ hardSeparators then .hardSeparator
  else if c ∈ softSeparators then .softSeparator
  else if c.isDigit then .number
  else if c.isUpper then .upper
  else .lower

/-- **What a match gains from its place**: most after nothing or a hard separator, less after a soft one, and something
where a capital letter follows a small one or a digit. -/
def placeBonus (before here : CharKind) : Int :=
  match before, here with
  | .empty, _ | .hardSeparator, _ => 8
  | .softSeparator, _ => 7
  | .lower, .upper | .number, .upper => 6
  | _, _ => 0

/-- The place bonus of every character, given the kind of what stands before. -/
def placeBonuses (before : CharKind) : Text → List Int
  | [] => []
  | c :: t => placeBonus before (.of c) :: placeBonuses (.of c) t

/-- The place bonuses of a text; the first one counts twice. -/
def bonuses (t : Text) : List Int :=
  match placeBonuses .empty t with
  | [] => []
  | b :: bs => 2 * b :: bs

def charsMatch (exact : Bool) (a b : Char) : Bool :=
  if exact then a == b else a.toLower == b.toLower

/-- **The leftmost columns**: for each pattern character the first text character that it can stand on after the
one before it, or nothing if the text does not hold the pattern. -/
def leftmost (exact : Bool) : Nat → Text → Text → Option (List Nat)
  | _, _, [] => some []
  | _, [], _ :: _ => none
  | column, c :: t, p :: ps =>
    if charsMatch exact c p then (leftmost exact (column + 1) t ps).map (column :: ·)
    else leftmost exact (column + 1) t (p :: ps)

/-- One cell: the best score of a match that ends here, the best score of one that ended before, and the bonus that a
run reaching this far carries on. -/
structure Cell where
  ends : Int
  passed : Int
  run : Int

def unreached : Int := -32768

def Cell.blank : Cell := ⟨unreached, unreached, 0⟩

/-- A cell of the top row: nothing is matched yet, and a gap in front costs a little. -/
def Cell.top : Cell := ⟨unreached, -1, 0⟩

/-- A text character with its place bonus. -/
structure Column where
  char : Char
  bonus : Int

/-- **One column of a row**: the new cell, and the cell on its left, which keeps the bonus of the run that a match here
extends.  `above` is the left neighbour in the row before, `old` what the new cell held. -/
def step (exact : Bool) (p : Char) (column : Column) (left above old : Cell) : Cell × Cell :=
  let passed := max (left.ends - 4) (left.passed - 1)
  if charsMatch exact column.char p then
    let gain : Int := if column.char = p then 16 else 14
    let run := max left.run (max column.bonus 4)
    ({ left with run := run },
      ⟨max (above.ends + run) (above.passed + column.bonus) + gain, passed, old.run⟩)
  else (left, ⟨unreached, passed, 0⟩)

/-- The cells from `left` on, written over the `old` ones. -/
def fill (exact : Bool) (p : Char) : Cell → List Column → List Cell → List Cell → List Cell
  | left, column :: columns, above :: aboves, old :: olds =>
    let (left, new) := step exact p column left above old
    left :: fill exact p new columns aboves olds
  | left, _, _, _ => [left]

/-- **A row over an old one**, from the first column where its character can stand. -/
def overwrite (exact : Bool) (p : Char) (first : Nat) (columns : List Column) (above old : List Cell) : List Cell :=
  match old.drop first with
  | [] => old
  | left :: olds => old.take first ++ fill exact p left (columns.drop first) (above.drop first) olds

/-- The last row: each pattern character overwrites the row before the last one. -/
def lastRow (exact : Bool) (columns : List Column) : Text → List Nat → List Cell → List Cell → List Cell
  | p :: ps, first :: firsts, above, old =>
    lastRow exact columns ps firsts (overwrite exact p first columns above old) above
  | _, _, above, _ => above

/-- The best score of a match that ends in one of the cells. -/
def best (cells : List Cell) : Int := cells.foldl (fun s c => max s c.ends) unreached

/-- **The score of a pattern in a text**, if the text holds it; the empty pattern scores nothing anywhere. -/
def score (pattern text : Text) : Option Int :=
  if pattern = [] then some 0
  else
    let exact := pattern.any Char.isUpper
    (leftmost exact 0 text pattern).map fun firsts =>
      let columns := List.zipWith Column.mk text (bonuses text)
      let top := List.replicate (text.length + 1) Cell.top
      let untouched := List.replicate (text.length + 1) Cell.blank
      best ((lastRow exact columns pattern firsts top untouched).drop (firsts.getLastD 0))

end Subsequence
end Ranking
end CommandComposer
