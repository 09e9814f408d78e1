import CommandComposer.Yaml.Cursor
/-!
# Scalar — the text of plain, quoted and block scalars

A scalar that goes over several lines is folded: one line break between words is a space, and each further one is
kept.  Each reader takes the cursor at the scalar and gives its text with the cursor behind it, or nothing if the
scalar is malformed.  The readers count down from a number of steps greater than the number of characters left, and
keep what they have read backwards until the scalar ends.
-/
namespace CommandComposer
namespace Yaml

/-- White space inside a scalar: the spaces before any line break, the first break and the others. -/
structure Gap where
  spaces : Text
  breaks : Option (Text × Text)

namespace Gap

def none : Gap := ⟨[], Option.none⟩

def joined : Gap := ⟨[], some ([], [])⟩

/-- One space or tab more; behind a line break it is dropped. -/
def addSpace (g : Gap) (c : Char) : Gap :=
  match g.breaks with
  | Option.none => { g with spaces := g.spaces ++ [c] }
  | some _ => g

def addBreak (g : Gap) (b : Text) : Gap :=
  match g.breaks with
  | Option.none => ⟨[], some (b, [])⟩
  | some (first, more) => ⟨[], some (first, more ++ b)⟩

def folded (g : Gap) : Text :=
  match g.breaks with
  | Option.none => g.spaces
  | some (['\n'], []) => [' ']
  | some (['\n'], more) => more
  | some (first, more) => first ++ more

def hasBreak (g : Gap) : Bool := g.breaks.isSome

/-- **The gap at the cursor.**  Behind a line break a tab may not stand left of column `margin`. -/
def read : Nat → Int → Gap → Cursor → Option (Gap × Cursor)
  | 0, _, g, c => some (g, c)
  | n + 1, margin, g, c =>
    match c.here with
    | Option.none => some (g, c)
    | some ch =>
      if isSpace ch then
        if g.hasBreak && decide ((c.column : Int) < margin) && ch == '\t' then Option.none
        else read n margin (g.addSpace ch) c.next
      else if isBreak ch then
        let (b, c) := c.newLine
        read n margin (g.addBreak b) c
      else some (g, c)

end Gap

/-- The characters that separate the entries of a flow collection or enclose it. -/
def isFlowChar (c : Char) : Bool := c == ',' || c == '[' || c == ']' || c == '{' || c == '}'

/-- **The run of a plain scalar**: up to a gap, a colon that ends a key, or a flow character in a flow collection; a
colon right before a flow character is malformed there. -/
def plainRun (inFlow : Bool) : Text → Option Text
  | [] => some []
  | c :: t =>
    if isGap c then some []
    else if c == ':' && endsWord t.head? then some []
    else if inFlow && c == ':' && (t.head?.any fun d => isFlowChar d || d == '?') then none
    else if inFlow && isFlowChar c then some []
    else (plainRun inFlow t).map (c :: ·)

/-- **A plain scalar**, from what was read of it backwards; also whether a line ended behind it. -/
def plain : Nat → Bool → Int → Text → Gap → Cursor → Option (Text × Bool × Cursor)
  | 0, _, _, _, _, _ => none
  | n + 1, inFlow, margin, before, gap, c =>
    if c.atDocumentMark || c.here == some '#' then some (before.reverse, gap.hasBreak, c)
    else do
      let run ← plainRun inFlow c.rest
      let (before, gap) := if run.isEmpty then (before, gap) else ((gap.folded ++ run).reverseAux before, Gap.none)
      let c := c.skip run.length
      match c.here with
      | some ch =>
        if isGap ch then
          let (gap, c) ← gap.read n margin c
          if !inFlow && decide ((c.column : Int) < margin) then some (before.reverse, gap.hasBreak, c)
          else plain n inFlow margin before gap c
        else some (before.reverse, gap.hasBreak, c)
      | none => some (before.reverse, gap.hasBreak, c)

/-- The value of hexadecimal digits, read on from `n`. -/
def hexNumber? : Nat → Text → Option Nat
  | n, [] => some n
  | n, c :: t => do hexNumber? (16 * n + (← hexValue? c)) t

def charOf? (n : Nat) : Option Char := if n.isValidChar then some (Char.ofNat n) else none

/-- **The character behind a backslash** in a double-quoted scalar, and how many characters its form takes. -/
def escapeOf? : Text → Option (Char × Nat)
  | [] => none
  | c :: t =>
    let code (k : Nat) : Option (Char × Nat) :=
      if k ≤ t.length then do
        let ch ← charOf? (← hexNumber? 0 (t.take k))
        some (ch, k + 1)
      else none
    match c with
    | '0' => some ('\x00', 1)
    | 'a' => some ('\x07', 1)
    | 'b' => some ('\x08', 1)
    | 't' => some ('\t', 1)
    | '\t' => some ('\t', 1)
    | 'n' => some ('\n', 1)
    | 'v' => some ('\x0b', 1)
    | 'f' => some ('\x0c', 1)
    | 'r' => some ('\r', 1)
    | 'e' => some ('\x1b', 1)
    | ' ' => some (' ', 1)
    | '"' => some ('"', 1)
    | '/' => some ('/', 1)
    | '\\' => some ('\\', 1)
    | 'N' => charOf? 0x85 |>.map (·, 1)
    | '_' => charOf? 0xA0 |>.map (·, 1)
    | 'L' => charOf? 0x2028 |>.map (·, 1)
    | 'P' => charOf? 0x2029 |>.map (·, 1)
    | 'x' => code 2
    | 'u' => code 4
    | 'U' => code 8
    | _ => none

/-- **A quoted scalar** behind its opening mark, from what was read of it backwards. -/
def quoted : Nat → Bool → Text → Cursor → Option (Text × Cursor)
  | 0, _, _, _ => none
  | n + 1, double, before, c =>
    if c.atDocumentMark then none
    else
      match c.rest with
      | [] => none
      | ch :: t =>
        if !double && ch == '\'' then
          if t.head? == some '\'' then quoted n double ('\'' :: before) (c.skip 2) else some (before.reverse, c.next)
        else if double && ch == '"' then some (before.reverse, c.next)
        else if double && ch == '\\' then
          if t.head?.any isBreak then do
            let (gap, c) ← Gap.joined.read n 0 c.next.newLine.2
            quoted n double (gap.folded.reverseAux before) c
          else do
            let (ch, k) ← escapeOf? t
            quoted n double (ch :: before) (c.skip (k + 1))
        else if isGap ch then do
          let (gap, c) ← Gap.none.read n 0 c
          quoted n double (gap.folded.reverseAux before) c
        else quoted n double (ch :: before) c.next

/-- The empty lines in front of a line of a block scalar, the widest column on them, and the cursor behind.  A tab may
not stand left of the scalar's column, if that is known. -/
def blankLines : Nat → Option Nat → Nat → Text → Cursor → Option (Text × Nat × Cursor)
  | 0, _, _, _, _ => none
  | n + 1, column, widest, breaks, c =>
    let inMargin (c : Cursor) : Bool := column.all fun k => decide (c.column < k)
    let spaces := c.rest.takeWhile (· == ' ')
    let width :=
      match column with
      | none => spaces.length
      | some k => min spaces.length (k - c.column)
    let c := c.skip width
    let widest := max widest c.column
    if inMargin c && c.here == some '\t' then none
    else if c.here.any isBreak then
      let (b, c) := c.newLine
      blankLines n column widest (breaks ++ b) c
    else some (breaks, widest, c)

/-- The lines of a block scalar at `column`, folded unless they are literal, from what was read backwards. -/
def blockLines : Nat → Bool → Nat → Text → Text → Text → Bool → Cursor → Option (Text × Text × Text × Cursor)
  | 0, _, _, _, _, _, _, _ => none
  | n + 1, literal, column, before, first, more, spaced, c =>
    if c.column == column && c.here.isSome then do
      let opensSpaced := c.here.any isSpace
      let between :=
        if !literal && first == ['\n'] && !spaced && !opensSpaced then
          if more.isEmpty then [' '] else more
        else first ++ more
      let (line, c) := c.takeWhile (fun ch => !isBreak ch)
      let (b, c) := c.newLine
      let (more, _, c) ← blankLines n (some column) 0 [] c
      blockLines n literal column ((between ++ line).reverseAux before) b more opensSpaced c
    else some (before.reverse, first, more, c)

/-- The signs behind the mark of a block scalar: what happens to the breaks at its end, and its indentation. -/
def blockHeader : Text → Option (Option Bool × Option Nat × Nat)
  | '0' :: _ => none
  | '+' :: '0' :: _ => none
  | '-' :: '0' :: _ => none
  | c :: d :: _ =>
    if c == '+' || c == '-' then
      if d.isDigit then some (some (c == '+'), some (d.toNat - '0'.toNat), 2) else some (some (c == '+'), none, 1)
    else if c.isDigit then
      if d == '+' || d == '-' then some (some (d == '+'), some (c.toNat - '0'.toNat), 2)
      else some (none, some (c.toNat - '0'.toNat), 1)
    else some (none, none, 0)
  | [c] =>
    if c == '+' || c == '-' then some (some (c == '+'), none, 1)
    else if c.isDigit then some (none, some (c.toNat - '0'.toNat), 1)
    else some (none, none, 0)
  | [] => some (none, none, 0)

/-- **A block scalar** behind its mark, in a block indented by `indent`. -/
def block (steps : Nat) (literal : Bool) (indent : Int) (c : Cursor) : Option (Text × Cursor) := do
  let (keep, step, width) ← blockHeader c.rest
  let c := (c.skip width).skipWhile isSpace
  let c := if c.here == some '#' then c.skipWhile (fun ch => !isBreak ch) else c
  let c ←
    match c.here with
    | none => some c
    | some ch => if isBreak ch then some c.newLine.2 else none
  let known := step.map fun k => (max indent 0).toNat + k
  let (breaks, widest, c) ← blankLines steps known 0 [] c
  let column := known.getD (max widest (max (indent + 1) 1).toNat)
  let (text, first, more, c) ← blockLines steps literal column [] [] breaks false c
  let text := if keep == some false then text else text ++ first
  some (if keep == some true then text ++ more else text, c)

end Yaml
end CommandComposer
