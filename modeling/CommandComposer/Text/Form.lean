import CommandComposer.Text
/-!
# Form — numerals, positions, yes or no, and literals

A numeral is one or more of the digits 0–9.  It may carry zeros in front; its normal form carries none that it can do
without.  Reading a numeral stops at a limit: a value above it is no value, however many digits follow.

A coordinate is a whole number, or a tilde with or without one behind it: `12`, `-3`, `~`, `~5`, `~-5`.  A position
is three of them with white space between; how much of it, and whether there is any around, does not matter.  The
digits are kept as typed.

The words for true and false, yes and no, are read in any case and with white space around them.  A yes-or-no question
has a default, which an empty answer takes.

A literal stands between quotation marks.  The quotation mark, the backslash and the control characters below the
space are escaped, the common ones by a letter and the others by four hexadecimal digits; everything else stands for
itself, so a literal ends at its first mark that is not escaped.
-/
namespace CommandComposer

namespace Numeral

/-- **A numeral**: one or more digits and nothing else. -/
def isNumeral (t : Text) : Bool := !t.isEmpty && t.all Char.isDigit

def isInteger : Text → Bool
  | '-' :: t => isNumeral t
  | t => isNumeral t

def digit (c : Char) : Nat := c.toNat - '0'.toNat

/-- **The digits read on from `n`**, as long as the value stays within `limit`. -/
def readFrom (limit : Nat) : Nat → Text → Option Nat
  | n, [] => some n
  | n, c :: t =>
    if c.isDigit ∧ 10 * n + digit c ≤ limit then readFrom limit (10 * n + digit c) t else none

/-- The value of an optional plus sign and a numeral, if it is within `limit`. -/
def read? (limit : Nat) : Text → Option Nat
  | '+' :: c :: t => readFrom limit 0 (c :: t)
  | '+' :: [] => none
  | c :: t => readFrom limit 0 (c :: t)
  | [] => none

def word32 : Nat := 4294967295

def word64 : Nat := 18446744073709551615

/-- Bounds of a range, both inside it. -/
structure Bounds where
  low : Nat
  high : Nat

def Bounds.holds (b : Bounds) (n : Nat) : Bool := decide (b.low ≤ n ∧ n ≤ b.high)

/-- **A numeral within bounds**: its value fits a 32-bit word and lies between them. -/
def isBounded (b : Bounds) (t : Text) : Bool :=
  isNumeral t && ((read? word32 t).map b.holds).getD false

/-- The text without zeros in front, or one zero if nothing is left. -/
def dropZeros (t : Text) : Text :=
  match t.dropWhile (· == '0') with
  | [] => ['0']
  | c :: r => c :: r

def ofNat (n : Nat) : Text := Nat.toDigits 10 n

end Numeral

/-- **A coordinate**: a whole number, a tilde, or a tilde followed by a whole number. -/
def isCoordinate : Text → Bool
  | ['~'] => true
  | '~' :: t => Numeral.isInteger t
  | t => Numeral.isInteger t

/-- Three coordinates, as they were typed. -/
structure Position where
  x : Text
  y : Text
  z : Text
  valid : isCoordinate x ∧ isCoordinate y ∧ isCoordinate z

namespace Position

/-- **The position a text gives**, if its words are three coordinates. -/
def read? (t : Text) : Option Position :=
  match t.words with
  | [x, y, z] => if h : isCoordinate x ∧ isCoordinate y ∧ isCoordinate z then some ⟨x, y, z, h⟩ else none
  | _ => none

/-- The coordinates with one space between each two. -/
def text (p : Position) : Text := Text.join " " [p.x, p.y, p.z]

end Position

namespace Consent

def truth? (t : Text) : Option Bool :=
  let word := Text.lower t.trim
  if word = "true" then some true
  else if word = "false" then some false
  else none

/-- `y`, `yes`, `n` or `no`; nothing at all is the default. -/
def yes? (default : Bool) (t : Text) : Option Bool :=
  let word := Text.lower t.trim
  if word = "" then some default
  else if word = "y" ∨ word = "yes" then some true
  else if word = "n" ∨ word = "no" then some false
  else none

def text (b : Bool) : Text := if b then "true" else "false"

end Consent

namespace Quoted

def hexDigit (n : Nat) : Char := Nat.digitChar n

/-- **How one character is written inside a literal.** -/
def encodeChar (c : Char) : Text :=
  if c = '"' then ['\\', '"']
  else if c = '\\' then ['\\', '\\']
  else if c = '\x08' then ['\\', 'b']
  else if c = '\x0c' then ['\\', 'f']
  else if c = '\n' then ['\\', 'n']
  else if c = '\r' then ['\\', 'r']
  else if c = '\t' then ['\\', 't']
  else if c.toNat < 0x20 then ['\\', 'u', '0', '0', hexDigit (c.toNat / 16), hexDigit (c.toNat % 16)]
  else [c]

def encode (t : Text) : Text := '"' :: t.flatMap encodeChar ++ ['"']

def encodeList (ts : List Text) : Text := '[' :: Text.join "," (ts.map encode) ++ [']']

end Quoted

end CommandComposer
