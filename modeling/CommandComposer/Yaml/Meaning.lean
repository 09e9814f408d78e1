import CommandComposer.Yaml.Node
import CommandComposer.Text.Form
/-!
# Meaning — what a scalar stands for

A plain scalar without a tag is nothing, a truth value, a whole number or a real number if it is written like one;
every other scalar is a text.  A tag of the standard set asks for one of these, and one that would be local but does
not encode a text is as good as none.  Whole numbers have 64 bits; one that
takes up to 128 has no meaning here, and a longer one in decimal digits is read as a real number.
-/
namespace CommandComposer
namespace Yaml

/-- What a scalar stands for. -/
inductive Meaning where
  | nothing
  | truth
  | natural (n : Nat)
  | negative
  | real
  | text (t : Text)
deriving DecidableEq, Repr

namespace Meaning

def isNothing (t : Text) : Bool := t = "null" ∨ t = "Null" ∨ t = "NULL" ∨ t = "~"

def isTruth (t : Text) : Bool :=
  t = "true" ∨ t = "True" ∨ t = "TRUE" ∨ t = "false" ∨ t = "False" ∨ t = "FALSE"

def digit? (base : Nat) (c : Char) : Option Nat := (hexValue? c).filter (· < base)

/-- The value of digits in a base, read on from `n`. -/
def digits? (base : Nat) : Nat → Text → Option Nat
  | n, [] => some n
  | n, c :: t => do digits? base (base * n + (← digit? base c)) t

def number? (base : Nat) (t : Text) : Option Nat := if t.isEmpty then none else digits? base 0 t

/-- Decimal digits with a zero in front that is not the number zero; they are text, and so they are behind a sign. -/
def isPadded (t : Text) : Bool :=
  let t :=
    match t with
    | '-' :: t => t
    | '+' :: t => t
    | t => t
  match t with
  | '0' :: d :: t => (d :: t).all Char.isDigit
  | _ => false

/-- The magnitude of a whole number behind its sign: in base sixteen, eight or two behind `0x`, `0o` and `0b`, else in
base ten. -/
def magnitude? (t : Text) : Option Nat :=
  match t with
  | '0' :: 'x' :: r => number? 16 r
  | '0' :: 'o' :: r => number? 8 r
  | '0' :: 'b' :: r => number? 2 r
  | t => if isPadded t then none else number? 10 t

/-- A whole number: whether it has a minus sign, and its magnitude. -/
def integer? : Text → Option (Bool × Nat)
  | '-' :: t => (magnitude? t).map (true, ·)
  | '+' :: t => (magnitude? t).map (false, ·)
  | t => (magnitude? t).map (false, ·)

/-- The least magnitude that a real number of 64 bits can not have. -/
def realLimit : Nat := Nat.pow 2 1024 - Nat.pow 2 970

/-- **Whether `digits` times ten to the power `exponent` is within the real numbers.** -/
def isFinite (digits : Nat) (exponent : Int) : Bool :=
  let places : Int := (Nat.toDigits 10 digits).length + exponent
  if digits = 0 || places ≤ 308 then true
  else if 310 ≤ places then false
  else if 0 ≤ exponent then digits * Nat.pow 10 exponent.toNat < realLimit
  else digits < realLimit * Nat.pow 10 (-exponent).toNat

/-- The exponent of a real number, if there is one. -/
def exponent? : Text → Option Int
  | [] => some 0
  | c :: t =>
    if c == 'e' || c == 'E' then
      match t with
      | '-' :: t => (number? 10 t).map fun n => -(n : Int)
      | '+' :: t => (number? 10 t).map Int.ofNat
      | t => (number? 10 t).map Int.ofNat
    else none

/-- Digits, with or without a point among them, and an exponent if there is one. -/
def isDecimal (t : Text) : Bool :=
  let whole := t.takeWhile Char.isDigit
  let rest := t.dropWhile Char.isDigit
  let (part, rest) :=
    match rest with
    | '.' :: r => (r.takeWhile Char.isDigit, r.dropWhile Char.isDigit)
    | r => ([], r)
  match number? 10 (whole ++ part), exponent? rest with
  | some digits, some exponent => isFinite digits (exponent - part.length)
  | _, _ => false

def isInfinity (t : Text) : Bool := t = ".inf" ∨ t = ".Inf" ∨ t = ".INF"

/-- **A real number.** -/
def isReal (t : Text) : Bool :=
  if t = ".nan" ∨ t = ".NaN" ∨ t = ".NAN" then true
  else
    match t with
    | '-' :: r => isInfinity r || isDecimal r
    | '+' :: r => isInfinity r || isDecimal r
    | r => isInfinity r || isDecimal r

def ofInteger (minus : Bool) (magnitude : Nat) : Option Meaning :=
  if minus then if magnitude ≤ Nat.pow 2 63 then some negative else none
  else if magnitude < Nat.pow 2 64 then some (natural magnitude)
  else none

def isWide (minus : Bool) (magnitude : Nat) : Bool :=
  if minus then magnitude ≤ Nat.pow 2 127 else magnitude < Nat.pow 2 128

/-- The whole number of a text, if it is one of at most 128 bits. -/
def wholeNumber? (t : Text) : Option (Bool × Nat) := (integer? t).filter fun (minus, n) => isWide minus n

/-- **The meaning of a plain scalar without a tag.** -/
def ofPlain (t : Text) : Option Meaning :=
  if t = [] ∨ isNothing t then some nothing
  else if isTruth t then some truth
  else
    match wholeNumber? t with
    | some (minus, n) => ofInteger minus n
    | none => some (if !isPadded t && isReal t then real else text t)

/-- **The meaning of a scalar**, if it has one. -/
def of (tag : Option Tag) (plain : Bool) (t : Text) : Option Meaning :=
  match tag with
  | none => if plain then ofPlain t else some (text t)
  | some tag =>
    if tag.isLocal then none
    else if tag = .standard "bool" then if isTruth t then some truth else none
    else if tag = .standard "int" then (wholeNumber? t).bind fun (minus, n) => ofInteger minus n
    else if tag = .standard "float" then if isReal t then some real else none
    else if tag = .standard "null" then if isNothing t then some nothing else none
    else if tag.isMarked && plain then ofPlain t
    else some (text t)

end Meaning
end Yaml
end CommandComposer
