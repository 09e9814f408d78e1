import CommandComposer.Yaml.Cursor
/-!
# Tag — the names of types in a YAML stream

A tag is written in letters, digits and signs of which none is longer than a byte; any other byte is written as a
percent sign and two hexadecimal digits.  What is written so need not encode a text, so a tag is a list of bytes.  A
zero byte ends it.
-/
namespace CommandComposer
namespace Yaml

/-- **A tag**: its bytes. -/
abbrev Tag := List UInt8

namespace Tag

def ofText (t : Text) : Tag := t.toBytes

def mark : Tag := ofText ['!']

def standard (name : Text) : Tag := ofText ("tag:yaml.org,2002:" ++ name)

def upToZero (bytes : List UInt8) : Tag := bytes.takeWhile (· != 0)

def isMarked (tag : Tag) : Bool := mark.isPrefixOf tag

/-- **A tag that only the application could explain**: marked, and the bytes of a text. -/
def isLocal (tag : Tag) : Bool := tag.isMarked && (Text.ofBytes? tag).isSome

/-- How many bytes belong to a character behind its first one. -/
def further? (b : UInt8) : Option Nat :=
  if b < 0x80 then some 0
  else if b < 0xC0 then none
  else if b < 0xE0 then some 1
  else if b < 0xF0 then some 2
  else if b < 0xF8 then some 3
  else none

/-- **The bytes of what is written**, where `n` more bytes belong to the character before.  All bytes of a character
that is longer than one are written with percent signs. -/
def decode : Nat → Text → Option (List UInt8)
  | 0, [] => some []
  | _ + 1, [] => none
  | n, '%' :: a :: b :: t => do
    let byte := (16 * (← hexValue? a) + (← hexValue? b)).toUInt8
    match n with
    | 0 => return byte :: (← decode (← further? byte) t)
    | n + 1 => if 0x80 ≤ byte && byte < 0xC0 then return byte :: (← decode n t) else none
  | _, '%' :: _ => none
  | 0, c :: t => do return c.toNat.toUInt8 :: (← decode 0 t)
  | _ + 1, _ :: _ => none

/-- The characters a tag is written in; in a verbatim one also the comma and the brackets. -/
def isWritten (verbatim : Bool) (c : Char) : Bool :=
  isNameChar c || c ∈ [';', '/', '?', ':', '@', '&', '=', '+', '$', '.', '!', '~', '*', '\'', '(', ')', '%'] ||
    (verbatim && c ∈ [',', '[', ']'])

/-- The bytes of the tag that is written at the cursor. -/
def read? (verbatim : Bool) (c : Cursor) : Option (List UInt8 × Cursor) := do
  let (t, c) := c.takeWhile (isWritten verbatim)
  return (← decode 0 t, c)

end Tag
end Yaml
end CommandComposer
