/-!
# Text — what is typed and what is written

A text is the list of its characters, so that every reading and writing rule is a recursion on a list.  A literal
stands for its characters.  Here are the operations that no single format owns: cutting a text at chosen characters,
dropping its end, joining parts, letter case, white space, and the bytes that encode a text.

White space is Unicode's White_Space.  It holds the no-break space and the line and paragraph separators; it does not
hold the zero-width space, the byte order mark or the information separators U+001C to U+001F.
-/
namespace CommandComposer

/-- A text is the list of its characters. -/
abbrev Text := List Char

instance : Coe String Text := ⟨String.toList⟩

namespace Text

/-- **The pieces between the characters that satisfy `p`**: one more than there are such characters, each piece
possibly empty. -/
def cutAt (p : Char → Bool) : Text → List Text
  | [] => [[]]
  | c :: t =>
    if p c then [] :: cutAt p t
    else
      match cutAt p t with
      | [] => [[c]]
      | w :: ws => (c :: w) :: ws

theorem cutAt_ne_nil (p : Char → Bool) : ∀ t : Text, cutAt p t ≠ []
  | [] => by simp [cutAt]
  | c :: t => by
    rw [cutAt]
    split
    · simp
    · split <;> simp

/-- The text without the run at its end that satisfies `p`. -/
def dropEndWhile (p : Char → Bool) (t : Text) : Text := (t.reverse.dropWhile p).reverse

def join (separator : Text) (parts : List Text) : Text := List.intercalate separator parts

/-- Each letter A–Z as its small letter; every other character is kept. -/
def lower (t : Text) : Text := t.map Char.toLower

def sameLetters (a b : Text) : Bool := lower a == lower b

/-- **White space**: the characters with Unicode's White_Space property. -/
def isBlank (c : Char) : Bool :=
  let n := c.toNat
  (0x09 ≤ n && n ≤ 0x0D) || n == 0x20 || n == 0x85 || n == 0xA0 || n == 0x1680 ||
    (0x2000 ≤ n && n ≤ 0x200A) || n == 0x2028 || n == 0x2029 || n == 0x202F || n == 0x205F || n == 0x3000

def trim (t : Text) : Text := dropEndWhile isBlank (t.dropWhile isBlank)

/-- The longest runs without white space, in order. -/
def words (t : Text) : List Text := (cutAt isBlank t).filter (fun w => !w.isEmpty)

def allBlank (t : Text) : Bool := t.all isBlank

def toBytes (t : Text) : List UInt8 := (String.ofList t).toUTF8.data.toList

/-- The text that the bytes encode, if they are valid UTF-8. -/
def ofBytes? (bytes : List UInt8) : Option Text := (String.fromUTF8? ⟨bytes.toArray⟩).map String.toList

def byteLength (t : Text) : Nat := t.foldr (fun c n => c.utf8Size + n) 0

end Text
end CommandComposer
