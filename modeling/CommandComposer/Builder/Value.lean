import CommandComposer.Dialogue.Asking
/-!
# Value — values that have a form of their own

Lore is lines of text, written as a list of literals; food is three parts; enchantments are names with levels, asked
for in turn.  Each value is written the way a command takes it.
-/
namespace CommandComposer

/-- The lines of a text, cut at `<br>`; there is one more than there are marks. -/
def brokenLines : Text → List Text
  | '<' :: 'b' :: 'r' :: '>' :: t => [] :: brokenLines t
  | c :: t =>
    match brokenLines t with
    | [] => [[c]]
    | line :: lines => (c :: line) :: lines
  | [] => [[]]

namespace Lore

/-- **The lines of a lore**: without the white space around them, and without the empty ones. -/
def lines (t : Text) : List Text := ((brokenLines t).map Text.trim).filter (fun line => !line.isEmpty)

/-- The reader of a lore, which has at least one line. -/
def reader : Reader Text := fun t =>
  match lines t with
  | [] => .error "Please enter a lore."
  | line :: more => .ok (Quoted.encodeList (line :: more))

end Lore

/-- **What a food gives.** -/
structure Food where
  nutrition : Text
  saturation : Text
  canAlwaysEat : Text
deriving DecidableEq, Repr

namespace Food

/-- The three parts between commas, none of them blank. -/
def read? (t : Text) : Option Food :=
  match (t.cutAt (· == ',')).map Text.trim with
  | [nutrition, saturation, canAlwaysEat] =>
    if nutrition ≠ [] ∧ saturation ≠ [] ∧ canAlwaysEat ≠ [] then some ⟨nutrition, saturation, canAlwaysEat⟩ else none
  | _ => none

def text (f : Food) : Text :=
  '{' :: "nutrition:" ++ f.nutrition ++ ", saturation:" ++ f.saturation ++ ", can_always_eat:" ++ f.canAlwaysEat ++
    ['}']

def reader : Reader Text := fun t =>
  match read? t with
  | some f => .ok f.text
  | none => .error "Please enter food as <nutrition>,<saturation>,<can_always_eat> (e.g., 4,2.4,false)."

end Food

/-- **An enchantment with its level.** -/
structure Enchantment where
  name : Text
  level : Text
deriving DecidableEq, Repr

namespace Enchantment

def text (e : Enchantment) : Text := e.name ++ ":" ++ e.level

/-- The texts between braces, with a comma between each two. -/
def listText (texts : List Text) : Text := '{' :: Text.join ", " texts ++ ['}']

def levels : Numeral.Bounds := ⟨1, 255⟩

def readName : Reader Text := Dialogue.readIf (fun t => !t.allBlank) "Please enter an enchantment name."

def readLevel : Reader Text := fun t =>
  if Numeral.isBounded levels t then .ok (Numeral.dropZeros t) else .error "Please enter a valid level (1~255)."

def more : Question :=
  .menu "Add another enchantment? (y/N)" [.described "y" "Add another enchantment", .described "N" "Finish"]

open Dialogue

/-- What follows a name: its level, and whether there is one more. -/
def afterName (collected : List Enchantment) (name : Text) : Dialogue (Turn (List Enchantment) (Answer Text)) := do
  let level ← askRequired "Enchantment level (1~255)" readLevel
  let e : Enchantment := ⟨name, level⟩
  tell (.echo "Enchantment" e.text)
  let picked ← ask more
  let collected := collected ++ [e]
  return if Text.sameLetters picked "y" then .again collected
    else .finish (.value (listText (collected.map text)))

/-- **Asks for enchantments**, one after the other; going back at a name drops those collected so far. -/
def collect : Dialogue (Answer Text) :=
  rounds (fun _ => escapable "Enchantment name (e.g., sharpness, unbreaking)")
    (fun collected raw =>
      if goesBack raw then done (.finish .back)
      else
        match readName raw.trim with
        | .ok name => afterName collected name
        | .error reason => refuse collected reason)
    []

end Enchantment
end CommandComposer
