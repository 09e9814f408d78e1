import CommandComposer.Builder
import CommandComposer.Catalog
import CommandComposer.Command
/-!
# Session — composing a command in a dialogue

A session picks a kind, asks for what the kind needs and serialises the draft.  Every accepted value is echoed.  Where
there is no catalog to check blocks against, a notice says so before the first block question; a partner that attends a
session hears a notice only once, however many commands are composed and however they end.
-/
namespace CommandComposer

/-- **A partner's state in a session**, and whether a notice was heard in it. -/
structure Attending (σ : Type) where
  partner : σ
  noticed : Bool

/-- **A partner that hears only the first notice.** -/
def Partner.attending {σ : Type} (p : Partner σ) : Partner (Attending σ) where
  answer q s :=
    let r := p.answer q s.partner
    (r.1, { s with partner := r.2 })
  hear r s :=
    match r with
    | .notice t => if s.noticed then s else ⟨p.hear (.notice t) s.partner, true⟩
    | r => { s with partner := p.hear r s.partner }
  left s := p.left s.partner
  left_answer_le q s := p.left_answer_le q s.partner
  left_answer_lt q s a h := p.left_answer_lt q s.partner a h
  left_hear_le r s := by
    split
    · split
      · exact Nat.le_refl _
      · exact p.left_hear_le _ _
    · exact p.left_hear_le _ _

namespace Session

open Dialogue

def usualAmount : Text := "1"

def readAmount : Reader Text := fun t =>
  if t.isEmpty then .ok usualAmount
  else if Numeral.isNumeral t then .ok (Numeral.dropZeros t)
  else .error "Please enter a valid amount (non-negative integer), or leave it empty for 1."

/-- The reader of a position, to its text in normal form. -/
def readPosition (reason : Text) : Reader Text := fun t =>
  match Position.read? t with
  | some p => .ok p.text
  | none => .error reason

/-- **The reader of a destination**: a target, which starts with an at sign, or a position. -/
def readDestination : Reader Text
  | '@' :: c :: t => .ok ('@' :: c :: t)
  | t => readPosition "Please enter a target selector (e.g., @p) or coordinates (e.g., 0 64 0)." t

/-- How many suggestions an unknown block gets, and how many completions. -/
def suggestionLimit : Nat := 5

/-- What is said of a block that the catalog does not list. -/
def unknownBlock (block : Text) (suggestions completions : List Text) : Text :=
  let near : Text := if suggestions.isEmpty then [] else " Did you mean: " ++ Text.join ", " suggestions ++ "?"
  let matching : Text :=
    if completions.isEmpty then [] else " Blocks matching \"" ++ block ++ "\": " ++ Text.join ", " completions
  ("Unknown block \"" : Text) ++ block ++ "\"." ++ near ++ matching

/-- **The reader of a block**, to the part behind the namespace. -/
def readBlock (catalog : Catalog) : Reader Text := fun t =>
  let block := normalBlock t
  if block.allBlank then .error "Please enter a block."
  else
    match catalog.check block suggestionLimit with
    | .known => .ok block
    | .unchecked => .ok block
    | .unknown suggestions completions => .error (unknownBlock block suggestions completions)

/-- The answer to a question, echoed under a label. -/
def echoed (label : Text) (asked : Dialogue Text) : Dialogue Text := do
  let value ← asked
  tell (.echo label value)
  return value

def askField (label message : Text) (reader : Reader Text) : Dialogue Text := echoed label (askRequired message reader)

def askText (label message reason : Text) : Dialogue Text :=
  echoed label (askIf message (fun t => !t.allBlank) reason)

def askPosition (label message : Text) : Dialogue Text :=
  askField label message
    (readPosition "Please enter a position as three coordinates (e.g., 0 64 0 or ~ ~1 ~).")

def unavailableNotice (reason : Text) : Text :=
  "Block catalog unavailable (" ++ reason ++ "). Block names will not be checked."

/-- The notice that blocks cannot be checked, if they cannot. -/
def noticeIfUnavailable (catalog : Catalog) : Dialogue Unit :=
  match catalog.reason? with
  | some reason => tell (.notice (unavailableNotice reason))
  | none => done ()

/-- **Asks for a block**; the answer carries the namespace. -/
def askBlock (catalog : Catalog) (message : Text) : Dialogue Text := do
  noticeIfUnavailable catalog
  let block ← askRequired message (readBlock catalog)
  let reference := blockNamespace ++ block
  tell (.echo "Block" reference)
  return reference

def askClauses (message : Text) (schema : Schema) : Dialogue (Option ClauseSet) := do
  if ← askYes message false then
    let clauses ← schema.build
    return some clauses
  else return none

def selectTarget : Dialogue Target := do
  let picked ← ask (.menu "Select a target selector type:" (Target.all.map fun t => .described t.token t.description))
  let target ← ofExcept (Target.read picked)
  tell (.echo "Target" target.token)
  return target

def composeGive : Dialogue Draft := do
  let target ← selectTarget
  let clauses ← askClauses "Want to further refine your target selector?" Schema.selectors
  let item ← askText "Item name" "Item name (e.g., diamond)" "Please enter an item name."
  let components ← askClauses "Want to add item components?" Schema.components
  let amount ← askField "Item amount" "Item amount (How many? If empty, it'll set 1.)" readAmount
  let draft : Draft := { Draft.new .give with target := some target, clauses := clauses, components := components }
  return (draft.setField "item" item).setField "amount" amount

/-- **Asks for all that a kind needs.** -/
def compose (catalog : Catalog) : Kind → Dialogue Draft
  | .give => composeGive
  | .teleport => do
    let destination ←
      askField "Destination" "Destination player/entity or coordinates (e.g., @p or 0 64 0)" readDestination
    return (Draft.new .teleport).setField "destination" destination
  | .setblock => do
    let position ← askPosition "Position" "Position (e.g., 0 64 0)"
    let block ← askBlock catalog "Block (e.g., diamond_block)"
    return ((Draft.new .setblock).setField "position" position).setField "block" block
  | .fill => do
    let start ← askPosition "From position" "From position (e.g., 0 64 0)"
    let finish ← askPosition "To position" "To position (e.g., 10 64 10)"
    let block ← askBlock catalog "Block (e.g., stone)"
    return (((Draft.new .fill).setField "from" start).setField "to" finish).setField "block" block
  | .say => do
    let message ← askText "Message" "Message" "Please enter a message."
    return (Draft.new .say).setField "message" message
  | .execute => do
    let target ← askText "Target" "Target selector (e.g., @a)" "Please enter a target."
    let command ← askText "Command" "Command to execute" "Please enter a command."
    return ((Draft.new .execute).setField "target" target).setField "command" command

/-- **Picks the kind of command.** -/
def selectKind : Dialogue Kind := do
  let picked ← ask (.menu "Select a command type:" (Kind.all.map fun k => .plain k.name))
  let kind ← ofExcept (Kind.read picked)
  tell (.echo "Generate target" kind.name)
  return kind

/-- **Composes a command**, from the pick of its kind to its text. -/
def command (catalog : Catalog) : Dialogue Text := do
  let kind ← selectKind
  let draft ← compose catalog kind
  ofExcept draft.serialize

end Session
end CommandComposer
