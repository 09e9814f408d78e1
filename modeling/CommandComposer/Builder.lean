import CommandComposer.Builder.Schema
/-!
# Builder — collecting clauses key by key

A round offers the keys not collected yet.  A picked key is asked for its value, which joins the clauses; backing out
of the value leaves them as they were.  A pick that was not offered ends the dialogue, and `OK` ends the rounds.
-/
namespace CommandComposer

namespace ValueKind

open Dialogue

def readText (reason : Text) : Reader Text := readIf (fun t => !t.allBlank) reason

/-- The reader of a text that is not blank, to its literal. -/
def readQuoted (reason : Text) : Reader Text := fun t =>
  if t.allBlank then .error reason else .ok (Quoted.encode t)

def readInteger (reason : Text) (bounds : Option Numeral.Bounds) : Reader Text := fun t =>
  let valid :=
    match bounds with
    | some b => Numeral.isBounded b t
    | none => Numeral.isNumeral t
  if valid then .ok (Numeral.dropZeros t) else .error reason

def readTruth : Reader Text := fun t =>
  match Consent.truth? t with
  | some b => .ok (Consent.text b)
  | none => .error "Please enter a boolean (true or false)."

def optionChoice (option : Text × Text) : Choice :=
  if option.2.isEmpty then .plain option.1 else .described option.1 option.2

/-- **Asks for a value**, unless the user goes back to the choice of `noun`s. -/
def collect (noun : Text) : ValueKind → Dialogue (Answer Text)
  | .text prompt reason => askEscapable prompt (readText reason)
  | .quoted prompt reason => askEscapable prompt (readQuoted reason)
  | .integer prompt reason bounds => askEscapable prompt (readInteger reason bounds)
  | .truth prompt => askEscapable prompt readTruth
  | .choice prompt options => selectOrBack prompt (options.map optionChoice) noun
  | .lore prompt => askEscapable prompt Lore.reader
  | .enchantments => Enchantment.collect
  | .food prompt => askEscapable prompt Food.reader

end ValueKind

namespace Schema

open Dialogue

def question (schema : Schema) (collected : ClauseSet) : Question :=
  .menu ("Additional " ++ schema.noun ++ "s:") (schema.menu collected)

def picked? (schema : Schema) (collected : ClauseSet) (pick : Text) : Option KeySpec :=
  (schema.find? pick).filter (fun spec => !collected.contains spec.key)

/-- **A round behind its pick.** -/
def round (schema : Schema) (collected : ClauseSet) (pick : Text) : Dialogue (Turn ClauseSet ClauseSet) :=
  if pick = okWord then done (.finish collected)
  else
    match schema.picked? collected pick with
    | none => fail (.unknownChoice pick)
    | some spec => do
      tell (.echo ("Additional " ++ schema.noun) spec.key)
      match ← spec.value.collect schema.noun with
      | .value value => do
        tell (.echo spec.key value)
        return .again (collected.insert ⟨spec.key, value⟩)
      | .back => do
        tell (.message .warning ("Cancelled. Back to " ++ schema.noun ++ " selection."))
        return .again collected

def summary (collected : ClauseSet) : Text := if collected.isEmpty then "(none)" else collected.text

/-- **Collects clauses.** -/
def build (schema : Schema) : Dialogue ClauseSet := do
  let collected ← rounds schema.question schema.round ClauseSet.empty
  tell (.echo ("All " ++ schema.noun ++ "s") (summary collected))
  return collected

end Schema
end CommandComposer
