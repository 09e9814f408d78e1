import CommandComposer.Dialogue
/-!
# Asking — questions that are repeated until their answer is accepted

An answer is read without the white space around it.  One that is refused is answered with the reason, as an error
message, and the question is asked again; nothing of it is kept.  Where the user may go back, the word `back` does so
before the answer is read at all.
-/
namespace CommandComposer

/-- The answer to a question that one may back out of. -/
inductive Answer (α : Type) where
  | value (a : α)
  | back
deriving DecidableEq, Repr

/-- How an answer is read: to a value, or to the reason why it is refused. -/
abbrev Reader (α : Type) := Text → Except Text α

namespace Dialogue

def backWord : Text := "back"

def goesBack (raw : Text) : Bool := Text.sameLetters raw.trim backWord

def escapable (message : Text) : Question := .line (message ++ ". Type \"" ++ backWord ++ "\" to go back: ")

def required (message : Text) : Question := .line (message ++ ": ")

def complain (reason : Text) : Dialogue Unit := tell (.message .error reason)

/-- The end of a round whose answer is refused: the reason is told, and the same round comes again. -/
def refuse {β γ : Type} (state : β) (reason : Text) : Dialogue (Turn β γ) := do
  complain reason
  return .again state

/-- **Asks until the answer is accepted.** -/
def askRequired {α : Type} (message : Text) (reader : Reader α) : Dialogue α :=
  rounds (fun _ : Unit => required message)
    (fun _ raw =>
      match reader raw.trim with
      | .ok a => done (.finish a)
      | .error reason => refuse () reason)
    ()

/-- **Asks until the answer is accepted or goes back.** -/
def askEscapable {α : Type} (message : Text) (reader : Reader α) : Dialogue (Answer α) :=
  rounds (fun _ : Unit => escapable message)
    (fun _ raw =>
      if goesBack raw then done (.finish .back)
      else
        match reader raw.trim with
        | .ok a => done (.finish (.value a))
        | .error reason => refuse () reason)
    ()

/-- The reader that accepts what satisfies `accepts`, as it is. -/
def readIf (accepts : Text → Bool) (reason : Text) : Reader Text := fun t =>
  if accepts t then .ok t else .error reason

def askIf (message : Text) (accepts : Text → Bool) (reason : Text) : Dialogue Text :=
  askRequired message (readIf accepts reason)

def readYes (default : Bool) : Reader Bool := fun t =>
  match Consent.yes? default t with
  | some b => .ok b
  | none => .error "Please answer y or n."

/-- **Asks for yes or no**; an empty answer is the default. -/
def askYes (message : Text) (default : Bool) : Dialogue Bool :=
  askRequired (message ++ if default then " (Y/n)" else " (y/N)") (readYes default)

/-- Offers the choices and, last, the way back to the `origin` selection. -/
def selectOrBack (message : Text) (choices : List Choice) (origin : Text) : Dialogue (Answer Text) := do
  let back := Choice.described backWord ("Go back to " ++ origin ++ " selection")
  let picked ← ask (.menu message (choices ++ [back]))
  return if picked = backWord then .back else .value picked

end Dialogue
end CommandComposer
