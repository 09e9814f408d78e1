import CommandComposer.Dialogue.Partner
/-!
# Delivery — handing a finished command over

The command is shown, copied to the clipboard once the user has confirmed, and announced by a notification.  It has
been made by then, so a clipboard or a notifier that fails only brings a warning.  The one failure is a confirmation
that can not be read; an input that has ended confirms.
-/
namespace CommandComposer

/-- **Where a command is handed to**: a clipboard and a notifier, with what they change. -/
structure Desktop (δ : Type) where
  copy : Text → δ → Except Error Unit × δ
  notify : (title message : Text) → δ → Except Error Unit × δ

namespace Delivery

/-- What to do with a command. -/
structure Options where
  copy : Bool := true
  silent : Bool := false
deriving DecidableEq, Repr

/-- **What was done with it.** -/
structure Report where
  copied : Bool
  notified : Bool
deriving DecidableEq, Repr

def title : Text := "mccmd"

def shown (command : Text) : Remark := .message .success ("Generated! Command: " ++ command)

def confirmation : Question := .line "Press Enter to copy to clipboard..."

def copyRemark : Except Error Unit → Remark
  | .ok _ => .message .success "✓ Command copied to clipboard!"
  | .error e => .message .warning ("✗ Failed to copy command to clipboard (" ++ e.message ++ ")")

def notifyWarning (e : Error) : Remark :=
  .message .warning ("✗ Failed to send notification (" ++ e.message ++ ")")

def announcement (copied : Bool) (command : Text) : Text :=
  (if copied then "Command copied to clipboard: " else "Command generated: ") ++ command

def succeeded : Except Error Unit → Bool
  | .ok _ => true
  | .error _ => false

variable {σ δ : Type}

/-- The confirmation: any line confirms, and so does an input that has ended. -/
def confirm (p : Partner σ) (s : σ) : Except Error Unit × σ :=
  match p.answer confirmation s with
  | (.ok _, s) => (.ok (), s)
  | (.error .inputClosed, s) => (.ok (), s)
  | (.error e, s) => (.error e, s)

def copyStep (p : Partner σ) (d : Desktop δ) (command : Text) (s : σ) (t : δ) : Bool × σ × δ :=
  let (result, t) := d.copy command t
  (succeeded result, p.hear (copyRemark result) s, t)

/-- The notification, unless it is to be silent, and what is said if it failed. -/
def notifyStep (p : Partner σ) (d : Desktop δ) (o : Options) (copied : Bool) (command : Text) (s : σ) (t : δ) :
    Bool × σ × δ :=
  if o.silent then (false, s, t)
  else
    match d.notify title (announcement copied command) t with
    | (.ok _, t) => (true, s, t)
    | (.error e, t) => (false, p.hear (notifyWarning e) s, t)

def afterConfirmation (p : Partner σ) (d : Desktop δ) (o : Options) (copied : Bool) (command : Text) (s : σ) (t : δ) :
    Except Error Report × σ × δ :=
  let (notified, s, t) := notifyStep p d o copied command s t
  (.ok ⟨copied, notified⟩, s, t)

/-- **Hands a command over.** -/
def deliver (p : Partner σ) (d : Desktop δ) (o : Options) (command : Text) (s : σ) (t : δ) :
    Except Error Report × σ × δ :=
  let s := p.hear (shown command) s
  if o.copy then
    match confirm p s with
    | (.error e, s) => (.error e, s, t)
    | (.ok _, s) =>
      let (copied, s, t) := copyStep p d command s t
      afterConfirmation p d o copied command s t
  else afterConfirmation p d o false command s t

end Delivery
end CommandComposer
