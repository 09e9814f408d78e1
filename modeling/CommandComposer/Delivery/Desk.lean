import CommandComposer.Delivery
/-!
# Desk — desktops that keep what they are given

A desk keeps the text on its clipboard and the notifications sent.  A journal goes with any desktop, and keeps what that
one was asked for, with how it went.
-/
namespace CommandComposer

/-- **The text on the clipboard and the notifications sent.** -/
structure Desk where
  clipboard : Option Text
  sent : List (Text × Text)
deriving DecidableEq, Repr

namespace Desk

def empty : Desk := ⟨none, []⟩

/-- **A desk as a desktop**; with an error a clipboard or a notifier always fails and keeps nothing. -/
def desktop (copyError notifyError : Option Error) : Desktop Desk where
  copy text d :=
    match copyError with
    | none => (.ok (), { d with clipboard := some text })
    | some e => (.error e, d)
  notify title message d :=
    match notifyError with
    | none => (.ok (), { d with sent := d.sent ++ [(title, message)] })
    | some e => (.error e, d)

end Desk

/-- **What a desktop is asked for**, and how it went. -/
inductive Errand where
  | copy (text : Text) (outcome : Except Error Unit)
  | notify (title message : Text) (outcome : Except Error Unit)

/-- A desktop, and all that it was asked for. -/
structure Journal (δ : Type) where
  desktop : δ
  errands : List Errand

/-- **A desktop that keeps a journal.** -/
def Desktop.journaled {δ : Type} (d : Desktop δ) : Desktop (Journal δ) where
  copy text t :=
    let r := d.copy text t.desktop
    (r.1, ⟨r.2, t.errands ++ [.copy text r.1]⟩)
  notify title message t :=
    let r := d.notify title message t.desktop
    (r.1, ⟨r.2, t.errands ++ [.notify title message r.1]⟩)

/-- The warning of an errand that failed. -/
def Errand.warning? : Errand → Option Remark
  | .copy _ (.error e) => some (Delivery.copyRemark (.error e))
  | .notify _ _ (.error e) => some (Delivery.notifyWarning e)
  | _ => none

end CommandComposer
