import CommandComposer.Error
/-!
# Partner — what is said in a dialogue, and who answers

One side asks and remarks, the other answers.  A question is a menu or asks for a line of text; a remark is a message,
an accepted value, or a notice, which is a warning that need not be heard twice.

A partner answers questions and hears remarks, and its state changes with both.  It has only so many answers left:
each answer leaves fewer of them and nothing adds any.  That is what ends a dialogue that would ask for ever.
-/
namespace CommandComposer

/-- An entry of a menu: what is shown and what picking it means. -/
structure Choice where
  label : Text
  value : Text
deriving DecidableEq, Repr

namespace Choice

def plain (value : Text) : Choice := ⟨value, value⟩

/-- An entry that shows its value and what that means. -/
def described (value description : Text) : Choice := ⟨value ++ " - " ++ description, value⟩

end Choice

/-- How a message is meant. -/
inductive Tone where
  | info
  | success
  | warning
  | error
deriving DecidableEq, Repr

/-- **What is asked.** -/
inductive Question where
  | menu (message : Text) (choices : List Choice)
  | line (text : Text)
deriving DecidableEq, Repr

/-- **What is said without asking.** -/
inductive Remark where
  | message (tone : Tone) (text : Text)
  | echo (label value : Text)
  | notice (text : Text)
deriving DecidableEq, Repr

def Remark.asMessage : Remark → Tone × Text
  | .message tone text => (tone, text)
  | .echo label value => (.info, label ++ ": " ++ value)
  | .notice text => (.warning, text)

/-- **Someone to hold a dialogue with.** -/
structure Partner (σ : Type) where
  answer : Question → σ → Except Error Text × σ
  hear : Remark → σ → σ
  /-- A bound on the answers that are left. -/
  left : σ → Nat
  left_answer_le : ∀ q s, left (answer q s).2 ≤ left s
  left_answer_lt : ∀ q s a, (answer q s).1 = .ok a → left (answer q s).2 < left s
  left_hear_le : ∀ r s, left (hear r s) ≤ left s

end CommandComposer
