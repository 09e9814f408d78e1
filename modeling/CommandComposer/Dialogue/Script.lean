import CommandComposer.Dialogue.Partner
/-!
# Script — a partner with its answers written down

A script answers from a list and keeps a record of what was said.  When the list is used up, its input is closed.  It
may hold its menu answers to what is offered, or say whatever is written; or it may be one that no question reaches.
-/
namespace CommandComposer

/-- Something that was said. -/
inductive Event where
  | asked (question : Question)
  | heard (tone : Tone) (text : Text)
deriving DecidableEq, Repr

/-- **The answers not yet given, and all that was said so far.** -/
structure Script where
  answers : List Text
  events : List Event

namespace Script

def start (answers : List Text) : Script := ⟨answers, []⟩

/-- How a script answers. -/
inductive Manner where
  /-- A menu answer has to be one of the values offered. -/
  | checked
  /-- A menu answer is what is written, whatever was offered. -/
  | unchecked
  /-- Every question fails. -/
  | broken (fault : Fault)

def record (s : Script) (e : Event) : Script := { s with events := s.events ++ [e] }

def offered : Question → Text → Bool
  | .menu _ choices, a => choices.any (fun c => c.value == a)
  | .line _, _ => true

/-- The next answer; it is used up even if it may not be given. -/
def next (checked : Bool) (q : Question) (s : Script) : Except Error Text × Script :=
  match s.answers with
  | [] => (.error .inputClosed, s)
  | a :: rest => (if checked && !offered q a then .error (.unknownChoice a) else .ok a, { s with answers := rest })

/-- **The answer to a question.**  It is recorded first; only a checked script does not take an empty menu. -/
def answer (m : Manner) (q : Question) (s : Script) : Except Error Text × Script :=
  match m, q with
  | .broken fault, _ => (.error (.stream fault), s.record (.asked q))
  | .checked, .menu message [] => (.error (.emptyMenu message), s)
  | .checked, _ => next true q (s.record (.asked q))
  | .unchecked, _ => next false q (s.record (.asked q))

def hear (r : Remark) (s : Script) : Script := s.record (.heard r.asMessage.1 r.asMessage.2)

theorem next_left_le (checked : Bool) (q : Question) (s : Script) :
    (next checked q s).2.answers.length ≤ s.answers.length := by
  unfold next
  split <;> simp_all

theorem next_left_lt (checked : Bool) (q : Question) (s : Script) (a : Text) (h : (next checked q s).1 = .ok a) :
    (next checked q s).2.answers.length < s.answers.length := by
  unfold next at h ⊢
  split <;> simp_all

theorem answer_left_le (m : Manner) (q : Question) (s : Script) :
    (answer m q s).2.answers.length ≤ s.answers.length := by
  unfold answer
  split
  · exact Nat.le_refl _
  · exact Nat.le_refl _
  · exact next_left_le ..
  · exact next_left_le ..

theorem answer_left_lt (m : Manner) (q : Question) (s : Script) (a : Text) (h : (answer m q s).1 = .ok a) :
    (answer m q s).2.answers.length < s.answers.length := by
  unfold answer at h ⊢
  split at h
  · exact nomatch h
  · exact nomatch h
  · exact next_left_lt _ _ _ a h
  · exact next_left_lt _ _ _ a h

/-- **A script as a partner.** -/
def partner (m : Manner) : Partner Script where
  answer := answer m
  hear := hear
  left s := s.answers.length
  left_answer_le := answer_left_le m
  left_answer_lt := answer_left_lt m
  left_hear_le _ _ := Nat.le_refl _

def lines (s : Script) : List Text :=
  s.events.filterMap fun
    | .asked (.line text) => some text
    | _ => none

def menus (s : Script) : List (List Text) :=
  s.events.filterMap fun
    | .asked (.menu _ choices) => some (choices.map Choice.value)
    | _ => none

def messages (s : Script) (tone : Tone) : List Text :=
  s.events.filterMap fun
    | .heard t text => if t = tone then some text else none
    | _ => none

end Script
end CommandComposer
