import CommandComposer.Dialogue.Script
import CommandComposer.Proofs.Outcome
/-!
# Retrying — what asking again comes to

A round of asking again either ends it or tells a reason and leaves the rest of the answers (`Script.run_askUntil_cons`).
So on a script the first answer that can settle the matter does, those before it are refused one after the other, and
without one the input is closed when all are used up (`Script.settledBy_run`).  Asking with and without a way back are
cases of it (`Dialogue.first_accepted_answer`).
-/
namespace CommandComposer

namespace Dialogue

theorem run_refuse {σ β γ : Type} (p : Partner σ) (state : β) (reason : Text) (s : σ) :
    (refuse state reason : Dialogue (Turn β γ)).run p s = (.ok (.again state), p.hear (.message .error reason) s) := rfl

end Dialogue

namespace Script

open Dialogue

variable {γ : Type} {m : Manner} {raw reason : Text} {settle : Text → Except Text γ}

/-- A question that was asked once for each reason to ask again, and then a last time. -/
def askedAgain (q : Question) (reasons : List Text) : List Event :=
  reasons.flatMap (fun reason => [.asked q, .heard .error reason]) ++ [.asked q]

/-- **The first answer that settles the matter**: it decides, the answers before it were refused for one reason each,
and those behind it are left.  If there is none, all were refused and the input is closed. -/
def SettledBy (q : Question) (settle : Text → Except Text γ) (s : Script) (outcome : Except Error γ × Script) : Prop :=
  match s.answers.findIdx? fun raw => (settle raw).isOk with
  | some i =>
    ∃ raw c reasons, s.answers[i]? = some raw ∧ settle raw = .ok c ∧
      (s.answers.take i).map settle = reasons.map Except.error ∧
      outcome = (.ok c, ⟨s.answers.drop (i + 1), s.events ++ askedAgain q reasons⟩)
  | none =>
    ∃ reasons, s.answers.map settle = reasons.map Except.error ∧
      outcome = (.error .inputClosed, ⟨[], s.events ++ askedAgain q reasons⟩)

/-- A question for a line is answered in the same way in every manner but the broken one. -/
theorem answer_line (hm : ∀ fault, m ≠ .broken fault) (text : Text) (s : Script) :
    (partner m).answer (.line text) s = next false (.line text) (s.record (.asked (.line text))) := by
  cases m with
  | checked => rfl
  | unchecked => rfl
  | broken fault => exact absurd rfl (hm fault)

theorem run_askUntil_nil (hm : ∀ fault, m ≠ .broken fault) (text : Text) (settle : Text → Except Text γ)
    (events : List Event) : (askUntil (.line text) settle).run (partner m) ⟨[], events⟩ =
      (.error .inputClosed, ⟨[], events ++ [.asked (.line text)]⟩) := by
  rw [askUntil, run_rounds, answer_line hm]
  rfl

/-- **One round**: the answer is taken, and settles the matter or is refused. -/
theorem run_askUntil_cons (hm : ∀ fault, m ≠ .broken fault) (text : Text) (settle : Text → Except Text γ) (raw : Text)
    (answers : List Text) (events : List Event) :
    (askUntil (.line text) settle).run (partner m) ⟨raw :: answers, events⟩ =
      match settle raw with
      | .ok c => (.ok c, ⟨answers, events ++ [.asked (.line text)]⟩)
      | .error reason => (askUntil (.line text) settle).run (partner m)
          ⟨answers, events ++ [.asked (.line text), .heard .error reason]⟩ := by
  have htaken : next false (.line text) (record ⟨raw :: answers, events⟩ (.asked (.line text))) =
      (.ok raw, ⟨answers, events ++ [.asked (.line text)]⟩) := rfl
  rw [askUntil, run_rounds, answer_line hm, htaken]
  dsimp only
  cases settle raw with
  | ok c => rfl
  | error reason =>
    dsimp only
    rw [run_refuse, List.append_cons events (.asked (.line text)) [.heard .error reason]]
    rfl

theorem SettledBy.of_refused {q : Question} {answers : List Text} {events : List Event}
    {outcome : Except Error γ × Script} (hraw : settle raw = .error reason)
    (h : SettledBy q settle ⟨answers, events ++ [.asked q, .heard .error reason]⟩ outcome) :
    SettledBy q settle ⟨raw :: answers, events⟩ outcome := by
  have hagain : ∀ reasons, events ++ [.asked q, .heard .error reason] ++ askedAgain q reasons =
      events ++ askedAgain q (reason :: reasons) := fun reasons => by
    rw [List.append_assoc]
    rfl
  have hfirst : (settle raw).isOk = false := by rw [hraw]; rfl
  unfold SettledBy at h ⊢
  dsimp only at h ⊢
  rw [List.findIdx?_cons, hfirst]
  cases hfind : answers.findIdx? fun raw => (settle raw).isOk with
  | none =>
    rw [hfind] at h
    obtain ⟨reasons, hreasons, rfl⟩ := h
    refine ⟨reason :: reasons, ?_, by rw [hagain]⟩
    rw [List.map_cons, List.map_cons, hraw, hreasons]
  | some i =>
    rw [hfind] at h
    obtain ⟨last, c, reasons, hlast, hc, hreasons, rfl⟩ := h
    refine ⟨last, c, reason :: reasons, hlast, hc, ?_, by rw [hagain]; rfl⟩
    rw [List.take_succ_cons, List.map_cons, List.map_cons, hraw, hreasons]

/-- **What a run of the loop comes to**, by induction on the answers. -/
theorem settledBy_run (hm : ∀ fault, m ≠ .broken fault) (text : Text) (settle : Text → Except Text γ) :
    ∀ (answers : List Text) (events : List Event), SettledBy (.line text) settle ⟨answers, events⟩
      ((askUntil (.line text) settle).run (partner m) ⟨answers, events⟩)
  | [], events => ⟨[], rfl, run_askUntil_nil hm text settle events⟩
  | raw :: answers, events => by
    rw [run_askUntil_cons hm]
    cases hraw : settle raw with
    | ok c =>
      have hfirst : (raw :: answers).findIdx? (fun raw => (settle raw).isOk) = some 0 := by
        rw [List.findIdx?_cons, hraw]
        rfl
      unfold SettledBy
      dsimp only
      rw [hfirst]
      exact ⟨raw, c, [], rfl, hraw, rfl, rfl⟩
    | error reason => exact (settledBy_run hm text settle answers _).of_refused hraw

end Script

namespace Dialogue

variable {α : Type} {m : Script.Manner}

/-- **The first accepted answer decides.**  Of the answers of a script, asking until an answer is accepted takes those up
to the first that is, and gives what that reads as; each one before it is met with the reason why it is refused, and
the same question.  Where one may go back, the first answer that does so or is accepted decides, and one that goes back
is not read.  Without such an answer, all are refused and the input is closed. -/
theorem first_accepted_answer (hm : ∀ fault, m ≠ .broken fault) (message : Text) (reader : Reader α) (s : Script) :
    s.SettledBy (required message) (fun raw => reader raw.trim)
      ((askRequired message reader).run (Script.partner m) s) ∧
    s.SettledBy (escapable message) (orBack reader) ((askEscapable message reader).run (Script.partner m) s) ∧
    ∀ other : Reader α, (∀ raw, goesBack raw = false → other raw.trim = reader raw.trim) →
      askEscapable message other = askEscapable message reader := by
  refine ⟨?_, ?_, fun other hother => ?_⟩
  · rw [askRequired_eq]
    exact Script.settledBy_run hm _ _ _ _
  · rw [askEscapable_eq]
    exact Script.settledBy_run hm _ _ _ _
  · have hsame : orBack other = orBack reader := by
      funext raw
      unfold orBack
      cases hback : goesBack raw with
      | true => rfl
      | false => rw [hother raw hback]
    rw [askEscapable_eq, askEscapable_eq, hsame]

/-- A blank answer is refused, and going back is not read, though it would be accepted. -/
theorem first_accepted_answer_back :
    let question := escapable "Tag"
    (askEscapable "Tag" (readIf (fun t => !t.allBlank) "Please enter a tag.")).run (Script.partner .checked)
        (Script.start [" ", " BACK ", "red"]) =
      (.ok .back, ⟨["red"], [.asked question, .heard .error "Please enter a tag.", .asked question]⟩) := by
  intro question
  have hm : ∀ fault, Script.Manner.checked ≠ .broken fault := nofun
  obtain ⟨-, ⟨raw, c, reasons, hraw, hc, hreasons, hrun⟩, -⟩ := first_accepted_answer hm "Tag"
    (readIf (fun t => !t.allBlank) "Please enter a tag.") (Script.start [" ", " BACK ", "red"])
  cases hraw
  cases hc
  rcases reasons with _ | ⟨reason, _ | ⟨other, reasons⟩⟩
  · cases hreasons
  · cases hreasons
    exact hrun
  · cases hreasons

end Dialogue
end CommandComposer
