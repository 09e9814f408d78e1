import CommandComposer.Create
import CommandComposer.Dialogue.Script
import CommandComposer.Proofs.Outcome
/-!
# ScriptRun — a script's run and the answers it takes

A script that holds its menu answers to what is offered gives the replies of a talk exactly when they are its next
answers and each may be given (`gives_checked_iff`).  So a dialogue has a result with a script exactly when some talk
with that result takes the script's answers in order (`run_ok`, `run_of_talk`).  In a session the same holds, but that
a notice is not heard twice (`composeWith_ok`, `composeWith_of_talk`).
-/
namespace CommandComposer

/-- The answers given in a talk, in order. -/
def replies (l : List Exchange) : List Text :=
  l.filterMap fun
    | .asked _ (.ok a) => some a
    | _ => none

theorem replies_append (l l' : List Exchange) : replies (l ++ l') = replies l ++ replies l' := List.filterMap_append

theorem replies_unanswered (q : Question) (e : Error) : replies [.asked q (.error e)] = [] := rfl

theorem replies_answered (q : Question) (a : Text) (l : List Exchange) :
    replies (.asked q (.ok a) :: l) = a :: replies l := rfl

theorem replies_heard (r : Remark) (l : List Exchange) : replies (.heard r :: l) = replies l := rfl

/-- An exchange whose answer, if it has one, is among those offered. -/
def Exchange.Fair : Exchange → Prop
  | .asked q (.ok a) => Script.offered q a = true
  | _ => True

/-- What a script records of an exchange. -/
def Exchange.event : Exchange → Event
  | .asked q _ => .asked q
  | .heard r => .heard r.asMessage.1 r.asMessage.2

def Exchange.isNotice : Exchange → Bool
  | .heard (.notice _) => true
  | _ => false

/-- An exchange that may be put into a talk: its answer is one of those offered, and it is not a notice. -/
structure Exchange.Given (x : Exchange) : Prop where
  answered : x.Answered
  fair : x.Fair
  plain : x.isNotice = false

theorem Exchange.given_line (text a : Text) : (Exchange.asked (.line text) (.ok a)).Given := ⟨trivial, rfl, rfl⟩

theorem Exchange.given_message (tone : Tone) (text : Text) : (Exchange.heard (.message tone text)).Given :=
  ⟨trivial, trivial, rfl⟩

theorem Exchange.given_echo (label value : Text) : (Exchange.heard (.echo label value)).Given :=
  ⟨trivial, trivial, rfl⟩

/-- **A talk without the notices after the first**; with none at all if one was heard before. -/
def heardOnce : Bool → List Exchange → List Exchange
  | _, [] => []
  | noticed, x :: l =>
    if noticed && x.isNotice then heardOnce noticed l else x :: heardOnce (noticed || x.isNotice) l

theorem heardOnce_append : ∀ (l l' : List Exchange) (noticed : Bool),
    heardOnce noticed (l ++ l') = heardOnce noticed l ++ heardOnce (noticed || l.any Exchange.isNotice) l'
  | [], l', noticed => by simp [heardOnce]
  | x :: l, l', noticed => by
    rw [List.cons_append, heardOnce, heardOnce]
    split
    · rename_i h
      rw [heardOnce_append l l' noticed]
      cases noticed <;> simp_all
    · rw [heardOnce_append l l', List.any_cons, Bool.or_assoc, List.cons_append]

theorem heardOnce_plain_append {l : List Exchange} (h : ∀ x ∈ l, x.isNotice = false) (noticed : Bool)
    (l' : List Exchange) : heardOnce noticed (l ++ l') = l ++ heardOnce noticed l' := by
  induction l with
  | nil => rfl
  | cons x l ih =>
    obtain ⟨hx, hl⟩ := List.forall_mem_cons.1 h
    rw [List.cons_append, heardOnce, hx, Bool.and_false, Bool.or_false, ih hl]
    rfl

theorem mem_of_mem_heardOnce : ∀ {l : List Exchange} {noticed : Bool} {x : Exchange}, x ∈ heardOnce noticed l → x ∈ l
  | y :: l, noticed, x, h => by
    rw [heardOnce] at h
    split at h
    · exact List.mem_cons_of_mem _ (mem_of_mem_heardOnce h)
    · rcases List.mem_cons.1 h with rfl | h
      · exact List.mem_cons_self
      · exact List.mem_cons_of_mem _ (mem_of_mem_heardOnce h)

theorem heardOnce_asked (noticed : Bool) (q : Question) (reply : Except Error Text) (l : List Exchange) :
    heardOnce noticed (.asked q reply :: l) = .asked q reply :: heardOnce noticed l := by
  simp [heardOnce, Exchange.isNotice]

theorem replies_heardOnce : ∀ (l : List Exchange) (noticed : Bool), replies (heardOnce noticed l) = replies l
  | [], _ => rfl
  | .asked q reply :: l, noticed => by
    rw [heardOnce_asked]
    cases reply with
    | ok a => rw [replies_answered, replies_answered, replies_heardOnce l noticed]
    | error e => exact replies_heardOnce l noticed
  | .heard r :: l, noticed => by
    rw [heardOnce]
    split
    · exact replies_heardOnce l noticed
    · exact replies_heardOnce l _

theorem fair_heardOnce_iff : ∀ {l : List Exchange} {noticed : Bool},
    (∀ x ∈ heardOnce noticed l, x.Fair) ↔ ∀ x ∈ l, x.Fair
  | [], _ => Iff.rfl
  | .asked q reply :: l, noticed => by
    rw [heardOnce_asked, List.forall_mem_cons, List.forall_mem_cons, fair_heardOnce_iff]
  | .heard r :: l, noticed => by
    have hheard : (Exchange.heard r).Fair := trivial
    rw [heardOnce, List.forall_mem_cons, and_iff_right hheard]
    split
    · exact fair_heardOnce_iff
    · rw [List.forall_mem_cons, and_iff_right hheard]
      exact fair_heardOnce_iff

variable {σ : Type}

/-- **Who attends a session hears a talk without the notices after the first.** -/
theorem Partner.gives_attending_iff (p : Partner σ) : ∀ (l : List Exchange) (s t : Attending σ),
    p.attending.Gives s l t ↔
      p.Gives s.partner (heardOnce s.noticed l) t.partner ∧ t.noticed = (s.noticed || l.any Exchange.isNotice)
  | [], ⟨s, noticed⟩, ⟨t, noticed'⟩ => by simp [Partner.Gives, heardOnce]
  | .asked q reply :: l, s, t => by
    rw [heardOnce_asked, Partner.Gives, p.gives_attending_iff l, Partner.Gives, and_assoc]
    rfl
  | .heard r :: l, s, t => by
    rw [Partner.Gives, p.gives_attending_iff l]
    cases r with
    | notice text =>
      obtain ⟨s, noticed⟩ := s
      cases noticed <;> simp [Partner.attending, heardOnce, Exchange.isNotice, Partner.Gives]
    | _ => simp [Partner.attending, heardOnce, Exchange.isNotice, Partner.Gives]

namespace Script

theorem answers_hear (r : Remark) (s : Attending Script) (m : Manner) :
    ((partner m).attending.hear r s).partner.answers = s.partner.answers := by
  cases r with
  | notice t =>
    dsimp only [Partner.attending]
    split <;> rfl
  | _ => rfl

theorem next_ok {q : Question} {s : Script} {a : Text} (h : .ok a = (next true q s).1) :
    s.answers = a :: (next true q s).2.answers ∧ offered q a = true := by
  unfold next at h ⊢
  split at h
  · cases h
  · rename_i a' rest hs
    dsimp only at h
    split at h
    · cases h
    · rename_i hoffered
      cases h
      exact ⟨hs, by simpa using hoffered⟩

theorem answer_checked_ok {q : Question} {s : Script} {a : Text} (h : .ok a = (answer .checked q s).1) :
    s.answers = a :: (answer .checked q s).2.answers ∧ offered q a = true := by
  unfold answer at h ⊢
  split at h
  · cases h
  · cases h
  · exact next_ok h
  · cases ‹Manner.checked = .unchecked›

theorem next_closed {q : Question} {s : Script} (h : .error .inputClosed = (next true q s).1) :
    (next true q s).2.answers = s.answers := by
  unfold next at h ⊢
  split at h
  · rfl
  · dsimp only at h
    split at h <;> cases h

theorem answer_checked_closed {q : Question} {s : Script} (h : .error .inputClosed = (answer .checked q s).1) :
    (answer .checked q s).2.answers = s.answers ∧ ∀ message, q ≠ .menu message [] := by
  unfold answer at h ⊢
  split at h
  · cases h
  · cases h
  · exact ⟨next_closed h, ‹_›⟩
  · cases ‹Manner.checked = .unchecked›


theorem answer_checked_of_offered {q : Question} {a : Text} {answers : List Text} {events : List Event}
    (h : offered q a = true) :
    answer .checked q ⟨a :: answers, events⟩ = (.ok a, ⟨answers, events ++ [.asked q]⟩) := by
  have hnext : answer .checked q ⟨a :: answers, events⟩ = next true q ⟨a :: answers, events ++ [.asked q]⟩ := by
    rcases q with ⟨message, _ | ⟨c, choices⟩⟩ | text
    · cases h
    · rfl
    · rfl
  rw [hnext]
  simp only [next, h, Bool.not_true, Bool.and_false, Bool.false_eq_true, if_false]

/-- **A script gives the replies of a talk** exactly when each may be given and they are its next answers. -/
theorem gives_checked_iff {l : List Exchange} {s t : Script} (h : ∀ x ∈ l, x.Answered) :
    (partner .checked).Gives s l t ↔
      (∀ x ∈ l, x.Fair) ∧ s.answers = replies l ++ t.answers ∧ t.events = s.events ++ l.map Exchange.event := by
  induction l generalizing s with
  | nil =>
    obtain ⟨answers, events⟩ := s
    obtain ⟨answers', events'⟩ := t
    have hreplies : replies [] = [] := rfl
    rw [Partner.Gives, Script.mk.injEq, hreplies, List.nil_append, List.map_nil, List.append_nil,
      and_iff_right (List.forall_mem_nil _), eq_comm]
  | cons x l ih =>
    have hl : ∀ x ∈ l, x.Answered := fun x hx => h x (List.mem_cons_of_mem _ hx)
    rcases x with ⟨q, e | a⟩ | r
    · exact absurd (h _ List.mem_cons_self) id
    · obtain ⟨answers, events⟩ := s
      -- either way the script behind this answer is known, and the rest is told from there
      rw [Partner.Gives, List.forall_mem_cons, replies_answered, List.map_cons]
      constructor
      · rintro ⟨ha, hgives⟩
        obtain ⟨hanswers, hoffered⟩ := answer_checked_ok ha
        obtain ⟨rest, rfl⟩ : ∃ rest, answers = a :: rest := ⟨_, hanswers⟩
        have hanswer : (partner .checked).answer q ⟨a :: rest, events⟩ = _ := answer_checked_of_offered hoffered
        rw [hanswer] at hgives
        obtain ⟨hfair, hreplies, hevents⟩ := (ih hl).1 hgives
        refine ⟨⟨hoffered, hfair⟩, congrArg (a :: ·) hreplies, ?_⟩
        rw [hevents, List.append_assoc]
        rfl
      · rintro ⟨⟨hoffered, hfair⟩, hanswers, hevents⟩
        dsimp only at hanswers hevents
        subst hanswers
        have hanswer : (partner .checked).answer q ⟨a :: replies l ++ t.answers, events⟩ = _ :=
          answer_checked_of_offered hoffered
        rw [hanswer]
        refine ⟨rfl, (ih hl).2 ⟨hfair, rfl, ?_⟩⟩
        rw [hevents, List.append_assoc]
        rfl
    · have hheard : (Exchange.heard r).Fair := trivial
      rw [Partner.Gives, ih hl, List.forall_mem_cons, and_iff_right hheard, replies_heard, List.map_cons,
        List.append_cons]
      rfl

variable {α : Type} {d : Dialogue α} {s t : Script} {result : α}

/-- **The talk of a run that has a result**: its answers were offered, and are those that the run takes. -/
theorem run_ok (h : d.run (partner .checked) s = (.ok result, t)) :
    d.Talk (d.transcript (partner .checked) s) (.ok result) ∧
    (∀ x ∈ d.transcript (partner .checked) s, x.Fair) ∧
    s.answers = replies (d.transcript (partner .checked) s) ++ t.answers ∧
    t.events = s.events ++ (d.transcript (partner .checked) s).map Exchange.event := by
  have htalk := d.talk_transcript (partner .checked) s
  have hgives := d.gives_transcript (partner .checked) s
  rw [h] at htalk hgives
  exact ⟨htalk, (gives_checked_iff (Dialogue.closes_of_talk d _ _ htalk).answered).1 hgives⟩

/-- **A talk that takes a script's answers is its run.** -/
theorem run_of_talk {l : List Exchange} (answers : List Text) (events : List Event) (htalk : d.Talk l (.ok result))
    (hfair : ∀ x ∈ l, x.Fair) :
    d.run (partner .checked) ⟨replies l ++ answers, events⟩ =
      (.ok result, ⟨answers, events ++ l.map Exchange.event⟩) :=
  Dialogue.run_eq_of_talk _ d l _ _ _ htalk
    ((gives_checked_iff (Dialogue.closes_of_talk d _ _ htalk).answered).2 ⟨hfair, rfl, rfl⟩)

end Script

namespace Session

open Dialogue

/-- The talk of a session with a checked script. -/
def scriptedTalk (catalog : Catalog) (answers : List Text) : List Exchange :=
  (command catalog).transcript (Script.partner .checked).attending ⟨Script.start answers, false⟩

theorem answered_heardOnce {l : List Exchange} (h : ∀ x ∈ l, x.Answered) (noticed : Bool) :
    ∀ x ∈ heardOnce noticed l, x.Answered := fun x hx => h x (mem_of_mem_heardOnce hx)

/-- **The talk of a session that gives a command.** -/
theorem composeWith_ok {catalog : Catalog} {answers : List Text} {cmd : Text} {t : Script}
    (h : composeWith (Script.partner .checked) catalog (Script.start answers) = (.ok cmd, t)) :
    (command catalog).Talk (scriptedTalk catalog answers) (.ok cmd) ∧
    (∀ x ∈ scriptedTalk catalog answers, x.Fair) ∧
    answers = replies (scriptedTalk catalog answers) ++ t.answers ∧
    t.events = (heardOnce false (scriptedTalk catalog answers)).map Exchange.event := by
  have htalk : (command catalog).Talk (scriptedTalk catalog answers) _ := talk_transcript _ _ _
  have hgives : (Script.partner .checked).attending.Gives _ (scriptedTalk catalog answers) _ := gives_transcript _ _ _
  rw [composeWith] at h
  cases hrun : (command catalog).run (Script.partner .checked).attending ⟨Script.start answers, false⟩ with
  | mk result u =>
    rw [hrun] at h htalk hgives
    obtain ⟨rfl, rfl⟩ := Prod.mk.inj h
    have hanswered := (closes_of_talk _ _ _ htalk).answered
    obtain ⟨hfair, hanswers, hevents⟩ :=
      (Script.gives_checked_iff (answered_heardOnce hanswered _)).1 ((Partner.gives_attending_iff _ _ _ _).1 hgives).1
    rw [replies_heardOnce] at hanswers
    exact ⟨htalk, fair_heardOnce_iff.1 hfair, hanswers, hevents⟩

/-- **A talk that takes the answers of a session is its talk.** -/
theorem composeWith_of_talk {catalog : Catalog} {l : List Exchange} {cmd : Text} (rest : List Text)
    (htalk : (command catalog).Talk l (.ok cmd)) (hfair : ∀ x ∈ l, x.Fair) :
    composeWith (Script.partner .checked) catalog (Script.start (replies l ++ rest)) =
      (.ok cmd, ⟨rest, (heardOnce false l).map Exchange.event⟩) := by
  have hanswered := (closes_of_talk _ _ _ htalk).answered
  have hscript : (Script.partner .checked).Gives (Script.start (replies l ++ rest)) (heardOnce false l)
      ⟨rest, (heardOnce false l).map Exchange.event⟩ := by
    rw [Script.gives_checked_iff (answered_heardOnce hanswered _), replies_heardOnce, fair_heardOnce_iff]
    exact ⟨hfair, rfl, rfl⟩
  have hgives : (Script.partner .checked).attending.Gives ⟨Script.start (replies l ++ rest), false⟩ l
      ⟨⟨rest, (heardOnce false l).map Exchange.event⟩, l.any Exchange.isNotice⟩ :=
    (Partner.gives_attending_iff _ _ _ _).2 ⟨hscript, rfl⟩
  unfold composeWith
  rw [run_eq_of_talk _ _ _ _ _ _ htalk hgives]

end Session
end CommandComposer
