import CommandComposer.Proofs.LineQuestions
/-!
# Leads — answers that take a dialogue to a result

A list of answers leads through a dialogue if it has a talk that takes them, one by one, and in which each may be given
(`Leads`).  Each form of dialogue is led through by what leads through its parts, so such talks are put together without
being written out, and taken apart again (`leads_bind_iff` and its siblings).  Without notices that is all there is to a
script's run (`exists_run_iff`).
-/
namespace CommandComposer
namespace Dialogue

variable {α β γ : Type}

/-- **Answers lead through a dialogue** to a result: it has a talk that takes them, and each may be given. -/
def Leads (d : Dialogue α) (answers : List Text) (a : α) : Prop :=
  ∃ l, d.Talk l (.ok a) ∧ (∀ x ∈ l, x.Given) ∧ replies l = answers

/-- **A script's run has a result exactly when its next answers lead to it**, where no notices are given. -/
theorem exists_run_iff {d : Dialogue α} (hplain : d.Says fun x => x.isNotice = false) {answers rest : List Text}
    {events : List Event} {a : α} :
    (∃ said, d.run (Script.partner .checked) ⟨answers, events⟩ = (.ok a, ⟨rest, said⟩)) ↔
      ∃ taken, d.Leads taken a ∧ answers = taken ++ rest := by
  constructor
  · rintro ⟨said, hrun⟩
    obtain ⟨htalk, hfair, hanswers, -⟩ := Script.run_ok hrun
    have hanswered := (closes_of_talk d _ _ htalk).answered
    exact ⟨_, ⟨_, htalk, fun x hx => ⟨hanswered x hx, hfair x hx, hplain _ _ htalk x hx⟩, rfl⟩, hanswers⟩
  · rintro ⟨_, ⟨l, htalk, hgiven, rfl⟩, rfl⟩
    exact ⟨_, Script.run_of_talk rest events htalk (fun x hx => (hgiven x hx).fair)⟩

theorem leads_done (a : α) : (done a).Leads [] a := ⟨[], ⟨rfl, rfl⟩, nofun, rfl⟩

theorem leads_done_iff {a b : α} {answers : List Text} : (done a).Leads answers b ↔ answers = [] ∧ b = a := by
  constructor
  · rintro ⟨_, ⟨rfl, h⟩, -, rfl⟩
    cases h
    exact ⟨rfl, rfl⟩
  · rintro ⟨rfl, rfl⟩
    exact leads_done b

theorem leads_tell {m : Remark} (h : (Exchange.heard m).Given) : (tell m).Leads [] () :=
  ⟨[.heard m], ⟨rfl, rfl⟩, List.forall_mem_singleton.2 h, rfl⟩

theorem leads_ask {q : Question} {a : Text} (h : Script.offered q a = true) : (ask q).Leads [a] a :=
  ⟨[.asked q (.ok a)], rfl, List.forall_mem_singleton.2 ⟨trivial, h, rfl⟩, rfl⟩

theorem leads_bind {d : Dialogue α} {next : α → Dialogue β} {answers answers' : List Text} {a : α} {b : β}
    (hd : d.Leads answers a) (hn : (next a).Leads answers' b) : (d >>= next).Leads (answers ++ answers') b := by
  obtain ⟨l, htalk, hgiven, rfl⟩ := hd
  obtain ⟨l', htalk', hgiven', rfl⟩ := hn
  exact ⟨l ++ l', (talk_bind_ok _ _ _ _).2 ⟨a, l, l', htalk, htalk', rfl⟩, List.forall_mem_append.2 ⟨hgiven, hgiven'⟩,
    replies_append l l'⟩

theorem leads_bind_iff {d : Dialogue α} {next : α → Dialogue β} {answers : List Text} {b : β} :
    (d >>= next).Leads answers b ↔
      ∃ a first last, d.Leads first a ∧ (next a).Leads last b ∧ answers = first ++ last := by
  constructor
  · rintro ⟨l, htalk, hgiven, rfl⟩
    obtain ⟨a, l₁, l₂, h₁, h₂, rfl⟩ := (talk_bind_ok _ _ _ _).1 htalk
    obtain ⟨hgiven₁, hgiven₂⟩ := List.forall_mem_append.1 hgiven
    exact ⟨a, _, _, ⟨l₁, h₁, hgiven₁, rfl⟩, ⟨l₂, h₂, hgiven₂, rfl⟩, replies_append l₁ l₂⟩
  · rintro ⟨a, first, last, hd, hn, rfl⟩
    exact leads_bind hd hn

theorem leads_ask_iff {q : Question} {a : Text} {answers : List Text} :
    (ask q).Leads answers a ↔ Script.offered q a = true ∧ answers = [a] := by
  constructor
  · rintro ⟨_, rfl, hgiven, rfl⟩
    exact ⟨(hgiven _ List.mem_cons_self).fair, rfl⟩
  · rintro ⟨h, rfl⟩
    exact leads_ask h

theorem leads_tell_bind {m : Remark} (h : (Exchange.heard m).Given) {next : Unit → Dialogue β} {answers : List Text}
    {b : β} (hn : (next ()).Leads answers b) : (tell m >>= next).Leads answers b :=
  leads_bind (leads_tell h) hn

theorem leads_tell_bind_iff {m : Remark} (h : (Exchange.heard m).Given) {next : Unit → Dialogue β} {answers : List Text}
    {b : β} : (tell m >>= next).Leads answers b ↔ (next ()).Leads answers b := by
  refine ⟨fun hleads => ?_, leads_tell_bind h⟩
  obtain ⟨_, _, last, ⟨_, ⟨rfl, -⟩, -, rfl⟩, hn, rfl⟩ := leads_bind_iff.1 hleads
  exact hn

theorem leads_refuse_iff {b : β} {reason : Text} {answers : List Text} {turn : Turn β γ} :
    (refuse b reason).Leads answers turn ↔ answers = [] ∧ turn = .again b := by
  unfold refuse
  exact (leads_tell_bind_iff (Exchange.given_message _ _)).trans leads_done_iff

variable {question : β → Question} {round : β → Text → Dialogue (Turn β γ)} {b : β} {raw : Text}

theorem leads_finish (h : Script.offered (question b) raw = true) {answers : List Text} {c : γ}
    (hround : (round b raw).Leads answers (.finish c)) : (rounds question round b).Leads (raw :: answers) c := by
  obtain ⟨l, htalk, hgiven, rfl⟩ := hround
  exact ⟨_, .finished b raw l c htalk, List.forall_mem_cons.2 ⟨⟨trivial, h, rfl⟩, hgiven⟩, replies_answered _ _ _⟩

theorem leads_again (h : Script.offered (question b) raw = true) {answers answers' : List Text} {b' : β} {c : γ}
    (hround : (round b raw).Leads answers (.again b')) (hrest : (rounds question round b').Leads answers' c) :
    (rounds question round b).Leads (raw :: (answers ++ answers')) c := by
  obtain ⟨l, htalk, hgiven, rfl⟩ := hround
  obtain ⟨l', htalk', hgiven', rfl⟩ := hrest
  refine ⟨_, .again b raw l b' l' _ htalk htalk', ?_, ?_⟩
  · exact List.forall_mem_cons.2 ⟨⟨trivial, h, rfl⟩, List.forall_mem_append.2 ⟨hgiven, hgiven'⟩⟩
  · rw [replies_answered, replies_append]

/-- **Rounds, one after the other**: what is so of a last round, and of a round whenever it is so of those behind it. -/
theorem leads_rounds_induction {P : β → List Text → γ → Prop}
    (hfinish : ∀ b raw answers c, (round b raw).Leads answers (.finish c) → P b (raw :: answers) c)
    (hagain : ∀ b raw answers b' answers' c, (round b raw).Leads answers (.again b') → P b' answers' c →
      P b (raw :: (answers ++ answers')) c)
    {answers : List Text} {c : γ} (h : (rounds question round b).Leads answers c) : P b answers c := by
  obtain ⟨l, htalk, hgiven, rfl⟩ := h
  rw [Talk] at htalk
  generalize hr : Except.ok c = r at htalk
  induction htalk with
  | unanswered => cases hr
  | failed => cases hr
  | finished b raw l c h =>
    cases hr
    obtain ⟨-, hgiven⟩ := List.forall_mem_cons.1 hgiven
    rw [replies_answered]
    exact hfinish b raw _ c ⟨l, h, hgiven, rfl⟩
  | again b raw l b' l' r h h' ih =>
    obtain ⟨-, hgiven⟩ := List.forall_mem_cons.1 hgiven
    obtain ⟨hgiven, hgiven'⟩ := List.forall_mem_append.1 hgiven
    rw [replies_answered, replies_append]
    exact hagain b raw _ b' _ c ⟨l, h, hgiven, rfl⟩ (ih hgiven' hr)

theorem leads_attempts {q : LineQuestion}
    (hrefuse : ∀ raw reason, q.refusal? raw = some reason → round b raw = refuse b reason) {refused answers : List Text}
    (hrefused : ∀ a ∈ refused, q.Refuses a) {c : γ} (h : (rounds (fun _ => .line q.text) round b).Leads answers c) :
    (rounds (fun _ => .line q.text) round b).Leads (refused ++ answers) c := by
  obtain ⟨l, htalk, hgiven, rfl⟩ := h
  refine ⟨q.attempts refused ++ l, LineQuestion.talk_rounds_attempts hrefuse htalk hrefused, ?_, ?_⟩
  · exact List.forall_mem_append.2 ⟨q.given_attempts refused, hgiven⟩
  · rw [replies_append, LineQuestion.replies_attempts]

theorem leads_askRequired {message : Text} {reader : Reader α} {refused : List Text} {raw : Text} {a : α}
    (hrefused : ∀ a ∈ refused, (LineQuestion.required message reader).Refuses a) (hread : reader raw.trim = .ok a) :
    (askRequired message reader).Leads (refused ++ [raw]) a := by
  refine ⟨_, talk_askRequired_iff.2 ⟨refused, .ok raw, hrefused, .inr ⟨raw, a, rfl, hread, rfl⟩, rfl⟩, ?_, ?_⟩
  · exact List.forall_mem_append.2
      ⟨LineQuestion.given_attempts _ refused, List.forall_mem_singleton.2 (Exchange.given_line _ _)⟩
  · rw [replies_append, LineQuestion.replies_attempts]
    rfl

theorem leads_askRequired_iff {message : Text} {reader : Reader α} {answers : List Text} {a : α} :
    (askRequired message reader).Leads answers a ↔
      ∃ refused raw, (∀ x ∈ refused, (LineQuestion.required message reader).Refuses x) ∧ reader raw.trim = .ok a ∧
        answers = refused ++ [raw] := by
  constructor
  · rintro ⟨l, htalk, -, rfl⟩
    obtain ⟨refused, reply, hrefused, ⟨e, -, hr⟩ | ⟨raw, a', rfl, hread, hr⟩, rfl⟩ := talk_askRequired_iff.1 htalk
    · cases hr
    · cases hr
      refine ⟨refused, raw, hrefused, hread, ?_⟩
      rw [replies_append, LineQuestion.replies_attempts]
      rfl
  · rintro ⟨refused, raw, hrefused, hread, rfl⟩
    exact leads_askRequired hrefused hread

theorem leads_askEscapable_back {message : Text} {reader : Reader α} {refused : List Text} {raw : Text}
    (hrefused : ∀ a ∈ refused, (LineQuestion.escapable message reader).Refuses a) (hback : goesBack raw = true) :
    (askEscapable message reader).Leads (refused ++ [raw]) .back := by
  refine leads_attempts (q := .escapable message reader)
    (fun raw reason h => LineQuestion.refuse_of_refusal? h _ _ _) hrefused ?_
  refine leads_finish rfl ?_
  rw [if_pos hback]
  exact leads_done _

end Dialogue

end CommandComposer
