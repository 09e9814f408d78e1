import CommandComposer.Dialogue
/-!
# Talk — what is said in a run, whoever the partner is

A dialogue's talks are all the exchanges it can lead to, with the result each of them has (`Talk`).  A run with a
partner has exactly one of them, the one in which the partner gives the replies (`talk_transcript`,
`gives_transcript`), and a talk whose replies a partner gives is the talk of its run (`run_eq_of_talk`).  So what is
true of every talk of a dialogue is true of every run, and two partners are compared by their replies alone.
-/
namespace CommandComposer

/-- **One exchange of a talk**: a question with the reply to it, or a remark. -/
inductive Exchange where
  | asked (question : Question) (reply : Except Error Text)
  | heard (remark : Remark)

structure Recorded (σ : Type) where
  partner : σ
  talk : List Exchange

variable {σ : Type}

/-- **A partner whose talk is taken down.** -/
def Partner.recorded (p : Partner σ) : Partner (Recorded σ) where
  answer q s := ((p.answer q s.partner).1, ⟨(p.answer q s.partner).2, s.talk ++ [.asked q (p.answer q s.partner).1]⟩)
  hear r s := ⟨p.hear r s.partner, s.talk ++ [.heard r]⟩
  left s := p.left s.partner
  left_answer_le q s := p.left_answer_le q s.partner
  left_answer_lt q s a h := p.left_answer_lt q s.partner a h
  left_hear_le r s := p.left_hear_le r s.partner

/-- **A partner gives the replies of a talk**, from one state to another. -/
def Partner.Gives (p : Partner σ) : σ → List Exchange → σ → Prop
  | s, [], t => t = s
  | s, .asked q reply :: l, t => reply = (p.answer q s).1 ∧ p.Gives (p.answer q s).2 l t
  | s, .heard r :: l, t => p.Gives (p.hear r s) l t

theorem Partner.gives_append (p : Partner σ) : ∀ (l l' : List Exchange) (s t : σ),
    p.Gives s (l ++ l') t ↔ ∃ u, p.Gives s l u ∧ p.Gives u l' t
  | [], l', s, t => by simp [Partner.Gives]
  | .asked q reply :: l, l', s, t => by
    simp only [List.cons_append, Partner.Gives, p.gives_append l l', and_assoc, exists_and_left]
  | .heard r :: l, l', s, t => by
    simp only [List.cons_append, Partner.Gives, p.gives_append l l']

namespace Dialogue

/-- **The talks of rounds**, given the talks of a round: a round opens with a question, and ends all of them if the
question or the round fails or the round has the result. -/
inductive RoundsTalk {β γ : Type} (question : β → Question)
    (talk : β → Text → List Exchange → Except Error (Turn β γ) → Prop) : β → List Exchange → Except Error γ → Prop where
  | unanswered (b : β) (e : Error) : RoundsTalk question talk b [.asked (question b) (.error e)] (.error e)
  | failed (b : β) (a : Text) (l : List Exchange) (e : Error) (h : talk b a l (.error e)) :
      RoundsTalk question talk b (.asked (question b) (.ok a) :: l) (.error e)
  | finished (b : β) (a : Text) (l : List Exchange) (c : γ) (h : talk b a l (.ok (.finish c))) :
      RoundsTalk question talk b (.asked (question b) (.ok a) :: l) (.ok c)
  | again (b : β) (a : Text) (l : List Exchange) (b' : β) (l' : List Exchange) (r : Except Error γ)
      (h : talk b a l (.ok (.again b'))) (h' : RoundsTalk question talk b' l' r) :
      RoundsTalk question talk b (.asked (question b) (.ok a) :: (l ++ l')) r

/-- **The talks of a dialogue, with their results.** -/
def Talk : {α : Type} → Dialogue α → List Exchange → Except Error α → Prop
  | _, .done a, l, r => l = [] ∧ r = .ok a
  | _, .fail e, l, r => l = [] ∧ r = .error e
  | _, .ask q, l, r => l = [.asked q r]
  | _, .tell m, l, r => l = [.heard m] ∧ r = .ok ()
  | _, .andThen d next, l, r =>
    (∃ e, d.Talk l (.error e) ∧ r = .error e) ∨ ∃ a l₁ l₂, d.Talk l₁ (.ok a) ∧ (next a).Talk l₂ r ∧ l = l₁ ++ l₂
  | _, .rounds question round b, l, r => RoundsTalk question (fun b a l r => (round b a).Talk l r) b l r

/-- **The talk of a run.** -/
def transcript {α : Type} (p : Partner σ) (d : Dialogue α) (s : σ) : List Exchange :=
  (d.run p.recorded ⟨s, []⟩).2.talk

/-- A recorded run is the run, and what it adds to the record is a talk whose replies the partner gives. -/
def RunsAsTalk {α : Type} (p : Partner σ) (d : Dialogue α) (s : σ) : Prop :=
  ∃ l, d.Talk l (d.run p s).1 ∧ p.Gives s l (d.run p s).2 ∧
    ∀ before, d.run p.recorded ⟨s, before⟩ = ((d.run p s).1, ⟨(d.run p s).2, before ++ l⟩)

theorem runsAsTalk_andThen (p : Partner σ) {α β : Type} (d : Dialogue α) (next : α → Dialogue β)
    (hd : ∀ s, d.RunsAsTalk p s) (hn : ∀ a s, (next a).RunsAsTalk p s) (s : σ) : (d.andThen next).RunsAsTalk p s := by
  obtain ⟨l, htalk, hgives, hrun⟩ := hd s
  unfold RunsAsTalk
  simp only [run, hrun]
  cases hr : d.run p s with
  | mk r t =>
    rw [hr] at htalk hgives
    cases r with
    | error e => exact ⟨l, .inl ⟨e, htalk, rfl⟩, hgives, fun _ => rfl⟩
    | ok a =>
      obtain ⟨l', htalk', hgives', hrun'⟩ := hn a t
      refine ⟨l ++ l', .inr ⟨a, l, l', htalk, htalk', rfl⟩, (p.gives_append l l' s _).2 ⟨t, hgives, hgives'⟩, ?_⟩
      intro before
      simp only [hrun', List.append_assoc]

theorem runsAsTalk_rounds (p : Partner σ) {β γ : Type} (question : β → Question)
    (round : β → Text → Dialogue (Turn β γ)) (hround : ∀ b a s, (round b a).RunsAsTalk p s) (b : β) (s : σ) :
    (rounds question round b).RunsAsTalk p s := by
  -- the answers that are left bound the rounds that are left
  induction hn : p.left s using Nat.strongRecOn generalizing b s with
  | ind n ih =>
    subst hn
    have hlt := p.left_answer_lt (question b) s
    unfold RunsAsTalk
    rw [run_rounds]
    cases ha : p.answer (question b) s with
    | mk reply t =>
      rw [ha] at hlt
      have hasked : ∀ {l : List Exchange} {v : σ}, p.Gives t l v → p.Gives s (.asked (question b) reply :: l) v :=
        fun h => ⟨by rw [ha], by rw [ha]; exact h⟩
      have harec : ∀ before, p.recorded.answer (question b) ⟨s, before⟩ =
          (reply, ⟨t, before ++ [.asked (question b) reply]⟩) := fun before => by simp only [Partner.recorded, ha]
      cases reply with
      | error e =>
        refine ⟨_, .unanswered b e, hasked rfl, fun before => ?_⟩
        rw [run_rounds, harec]
      | ok a =>
        obtain ⟨l, htalk, hgives, hrun⟩ := hround b a t
        have hle := left_run_le p (round b a) t
        cases hr : (round b a).run p t with
        | mk turn u =>
          rw [hr] at htalk hgives hle hrun
          simp only [hr]
          rcases turn with e | ⟨b' | c⟩
          · refine ⟨_, .failed b a l e htalk, hasked hgives, fun before => ?_⟩
            rw [run_rounds, harec]
            simp only [hrun, List.append_assoc, List.cons_append, List.nil_append]
          · obtain ⟨l', htalk', hgives', hrun'⟩ := ih (p.left u) (Nat.lt_of_le_of_lt hle (hlt a rfl)) b' u rfl
            refine ⟨_, .again b a l b' l' _ htalk htalk', hasked ((p.gives_append ..).2 ⟨u, hgives, hgives'⟩), ?_⟩
            intro before
            rw [run_rounds, harec]
            simp only [hrun, hrun', List.append_assoc, List.cons_append, List.nil_append]
          · refine ⟨_, .finished b a l c htalk, hasked hgives, fun before => ?_⟩
            rw [run_rounds, harec]
            simp only [hrun, List.append_assoc, List.cons_append, List.nil_append]

/-- **Every run is a talk**, by induction on the dialogue. -/
theorem runsAsTalk (p : Partner σ) {α : Type} (d : Dialogue α) : ∀ s : σ, d.RunsAsTalk p s := by
  induction d with
  | done a => exact fun s => ⟨[], ⟨rfl, rfl⟩, rfl, fun before => by simp [run]⟩
  | fail e => exact fun s => ⟨[], ⟨rfl, rfl⟩, rfl, fun before => by simp [run]⟩
  | ask q => exact fun s => ⟨[.asked q (p.answer q s).1], rfl, ⟨rfl, rfl⟩, fun before => rfl⟩
  | tell r => exact fun s => ⟨[.heard r], ⟨rfl, rfl⟩, rfl, fun before => rfl⟩
  | andThen d next hd hn => exact runsAsTalk_andThen p d next hd hn
  | rounds question round b ih => exact runsAsTalk_rounds p question round ih b

theorem talk_transcript (p : Partner σ) {α : Type} (d : Dialogue α) (s : σ) :
    d.Talk (d.transcript p s) (d.run p s).1 := by
  obtain ⟨l, htalk, -, hrun⟩ := runsAsTalk p d s
  rwa [transcript, hrun]

theorem gives_transcript (p : Partner σ) {α : Type} (d : Dialogue α) (s : σ) :
    p.Gives s (d.transcript p s) (d.run p s).2 := by
  obtain ⟨l, -, hgives, hrun⟩ := runsAsTalk p d s
  rwa [transcript, hrun]

theorem run_rounds_answered (p : Partner σ) {β γ : Type} (question : β → Question)
    (round : β → Text → Dialogue (Turn β γ)) {b : β} {s : σ} {a : Text} (h : .ok a = (p.answer (question b) s).1) :
    (rounds question round b).run p s =
      match (round b a).run p (p.answer (question b) s).2 with
      | (.error e, u) => (.error e, u)
      | (.ok (.finish c), u) => (.ok c, u)
      | (.ok (.again b'), u) => (rounds question round b').run p u := by
  rw [run_rounds]
  generalize p.answer (question b) s = reply at h ⊢
  rcases reply with ⟨reply, t⟩
  obtain rfl : .ok a = reply := h
  rfl

theorem run_eq_of_roundsTalk (p : Partner σ) {β γ : Type} (question : β → Question)
    (round : β → Text → Dialogue (Turn β γ))
    (hround : ∀ b a l r s t, (round b a).Talk l r → p.Gives s l t → (round b a).run p s = (r, t))
    {b : β} {l : List Exchange} {r : Except Error γ}
    (h : RoundsTalk question (fun b a l r => (round b a).Talk l r) b l r) :
    ∀ s t, p.Gives s l t → (rounds question round b).run p s = (r, t) := by
  induction h with
  | unanswered b e =>
    rintro s t ⟨hreply, rfl⟩
    have hanswer : p.answer (question b) s = (.error e, (p.answer (question b) s).2) := Prod.ext hreply.symm rfl
    rw [run_rounds, hanswer]
  | failed b a l e htalk =>
    rintro s t ⟨hreply, hgives⟩
    rw [run_rounds_answered p question round hreply, hround b a l _ _ t htalk hgives]
  | finished b a l c htalk =>
    rintro s t ⟨hreply, hgives⟩
    rw [run_rounds_answered p question round hreply, hround b a l _ _ t htalk hgives]
  | again b a l b' l' r htalk _ ih =>
    rintro s t ⟨hreply, hgives⟩
    obtain ⟨u, hgives, hgives'⟩ := (p.gives_append l l' _ t).1 hgives
    rw [run_rounds_answered p question round hreply, hround b a l _ _ u htalk hgives]
    exact ih u t hgives'

/-- **A talk whose replies a partner gives is its run**, by induction on the dialogue. -/
theorem run_eq_of_talk (p : Partner σ) {α : Type} (d : Dialogue α) :
    ∀ (l : List Exchange) (r : Except Error α) (s t : σ), d.Talk l r → p.Gives s l t → d.run p s = (r, t) := by
  induction d with
  | done a =>
    rintro l r s t ⟨rfl, rfl⟩ rfl
    rfl
  | fail e =>
    rintro l r s t ⟨rfl, rfl⟩ rfl
    rfl
  | ask q =>
    rintro l r s t rfl ⟨rfl, rfl⟩
    rfl
  | tell m =>
    rintro l r s t ⟨rfl, rfl⟩ rfl
    rfl
  | andThen d next hd hn =>
    rintro l r s t (⟨e, htalk, rfl⟩ | ⟨a, l₁, l₂, htalk, htalk', rfl⟩) hgives
    · rw [run, hd l _ s t htalk hgives]
    · obtain ⟨u, hgives, hgives'⟩ := (p.gives_append l₁ l₂ s t).1 hgives
      rw [run, hd l₁ _ s u htalk hgives]
      exact hn a l₂ r u t htalk' hgives'
  | rounds question round b ih => exact fun l r s t h => run_eq_of_roundsTalk p question round ih h s t

end Dialogue
end CommandComposer
