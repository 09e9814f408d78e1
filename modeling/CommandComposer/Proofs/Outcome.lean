import CommandComposer.Dialogue.Asking
import CommandComposer.Proofs.Talk
/-!
# Outcome — what a dialogue results in and what it says

Properties of a dialogue that hold whoever the partner is, each with one rule per form of dialogue: a successful talk
is made of the successful talks of its parts (`talk_bind_ok`, `RoundsTalk.exists_finish`), a question that gets no
answer ends its talk (`closes_of_talk`), and all that is said is said by a part (`Says`).  Both ways of asking again are
one loop, which asks until an answer settles the matter (`askUntil`); so an answer that is asked for until it is
accepted is the last one given, read without the white space around it (`talk_askRequired`, `talk_askEscapable`).
-/
namespace CommandComposer

/-- An exchange that is not a question without an answer. -/
def Exchange.Answered : Exchange → Prop
  | .asked _ (.error _) => False
  | _ => True

namespace Dialogue

variable {α β γ : Type}

theorem talk_bind (d : Dialogue α) (next : α → Dialogue β) (l : List Exchange) (r : Except Error β) :
    (d >>= next).Talk l r ↔ (∃ e, d.Talk l (.error e) ∧ r = .error e) ∨
      ∃ a l₁ l₂, d.Talk l₁ (.ok a) ∧ (next a).Talk l₂ r ∧ l = l₁ ++ l₂ := Iff.rfl

/-- **A successful talk of two dialogues is one of the first and then one of the second.** -/
theorem talk_bind_ok (d : Dialogue α) (next : α → Dialogue β) (l : List Exchange) (b : β) :
    (d >>= next).Talk l (.ok b) ↔ ∃ a l₁ l₂, d.Talk l₁ (.ok a) ∧ (next a).Talk l₂ (.ok b) ∧ l = l₁ ++ l₂ := by
  simp [talk_bind]

theorem talk_tell_bind (m : Remark) (next : Unit → Dialogue β) (l : List Exchange) (r : Except Error β) :
    (tell m >>= next).Talk l r ↔ ∃ l', (next ()).Talk l' r ∧ l = .heard m :: l' := by
  constructor
  · rintro (⟨e, ⟨-, he⟩, -⟩ | ⟨_, l₁, l₂, ⟨rfl, -⟩, h, rfl⟩)
    · cases he
    · exact ⟨l₂, h, rfl⟩
  · rintro ⟨l', h, rfl⟩
    exact .inr ⟨(), [.heard m], l', ⟨rfl, rfl⟩, h, rfl⟩

theorem talk_tell_done (m : Remark) (a : α) (l : List Exchange) (r : Except Error α) :
    (tell m >>= fun _ => done a).Talk l r ↔ l = [.heard m] ∧ r = .ok a := by
  rw [talk_tell_bind]
  constructor
  · rintro ⟨_, ⟨rfl, rfl⟩, rfl⟩
    exact ⟨rfl, rfl⟩
  · rintro ⟨rfl, rfl⟩
    exact ⟨[], ⟨rfl, rfl⟩, rfl⟩

theorem talk_ask_bind_ok (q : Question) (next : Text → Dialogue β) (l : List Exchange) (b : β) :
    (ask q >>= next).Talk l (.ok b) ↔ ∃ a l', (next a).Talk l' (.ok b) ∧ l = .asked q (.ok a) :: l' := by
  simp [talk_bind_ok, Talk]

theorem talk_ofExcept (x : Except Error α) (l : List Exchange) (r : Except Error α) :
    (ofExcept x).Talk l r ↔ l = [] ∧ r = x := by
  cases x <;> rfl

/-- **How rounds come to a result**: the last round, whose state satisfies whatever every other round keeps, finishes
with it. -/
theorem RoundsTalk.exists_finish {question : β → Question}
    {talk : β → Text → List Exchange → Except Error (Turn β γ) → Prop} (inv : β → Prop)
    (hstep : ∀ b a l b', inv b → talk b a l (.ok (.again b')) → inv b') {b : β} {l : List Exchange}
    {r : Except Error γ} (h : RoundsTalk question talk b l r) {c : γ} (hr : r = .ok c) (hb : inv b) :
    ∃ before b' a l', inv b' ∧ talk b' a l' (.ok (.finish c)) ∧ l = before ++ .asked (question b') (.ok a) :: l' := by
  induction h with
  | unanswered b e => cases hr
  | failed b a l e h => cases hr
  | finished b a l c' h =>
    cases hr
    exact ⟨[], b, a, l, hb, h, rfl⟩
  | again b a l b' l' r h _ ih =>
    obtain ⟨before, b'', a', l'', hinv, hfin, rfl⟩ := ih hr (hstep b a l b' hb h)
    exact ⟨.asked (question b) (.ok a) :: (l ++ before), b'', a', l'', hinv, hfin, by simp⟩

/-- **Where a talk stops**: behind questions that are answered, or at one that is not, with its error. -/
def Closes (l : List Exchange) (r : Except Error α) : Prop :=
  (∀ x ∈ l, x.Answered) ∨
    ∃ before q e, (∀ x ∈ before, x.Answered) ∧ l = before ++ [.asked q (.error e)] ∧ r = .error e

theorem Closes.answered {l : List Exchange} {a : α} (h : Closes l (.ok a)) : ∀ x ∈ l, x.Answered := by
  rcases h with h | ⟨_, _, _, -, -, hr⟩
  · exact h
  · cases hr

theorem Closes.append {l l' : List Exchange} {r : Except Error α} (h : ∀ x ∈ l, x.Answered) (h' : Closes l' r) :
    Closes (l ++ l') r := by
  rcases h' with h' | ⟨before, q, e, hbefore, rfl, rfl⟩
  · exact .inl (List.forall_mem_append.2 ⟨h, h'⟩)
  · exact .inr ⟨l ++ before, q, e, List.forall_mem_append.2 ⟨h, hbefore⟩, by simp, rfl⟩

theorem Closes.of_error {l : List Exchange} {e : Error} (h : Closes l (.error e : Except Error α)) :
    Closes l (.error e : Except Error β) := by
  rcases h with h | ⟨before, q, e', hbefore, hl, hr⟩
  · exact .inl h
  · cases hr
    exact .inr ⟨before, q, e, hbefore, hl, rfl⟩

theorem Closes.asked {q : Question} {a : Text} {l : List Exchange} {r : Except Error α} (h : Closes l r) :
    Closes (.asked q (.ok a) :: l) r :=
  Closes.append (l := [_]) (by simp [Exchange.Answered]) h

/-- **An unanswered question ends its talk**, by induction on the dialogue. -/
theorem closes_of_talk (d : Dialogue α) : ∀ l r, d.Talk l r → Closes l r := by
  induction d with
  | done a =>
    rintro l r ⟨rfl, -⟩
    exact .inl nofun
  | fail e =>
    rintro l r ⟨rfl, -⟩
    exact .inl nofun
  | ask q =>
    rintro l r rfl
    cases r with
    | ok a => exact Closes.asked (.inl nofun)
    | error e => exact .inr ⟨[], q, e, nofun, rfl, rfl⟩
  | tell m =>
    rintro l r ⟨rfl, -⟩
    exact .inl (by simp [Exchange.Answered])
  | andThen d next hd hn =>
    rintro l r (⟨e, h, rfl⟩ | ⟨a, l₁, l₂, h₁, h₂, rfl⟩)
    · exact (hd l _ h).of_error
    · exact .append (hd l₁ _ h₁).answered (hn a l₂ r h₂)
  | rounds question round b ih =>
    intro l r h
    induction h with
    | unanswered b e => exact .inr ⟨[], question b, e, nofun, rfl, rfl⟩
    | failed b a l e h => exact (ih b a l _ h).of_error.asked
    | finished b a l c h => exact Closes.asked (.inl (ih b a l _ h).answered)
    | again b a l b' l' r h _ ih' => exact (Closes.append (ih b a l _ h).answered ih').asked

theorem talk_refuse {state : β} {reason : Text} {l : List Exchange} {r : Except Error (Turn β γ)}
    (h : (refuse state reason).Talk l r) : l = [.heard (.message .error reason)] ∧ r = .ok (.again state) :=
  (talk_tell_done _ _ _ _).1 h

/-- **Asks until an answer settles the matter**; a reason why it does not is told. -/
def askUntil (q : Question) (settle : Text → Except Text γ) : Dialogue γ :=
  rounds (fun _ : Unit => q)
    (fun _ raw =>
      match settle raw with
      | .ok c => done (.finish c)
      | .error reason => refuse () reason)
    ()

/-- Going back comes before reading. -/
def orBack (reader : Reader α) (raw : Text) : Except Text (Answer α) :=
  if goesBack raw then .ok .back else (reader raw.trim).map Answer.value

theorem orBack_eq_value {reader : Reader α} {raw : Text} {a : α} (h : orBack reader raw = .ok (.value a)) :
    goesBack raw = false ∧ reader raw.trim = .ok a := by
  unfold orBack at h
  split at h
  · cases h
  · rename_i hback
    cases hread : reader raw.trim with
    | error reason => rw [hread] at h; cases h
    | ok a' =>
      rw [hread] at h
      cases h
      exact ⟨by simpa using hback, rfl⟩

theorem askRequired_eq (message : Text) (reader : Reader α) :
    askRequired message reader = askUntil (required message) fun raw => reader raw.trim := rfl

/-- **Both ways of asking again are one**: where one may go back, that settles the matter too. -/
theorem askEscapable_eq (message : Text) (reader : Reader α) :
    askEscapable message reader = askUntil (escapable message) (orBack reader) := by
  unfold askEscapable askUntil orBack
  congr 1
  funext _ raw
  split
  · rfl
  · cases reader raw.trim <;> rfl

theorem talk_askUntil {q : Question} {settle : Text → Except Text γ} {l : List Exchange} {c : γ}
    (h : (askUntil q settle).Talk l (.ok c)) :
    ∃ before raw, settle raw = .ok c ∧ l = before ++ [.asked q (.ok raw)] := by
  obtain ⟨before, _, raw, l', -, hfin, rfl⟩ := h.exists_finish (fun _ => True) (fun _ _ _ _ _ _ => trivial) rfl trivial
  refine ⟨before, raw, ?_⟩
  dsimp only at hfin
  split at hfin
  · rename_i c' hsettle
    obtain ⟨rfl, heq⟩ := hfin
    cases heq
    exact ⟨hsettle, rfl⟩
  · cases (talk_refuse hfin).2

/-- **An answer asked for until it is accepted** is the last one given, as the reader reads it. -/
theorem talk_askRequired {message : Text} {reader : Reader α} {l : List Exchange} {a : α}
    (h : (askRequired message reader).Talk l (.ok a)) :
    ∃ before raw, reader raw.trim = .ok a ∧ l = before ++ [.asked (required message) (.ok raw)] := by
  rw [askRequired_eq] at h
  exact talk_askUntil h

/-- **An answer that may be backed out of** is the last one given, as the reader reads it, and does not go back. -/
theorem talk_askEscapable {message : Text} {reader : Reader α} {l : List Exchange} {a : α}
    (h : (askEscapable message reader).Talk l (.ok (.value a))) :
    ∃ before raw, goesBack raw = false ∧ reader raw.trim = .ok a ∧
      l = before ++ [.asked (escapable message) (.ok raw)] := by
  rw [askEscapable_eq] at h
  obtain ⟨before, raw, hsettle, rfl⟩ := talk_askUntil h
  obtain ⟨hback, hread⟩ := orBack_eq_value hsettle
  exact ⟨before, raw, hback, hread, rfl⟩

theorem readIf_eq_ok {accepts : Text → Bool} {reason t v : Text} (h : readIf accepts reason t = .ok v) :
    v = t ∧ accepts t = true := by
  unfold readIf at h
  split at h
  · cases h
    exact ⟨rfl, ‹_›⟩
  · cases h

/-- **All that a dialogue says satisfies `P`**, whoever the partner is. -/
def Says (P : Exchange → Prop) (d : Dialogue α) : Prop := ∀ l r, d.Talk l r → ∀ x ∈ l, P x

variable {P : Exchange → Prop}

theorem says_done (a : α) : (done a).Says P := by
  rintro l r ⟨rfl, -⟩ x hx
  cases hx

theorem says_fail (e : Error) : (fail e : Dialogue α).Says P := by
  rintro l r ⟨rfl, -⟩ x hx
  cases hx

theorem says_ask {q : Question} (h : ∀ r, P (.asked q r)) : (ask q).Says P := by
  rintro l r rfl x hx
  rw [List.mem_singleton.1 hx]
  exact h r

theorem says_tell {m : Remark} (h : P (.heard m)) : (tell m).Says P := by
  rintro l r ⟨rfl, -⟩ x hx
  rwa [List.mem_singleton.1 hx]

theorem says_bind {d : Dialogue α} {next : α → Dialogue β} (hd : d.Says P) (hn : ∀ a, (next a).Says P) :
    (d >>= next).Says P := by
  rintro l r (⟨e, h, -⟩ | ⟨a, l₁, l₂, h₁, h₂, rfl⟩) x hx
  · exact hd l _ h x hx
  · rcases List.mem_append.1 hx with hx | hx
    · exact hd l₁ _ h₁ x hx
    · exact hn a l₂ r h₂ x hx

theorem says_rounds {question : β → Question} {round : β → Text → Dialogue (Turn β γ)} {b : β}
    (hq : ∀ b r, P (.asked (question b) r)) (hround : ∀ b a, (round b a).Says P) :
    (rounds question round b).Says P := by
  intro l r h
  induction h with
  | unanswered b e => simpa using hq b _
  | failed b a l e h => exact List.forall_mem_cons.2 ⟨hq b _, hround b a l _ h⟩
  | finished b a l c h => exact List.forall_mem_cons.2 ⟨hq b _, hround b a l _ h⟩
  | again b a l b' l' r h _ ih =>
    exact List.forall_mem_cons.2 ⟨hq b _, List.forall_mem_append.2 ⟨hround b a l _ h, ih⟩⟩

theorem says_refuse {state : β} {reason : Text} (h : P (.heard (.message .error reason))) :
    (refuse state reason : Dialogue (Turn β γ)).Says P :=
  says_bind (says_tell h) (fun _ => says_done _)

theorem says_askUntil {q : Question} {settle : Text → Except Text γ} (hq : ∀ r, P (.asked q r))
    (he : ∀ reason, P (.heard (.message .error reason))) : (askUntil q settle).Says P := by
  refine says_rounds (fun _ => hq) (fun _ raw => ?_)
  split
  · exact says_done _
  · exact says_refuse (he _)

theorem says_askRequired {message : Text} {reader : Reader α} (hq : ∀ r, P (.asked (required message) r))
    (he : ∀ reason, P (.heard (.message .error reason))) : (askRequired message reader).Says P := by
  rw [askRequired_eq]
  exact says_askUntil hq he

theorem says_askEscapable {message : Text} {reader : Reader α} (hq : ∀ r, P (.asked (escapable message) r))
    (he : ∀ reason, P (.heard (.message .error reason))) : (askEscapable message reader).Says P := by
  rw [askEscapable_eq]
  exact says_askUntil hq he

end Dialogue
end CommandComposer
