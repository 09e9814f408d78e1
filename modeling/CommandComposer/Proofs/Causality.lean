import CommandComposer.Proofs.Accounting
import CommandComposer.Proofs.Swapping
/-!
# Causality — a run knows no more than the answers it takes

A talk may stop at any of its questions, if that question gets no answer (`Dialogue.talk_cut`).  The answers that serve a
talk serve it whatever follows them (`Script.exists_serving`), and fewer of them serve it up to the first question that
they leave without an answer (`Script.serves_cut`).  So a session does not look beyond the answers that it takes, and
with fewer of them it finds its input closed and gives no command (`Session.causal_in_answers`).
-/
namespace CommandComposer
namespace Dialogue

variable {α β γ : Type} {q : Question} {reply : Except Error Text}

theorem roundsTalk_cut (e : Error) {question : β → Question} {round : β → Text → Dialogue (Turn β γ)}
    (hround : ∀ b a before after r, (round b a).Talk (before ++ .asked q reply :: after) r →
      (round b a).Talk (before ++ [.asked q (.error e)]) (.error e))
    {b : β} {l : List Exchange} {r : Except Error γ}
    (h : RoundsTalk question (fun b a l r => (round b a).Talk l r) b l r) :
    ∀ before after, before ++ .asked q reply :: after = l →
      RoundsTalk question (fun b a l r => (round b a).Talk l r) b (before ++ [.asked q (.error e)]) (.error e) := by
  induction h with
  | unanswered b e' =>
    rintro (_ | ⟨x, before⟩) after hl
    · cases hl
      exact .unanswered b e
    · exact absurd (List.cons.inj hl).2 (List.append_ne_nil_of_right_ne_nil _ (List.cons_ne_nil _ _))
  | failed b a l e' htalk =>
    rintro (_ | ⟨x, before⟩) after hl
    · cases hl
      exact .unanswered b e
    · obtain ⟨rfl, rfl⟩ := List.cons.inj hl
      exact .failed b a _ e (hround b a before after _ htalk)
  | finished b a l c htalk =>
    rintro (_ | ⟨x, before⟩) after hl
    · cases hl
      exact .unanswered b e
    · obtain ⟨rfl, rfl⟩ := List.cons.inj hl
      exact .failed b a _ e (hround b a before after _ htalk)
  | again b a l b' l' r htalk _ ih =>
    rintro (_ | ⟨x, before⟩) after hl
    · cases hl
      exact .unanswered b e
    · obtain ⟨rfl, htail⟩ := List.cons.inj hl
      -- the question is one of this round, or of those behind it
      rcases append_eq_append_cons htail.symm with ⟨mid, rfl, rfl⟩ | ⟨mid, rfl, rfl⟩
      · exact .failed b a _ e (hround b a before mid _ htalk)
      · rw [List.cons_append, List.append_assoc]
        exact .again b a l b' _ _ htalk (ih mid after rfl)

/-- **A talk may stop at any of its questions**, with the error that it gets for an answer; by induction on the
dialogue. -/
theorem talk_cut (e : Error) (d : Dialogue α) : ∀ (before after : List Exchange) (r : Except Error α),
    d.Talk (before ++ .asked q reply :: after) r → d.Talk (before ++ [.asked q (.error e)]) (.error e) := by
  induction d with
  | done a =>
    rintro before after r ⟨hl, -⟩
    exact absurd hl (List.append_ne_nil_of_right_ne_nil _ (List.cons_ne_nil _ _))
  | fail e' =>
    rintro before after r ⟨hl, -⟩
    exact absurd hl (List.append_ne_nil_of_right_ne_nil _ (List.cons_ne_nil _ _))
  | ask q' =>
    rintro (_ | ⟨x, before⟩) after r hl
    · cases hl
      rfl
    · exact absurd (List.cons.inj hl).2 (List.append_ne_nil_of_right_ne_nil _ (List.cons_ne_nil _ _))
  | tell m =>
    rintro (_ | ⟨x, before⟩) after r ⟨hl, -⟩
    · cases hl
    · exact absurd (List.cons.inj hl).2 (List.append_ne_nil_of_right_ne_nil _ (List.cons_ne_nil _ _))
  | andThen d next hd hn =>
    rintro before after r (⟨e', htalk, -⟩ | ⟨a, l₁, l₂, h₁, h₂, hl⟩)
    · exact .inl ⟨e, hd before after _ htalk, rfl⟩
    · rcases append_eq_append_cons hl.symm with ⟨mid, rfl, rfl⟩ | ⟨mid, rfl, rfl⟩
      · exact .inl ⟨e, hd before mid _ h₁, rfl⟩
      · exact .inr ⟨a, l₁, _, h₁, hn a mid after r h₂, List.append_assoc _ _ _⟩
  | rounds question round b ih => exact fun before after r h => roundsTalk_cut e ih h before after rfl

end Dialogue

namespace Script

variable {m : Manner}

/-- **The answers that a talk takes**: with any others behind them they serve it and leave those. -/
theorem exists_serving (hm : ∀ fault, m ≠ .broken fault) : ∀ {l : List Exchange} {answers left : List Text},
    (∀ x ∈ l, x.Offers) → (∀ x ∈ l, x.isClosed = false) → Serves m answers l left →
      ∃ taken, answers = taken ++ left ∧ ∀ rest, Serves m (taken ++ rest) l rest
  | [], answers, left, _, _, h => by
    obtain rfl : left = answers := h
    exact ⟨[], rfl, fun rest => rfl⟩
  | .heard r :: l, answers, left, hl, hopen, h => by
    obtain ⟨taken, rfl, htaken⟩ := exists_serving hm (List.forall_mem_cons.1 hl).2 (List.forall_mem_cons.1 hopen).2 h
    exact ⟨taken, rfl, htaken⟩
  | .asked q reply :: l, [], left, hl, hopen, h => by
    obtain ⟨hq, -⟩ := List.forall_mem_cons.1 hl
    obtain ⟨rfl, -⟩ := (serves_closed hm hq).1 h
    exact absurd (List.forall_mem_cons.1 hopen).1 Bool.noConfusion
  | .asked q reply :: l, a :: answers, left, hl, hopen, h => by
    obtain ⟨hq, hrest⟩ := List.forall_mem_cons.1 hl
    obtain ⟨hreply, hserves⟩ := (serves_taken hm hq a).1 h
    obtain ⟨taken, rfl, htaken⟩ := exists_serving hm hrest (List.forall_mem_cons.1 hopen).2 hserves
    exact ⟨a :: taken, rfl, fun rest => (serves_taken hm hq a).2 ⟨hreply, htaken rest⟩⟩

/-- **Fewer answers** serve a talk up to the question whose answer is the first that is missing. -/
theorem serves_cut (hm : ∀ fault, m ≠ .broken fault) {a : Text} {after : List Text} :
    ∀ {l : List Exchange} {before : List Text}, (∀ x ∈ l, x.Offers) → Serves m (before ++ a :: after) l [] →
      ∃ l₁ q reply l₂, l = l₁ ++ .asked q reply :: l₂ ∧ Serves m before (l₁ ++ [.asked q (.error .inputClosed)]) []
  | [], before, _, h => absurd h.symm (List.append_ne_nil_of_right_ne_nil _ (List.cons_ne_nil _ _))
  | .heard r :: l, before, hl, h => by
    obtain ⟨l₁, q, reply, l₂, rfl, hserves⟩ := serves_cut hm (List.forall_mem_cons.1 hl).2 h
    exact ⟨.heard r :: l₁, q, reply, l₂, rfl, hserves⟩
  | .asked q reply :: l, [], hl, h =>
    ⟨[], q, reply, l, rfl, (serves_closed hm (List.forall_mem_cons.1 hl).1).2 ⟨rfl, rfl⟩⟩
  | .asked q reply :: l, b :: before, hl, h => by
    obtain ⟨hq, hrest⟩ := List.forall_mem_cons.1 hl
    obtain ⟨hreply, hnext⟩ := (serves_taken hm hq b).1 h
    obtain ⟨l₁, q', reply', l₂, rfl, hserves⟩ := serves_cut hm hrest hnext
    exact ⟨.asked q reply :: l₁, q', reply', l₂, rfl, (serves_taken hm hq b).2 ⟨hreply, hserves⟩⟩

end Script

namespace Session

open Dialogue

theorem offers_command (catalog : Catalog) : (command catalog).Says Exchange.Offers :=
  fun l r htalk x hx => (Utterance.says_command catalog l r htalk x hx).offers

theorem composeWith_of_serves {m : Script.Manner} {catalog : Catalog} {answers left : List Text} {l : List Exchange}
    {r : Except Error Text} (htalk : (command catalog).Talk l r) (hserves : Script.Serves m answers l left) :
    composeWith (Script.partner m) catalog (Script.start answers) =
      (r, ⟨left, (heardOnce false l).map Exchange.event⟩) := by
  rw [composeWith, Script.run_of_serves m (offers_command catalog) ⟨Script.start answers, false⟩ htalk hserves]
  rfl

/-- **A session is causal in its answers.**  If it ends for another reason than that its input is closed, then with the
answers that it has taken, whatever follows them, it has the same result, records the same and leaves what follows; and
with only some of them it finds its input closed, leaves none, and records the beginning of the same. -/
theorem causal_in_answers (m : Script.Manner) (hm : ∀ fault, m ≠ .broken fault) (catalog : Catalog)
    (answers : List Text) (result : Except Error Text) (t : Script)
    (hrun : composeWith (Script.partner m) catalog (Script.start answers) = (result, t))
    (hresult : result ≠ .error .inputClosed) :
    ∃ taken, answers = taken ++ t.answers ∧
      (∀ rest, composeWith (Script.partner m) catalog (Script.start (taken ++ rest)) = (result, ⟨rest, t.events⟩)) ∧
      ∀ before after, taken = before ++ after → after ≠ [] →
        ∃ events, composeWith (Script.partner m) catalog (Script.start before) =
          (.error .inputClosed, ⟨[], events⟩) ∧ events <+: t.events := by
  obtain ⟨l, htalk, -, hserves⟩ := Script.exists_served_talk m (offers_command catalog) ⟨Script.start answers, false⟩
  generalize (command catalog).run (Script.partner m).attending ⟨Script.start answers, false⟩ = whole at htalk hserves
  obtain ⟨rfl, rfl⟩ := Prod.mk.inj (hrun.symm.trans (composeWith_of_serves htalk hserves))
  have hoffers := offers_command catalog l _ htalk
  have hopen : ∀ x ∈ l, x.isClosed = false := by
    have hcount := countP_closed (raises_command catalog) htalk
    rw [if_neg (fun h => hresult (endsClosed_iff.1 h))] at hcount
    exact fun x hx => Bool.eq_false_iff.2 (List.countP_eq_zero.1 hcount x hx)
  obtain ⟨taken, htaken, hmore⟩ := Script.exists_serving hm hoffers hopen hserves
  refine ⟨taken, htaken, fun rest => composeWith_of_serves htalk (hmore rest), fun before after hsplit hne => ?_⟩
  cases after with
  | nil => exact absurd rfl hne
  | cons a after =>
    -- the talk is cut at the question that would have taken the first of the answers left out
    have hall := hmore []
    rw [hsplit, List.append_nil] at hall
    obtain ⟨l₁, q, reply, l₂, rfl, hcut⟩ := Script.serves_cut hm hoffers hall
    refine ⟨_, composeWith_of_serves (talk_cut .inputClosed (command catalog) l₁ l₂ _ htalk) hcut, ?_⟩
    dsimp only
    rw [heardOnce_append, heardOnce_append, heardOnce_asked, heardOnce_asked, List.map_append, List.map_append,
      List.prefix_append_right_inj]
    exact ⟨_, rfl⟩

/-- A gift whose target is refined by nothing but a key that is not offered: the pick is taken, and what follows it is
not. -/
theorem causal_in_answers_unoffered :
    (∀ fault, Script.Manner.checked ≠ .broken fault) ∧
    ∃ t, composeWith (Script.partner .checked) (.unavailable "none")
        (Script.start ["give", "@p", "y", "colour", "red", "OK"]) = (.error (.unknownChoice "colour"), t) ∧
      ∃ taken, (["give", "@p", "y", "colour", "red", "OK"] : List Text) = taken ++ t.answers ∧
        (∀ rest, composeWith (Script.partner .checked) (.unavailable "none") (Script.start (taken ++ rest)) =
          (.error (.unknownChoice "colour"), ⟨rest, t.events⟩)) ∧
        ∀ before after, taken = before ++ after → after ≠ [] →
          ∃ events, composeWith (Script.partner .checked) (.unavailable "none") (Script.start before) =
            (.error .inputClosed, ⟨[], events⟩) ∧ events <+: t.events := by
  have hm : ∀ fault, Script.Manner.checked ≠ .broken fault := nofun
  exact ⟨hm, _, rfl, causal_in_answers .checked hm (.unavailable "none") _ _ _ rfl nofun⟩

end Session
end CommandComposer
