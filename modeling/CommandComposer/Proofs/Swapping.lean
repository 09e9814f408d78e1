import CommandComposer.Proofs.ScriptRun
/-!
# Swapping — two talks that differ in one place

Where a dialogue keeps nothing of an exchange, others may stand in its place and the talk goes on as before, to the same
result (`Swaps`), or to one of which the same is made (`Trades`).  Each has one rule per form of dialogue.  A script
whose answers are changed in such a place has the same result, leaves the same answers, and records the same but for
what was swapped (`Script.run_swap`, `Session.composeWith_swap`).
-/
namespace CommandComposer

theorem append_eq_append_cons {α : Type} {x : α} {after l₂ : List α} : ∀ {l₁ before : List α},
    l₁ ++ l₂ = before ++ x :: after →
      (∃ mid, l₁ = before ++ x :: mid ∧ after = mid ++ l₂) ∨ ∃ mid, before = l₁ ++ mid ∧ l₂ = mid ++ x :: after
  | [], before, h => .inr ⟨before, rfl, h⟩
  | y :: l₁, [], h => by
    obtain ⟨rfl, rfl⟩ := List.cons.inj h
    exact .inl ⟨l₁, rfl, rfl⟩
  | y :: l₁, z :: before, h => by
    obtain ⟨rfl, htail⟩ := List.cons.inj h
    rcases append_eq_append_cons htail with ⟨mid, rfl, rfl⟩ | ⟨mid, rfl, rfl⟩
    · exact .inl ⟨mid, rfl, rfl⟩
    · exact .inr ⟨mid, rfl, rfl⟩

namespace Dialogue

variable {α β γ δ : Type} {x : Exchange} {y : List Exchange}

/-- **Wherever `x` is said, `y` may be said for it**, and `f` makes the same of the result. -/
def Trades (x : Exchange) (y : List Exchange) (f : α → γ) (d : Dialogue α) : Prop :=
  ∀ before after r, d.Talk (before ++ x :: after) r →
    ∃ r', d.Talk (before ++ (y ++ after)) r' ∧ Except.map f r' = Except.map f r

/-- **Wherever `x` is said, `y` may be said for it**, to the same result. -/
def Swaps (x : Exchange) (y : List Exchange) (d : Dialogue α) : Prop :=
  ∀ before after r, d.Talk (before ++ x :: after) r → d.Talk (before ++ (y ++ after)) r

/-- The talks of `d` are talks of `d'`, and `f` makes the same of their results. -/
def Follows (f : α → γ) (d d' : Dialogue α) : Prop :=
  ∀ l r, d.Talk l r → ∃ r', d'.Talk l r' ∧ Except.map f r' = Except.map f r

theorem Swaps.trades {d : Dialogue α} (h : d.Swaps x y) (f : α → γ) : d.Trades x y f :=
  fun before after r htalk => ⟨r, h before after r htalk, rfl⟩

theorem swaps_of_unsaid {d : Dialogue α} (h : d.Says (· ≠ x)) : d.Swaps x y :=
  fun _ _ r htalk => absurd rfl (h _ r htalk x (List.mem_append_right _ List.mem_cons_self))

theorem follows_refl (f : α → γ) (d : Dialogue α) : d.Follows f d := fun _ r h => ⟨r, h, rfl⟩

theorem follows_done {f : α → γ} {a a' : α} (h : f a = f a') : (done a).Follows f (done a') := by
  rintro l r ⟨rfl, rfl⟩
  exact ⟨.ok a', ⟨rfl, rfl⟩, congrArg Except.ok h.symm⟩

theorem follows_bind {f : β → γ} (d : Dialogue α) {next next' : α → Dialogue β}
    (h : ∀ a, (next a).Follows f (next' a)) : (d >>= next).Follows f (d >>= next') := by
  rintro l r (⟨e, htalk, rfl⟩ | ⟨a, l₁, l₂, h₁, h₂, rfl⟩)
  · exact ⟨_, .inl ⟨e, htalk, rfl⟩, rfl⟩
  · obtain ⟨r', h₂', hr'⟩ := h a l₂ r h₂
    exact ⟨r', .inr ⟨a, l₁, l₂, h₁, h₂', rfl⟩, hr'⟩

theorem map_eq_ok {f : α → γ} {a : α} {r : Except Error α} (h : Except.map f r = .ok (f a)) :
    ∃ a', r = .ok a' ∧ f a' = f a := by
  cases r with
  | ok a' => exact ⟨a', rfl, Except.ok.inj h⟩
  | error e => cases h

theorem map_eq_error {f : α → γ} {e : Error} {r : Except Error α} (h : Except.map f r = .error e) : r = .error e := by
  cases r with
  | ok a => cases h
  | error e' => exact congrArg Except.error (Except.error.inj h)

/-- **One after the other**: what `f` makes of the first result has to be all that matters of it. -/
theorem trades_bind {f : α → γ} {g : β → δ} {d : Dialogue α} {next : α → Dialogue β} (hd : d.Trades x y f)
    (hsame : ∀ a a', f a = f a' → (next a).Follows g (next a')) (hn : ∀ a, (next a).Trades x y g) :
    (d >>= next).Trades x y g := by
  rintro before after r (⟨e, htalk, rfl⟩ | ⟨a, l₁, l₂, h₁, h₂, hl⟩)
  · obtain ⟨r', htalk', hr'⟩ := hd before after _ htalk
    rw [map_eq_error hr'] at htalk'
    exact ⟨_, .inl ⟨e, htalk', rfl⟩, rfl⟩
  · rcases append_eq_append_cons hl.symm with ⟨mid, rfl, rfl⟩ | ⟨mid, rfl, rfl⟩
    · obtain ⟨r', h₁', hr'⟩ := hd before mid _ h₁
      obtain ⟨a', rfl, ha'⟩ := map_eq_ok hr'
      obtain ⟨r'', h₂', hr''⟩ := hsame a a' ha'.symm l₂ r h₂
      exact ⟨r'', .inr ⟨a', _, l₂, h₁', h₂', by simp⟩, hr''⟩
    · obtain ⟨r', h₂', hr'⟩ := hn a mid after r h₂
      exact ⟨r', .inr ⟨a, l₁, _, h₁, h₂', by simp⟩, hr'⟩

theorem swaps_iff_trades_id {d : Dialogue α} : d.Swaps x y ↔ d.Trades x y id := by
  refine ⟨fun h => h.trades id, fun h before after r htalk => ?_⟩
  obtain ⟨r', htalk', hr'⟩ := h before after r htalk
  rw [Except.map_id] at hr'
  obtain rfl : r' = r := hr'
  exact htalk'

theorem swaps_bind {d : Dialogue α} {next : α → Dialogue β} (hd : d.Swaps x y) (hn : ∀ a, (next a).Swaps x y) :
    (d >>= next).Swaps x y := by
  refine swaps_iff_trades_id.2 (trades_bind (hd.trades id) ?_ (fun a => (hn a).trades id))
  rintro a _ rfl
  exact follows_refl id (next a)

/-- **Rounds** let `x` be swapped if it may be where it opens a round, and each round lets it: by induction on their
talk. -/
theorem swaps_rounds {question : β → Question} {round : β → Text → Dialogue (Turn β γ)}
    (hhead : ∀ b after r, (rounds question round b).Talk (x :: after) r →
      (rounds question round b).Talk (y ++ after) r)
    (hround : ∀ b a, (round b a).Swaps x y) (b : β) : (rounds question round b).Swaps x y := by
  let talks := RoundsTalk question fun b a l r => (round b a).Talk l r
  have hopens : ∀ {b l after r}, x :: after = l → talks b l r → talks b (y ++ after) r := by
    rintro b l after r rfl h
    exact hhead b after r h
  suffices ∀ {b l r}, talks b l r → ∀ before after, before ++ x :: after = l → talks b (before ++ (y ++ after)) r from
    fun before after r h => this h before after rfl
  intro b l r h
  -- the exchange opens these rounds, or it belongs to the round behind that, or to the ones behind the round
  induction h with
  | unanswered b e =>
    rintro (_ | ⟨z, before⟩) after hl
    · exact hopens hl (.unanswered b e)
    · exact absurd (List.cons.inj hl).2 (List.append_ne_nil_of_right_ne_nil _ (List.cons_ne_nil _ _))
  | failed b a l e h =>
    rintro (_ | ⟨z, before⟩) after hl
    · exact hopens hl (.failed b a l e h)
    · obtain ⟨rfl, rfl⟩ := List.cons.inj hl
      exact .failed b a _ e (hround b a before after _ h)
  | finished b a l c h =>
    rintro (_ | ⟨z, before⟩) after hl
    · exact hopens hl (.finished b a l c h)
    · obtain ⟨rfl, rfl⟩ := List.cons.inj hl
      exact .finished b a _ c (hround b a before after _ h)
  | again b a l b' l' r h hrest ih =>
    rintro (_ | ⟨z, before⟩) after hl
    · exact hopens hl (.again b a l b' l' r h hrest)
    · obtain ⟨rfl, htail⟩ := List.cons.inj hl
      rcases append_eq_append_cons htail.symm with ⟨mid, rfl, rfl⟩ | ⟨mid, rfl, rfl⟩
      · have hswapped := RoundsTalk.again b a _ b' l' r (hround b a before mid _ h) hrest
        simpa using hswapped
      · have hswapped := RoundsTalk.again b a l b' _ r h (ih mid after rfl)
        simpa using hswapped

end Dialogue

theorem Dialogue.Closes.answered_before {α : Type} {before after : List Exchange} {x : Exchange} {r : Except Error α}
    (h : Closes (before ++ x :: after) r) : ∀ z ∈ before, z.Answered := by
  rcases h with h | ⟨before', q, e, hbefore', hl, -⟩
  · exact fun z hz => h z (List.mem_append_left _ hz)
  · rcases append_eq_append_cons hl.symm with ⟨mid, rfl, -⟩ | ⟨mid, rfl, hlast⟩
    · exact fun z hz => hbefore' z (List.mem_append_left _ hz)
    · cases mid with
      | nil => exact fun z hz => hbefore' z (by simpa using hz)
      | cons z mid => exact absurd (List.cons.inj hlast).2.symm (by simp)

namespace Script

/-- What was recorded before does not matter to an answer, and stays. -/
theorem answer_events (q : Question) (s : Script) :
    ∃ more, (answer .checked q s).2.events = s.events ++ more ∧
      ∀ events, answer .checked q ⟨s.answers, events⟩ =
        ((answer .checked q s).1, ⟨(answer .checked q s).2.answers, events ++ more⟩) := by
  obtain ⟨answers, events⟩ := s
  rcases q with ⟨message, _ | ⟨c, choices⟩⟩ | text
  · exact ⟨[], (List.append_nil _).symm, fun events => by rw [List.append_nil]; rfl⟩
  · exact ⟨[.asked (.menu message (c :: choices))], by cases answers <;> rfl, fun events => by cases answers <;> rfl⟩
  · exact ⟨[.asked (.line text)], by cases answers <;> rfl, fun events => by cases answers <;> rfl⟩

theorem gives_events {l : List Exchange} {s t : Script} (h : (partner .checked).Gives s l t) :
    ∃ more, t.events = s.events ++ more ∧
      ∀ events, (partner .checked).Gives ⟨s.answers, events⟩ l ⟨t.answers, events ++ more⟩ := by
  induction l generalizing s with
  | nil =>
    obtain rfl : t = s := h
    exact ⟨[], (List.append_nil _).symm, fun events => by rw [List.append_nil]; rfl⟩
  | cons z l ih =>
    cases z with
    | asked q reply =>
      obtain ⟨hreply, hgives⟩ := h
      obtain ⟨first, hfirst, hanswer⟩ := answer_events q s
      obtain ⟨more, hmore, hl⟩ := ih hgives
      refine ⟨first ++ more, ?_, fun events => ?_⟩
      · rw [hmore, ← List.append_assoc, ← hfirst]
        rfl
      · have hnow : (partner .checked).answer q ⟨s.answers, events⟩ = _ := hanswer events
        rw [Partner.Gives, hnow, ← List.append_assoc]
        exact ⟨hreply, hl _⟩
    | heard r =>
      obtain ⟨more, hmore, hl⟩ := ih h
      refine ⟨.heard r.asMessage.1 r.asMessage.2 :: more, ?_, fun events => ?_⟩
      · rw [hmore, List.append_cons]
        rfl
      · rw [Partner.Gives, List.append_cons]
        exact hl _

/-- **A script with other answers in one place** gives the replies of the talk that differs in that place. -/
theorem gives_swap {before after : List Exchange} {x : Exchange} {s t : Script}
    (hbefore : ∀ z ∈ before, z.Answered) (hx : x.Answered) (h : (partner .checked).Gives s (before ++ x :: after) t) :
    ∃ rest more, s.answers = replies before ++ (replies [x] ++ rest) ∧
      t.events = s.events ++ (before.map Exchange.event ++ (x.event :: more)) ∧
      ∀ y : List Exchange, (∀ z ∈ y, z.Given) →
        (partner .checked).Gives ⟨replies before ++ (replies y ++ rest), s.events⟩ (before ++ (y ++ after))
          ⟨t.answers, s.events ++ (before.map Exchange.event ++ (y.map Exchange.event ++ more))⟩ := by
  obtain ⟨u, hu, hrest⟩ := (Partner.gives_append _ _ _ _ _).1 h
  obtain ⟨v, hv, hafter⟩ := (Partner.gives_append _ [x] after _ _).1 hrest
  obtain ⟨hfair, hanswers, hevents⟩ := (gives_checked_iff hbefore).1 hu
  obtain ⟨-, hreply, hevent⟩ := (gives_checked_iff (List.forall_mem_singleton.2 hx)).1 hv
  obtain ⟨more, hmore, hgives⟩ := gives_events hafter
  refine ⟨v.answers, more, hreply ▸ hanswers, ?_, fun y hy => ?_⟩
  · rw [hmore, hevent, hevents]
    simp
  · have hfirst : (partner .checked).Gives ⟨replies before ++ (replies y ++ v.answers), s.events⟩ before
        ⟨replies y ++ v.answers, s.events ++ before.map Exchange.event⟩ :=
      (gives_checked_iff hbefore).2 ⟨hfair, rfl, rfl⟩
    have hthen : (partner .checked).Gives ⟨replies y ++ v.answers, s.events ++ before.map Exchange.event⟩ y
        ⟨v.answers, s.events ++ before.map Exchange.event ++ y.map Exchange.event⟩ :=
      (gives_checked_iff (fun z hz => (hy z hz).answered)).2 ⟨fun z hz => (hy z hz).fair, rfl, rfl⟩
    have hlast := hgives (s.events ++ before.map Exchange.event ++ y.map Exchange.event)
    rw [List.append_assoc, List.append_assoc] at hlast
    refine (Partner.gives_append _ _ _ _ _).2 ⟨_, hfirst, ?_⟩
    exact (Partner.gives_append _ _ _ _ _).2 ⟨_, hthen, by simpa using hlast⟩

/-- **A run whose answers are changed where the dialogue lets them be swapped**: the result and the answers left are the
same, and so is the record but for what was swapped. -/
theorem run_swap {α : Type} {d : Dialogue α} {s t : Script} {result : Except Error α} {before after : List Exchange}
    {x : Exchange} (hrun : d.run (partner .checked) s = (result, t))
    (hl : d.transcript (partner .checked) s = before ++ x :: after) (hx : x.Answered) :
    ∃ rest more, s.answers = replies before ++ (replies [x] ++ rest) ∧
      t.events = s.events ++ (before.map Exchange.event ++ (x.event :: more)) ∧
      ∀ y : List Exchange, (∀ z ∈ y, z.Given) → d.Swaps x y →
        d.run (partner .checked) ⟨replies before ++ (replies y ++ rest), s.events⟩ =
          (result, ⟨t.answers, s.events ++ (before.map Exchange.event ++ (y.map Exchange.event ++ more))⟩) := by
  have htalk := d.talk_transcript (partner .checked) s
  have hgives := d.gives_transcript (partner .checked) s
  rw [hrun, hl] at htalk hgives
  have hbefore := (Dialogue.closes_of_talk d _ _ htalk).answered_before
  obtain ⟨rest, more, hanswers, hevents, hgives'⟩ := gives_swap hbefore hx hgives
  refine ⟨rest, more, hanswers, hevents, fun y hy hswap => ?_⟩
  exact Dialogue.run_eq_of_talk _ d _ _ _ _ (hswap before after _ htalk) (hgives' y hy)

end Script

namespace Session

/-- **A session whose answers are changed where composing lets them be swapped**: the command and the answers left are
the same, and so is the record but for what was swapped. -/
theorem composeWith_swap {catalog : Catalog} {answers : List Text} {result : Except Error Text} {t : Script}
    {before after : List Exchange} {x : Exchange}
    (hrun : composeWith (Script.partner .checked) catalog (Script.start answers) = (result, t))
    (hl : scriptedTalk catalog answers = before ++ x :: after) (hx : x.Answered ∧ x.isNotice = false) :
    ∃ rest more, answers = replies before ++ (replies [x] ++ rest) ∧
      t.events = (heardOnce false before).map Exchange.event ++ (x.event :: more) ∧
      ∀ y : List Exchange, (∀ z ∈ y, z.Given) → (command catalog).Swaps x y →
        composeWith (Script.partner .checked) catalog (Script.start (replies before ++ (replies y ++ rest))) =
          (result, ⟨t.answers, (heardOnce false before).map Exchange.event ++ (y.map Exchange.event ++ more)⟩) := by
  have htalk : (command catalog).Talk (scriptedTalk catalog answers) _ := Dialogue.talk_transcript _ _ _
  have hgives : (Script.partner .checked).attending.Gives _ (scriptedTalk catalog answers) _ :=
    Dialogue.gives_transcript _ _ _
  rw [composeWith] at hrun
  cases hcommand : (command catalog).run (Script.partner .checked).attending ⟨Script.start answers, false⟩ with
  | mk result' u =>
    rw [hcommand] at hrun htalk hgives
    obtain ⟨rfl, rfl⟩ := Prod.mk.inj hrun
    rw [hl] at htalk hgives
    have hbefore := (Dialogue.closes_of_talk _ _ _ htalk).answered_before
    obtain ⟨hscript, -⟩ := (Partner.gives_attending_iff _ _ _ _).1 hgives
    have hplain : ∀ noticed, heardOnce noticed (x :: after) = x :: heardOnce noticed after := fun noticed =>
      heardOnce_plain_append (List.forall_mem_singleton.2 hx.2) noticed after
    rw [heardOnce_append, hplain] at hscript
    obtain ⟨rest, more, hanswers, hevents, hgives'⟩ := Script.gives_swap (answered_heardOnce hbefore _) hx.1 hscript
    rw [replies_heardOnce] at hanswers hgives'
    refine ⟨rest, more, hanswers, hevents, fun y hy hswap => ?_⟩
    have hswapped := hgives' y hy
    rw [← heardOnce_plain_append (fun z hz => (hy z hz).plain), ← heardOnce_append] at hswapped
    rw [composeWith, Dialogue.run_eq_of_talk _ _ _ _ _ _ (hswap before after _ htalk)
      ((Partner.gives_attending_iff _ _ ⟨Script.start _, false⟩ ⟨_, _⟩).2 ⟨hswapped, rfl⟩)]
    rfl

end Session
end CommandComposer
