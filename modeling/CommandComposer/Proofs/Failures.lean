import CommandComposer.Proofs.Calls
import CommandComposer.Proofs.Composing
import CommandComposer.Proofs.Rendering
import CommandComposer.Terminal.Partner
/-!
# Failures — what a session fails with

A dialogue fails with the error of a question that got no answer, or with one of its own (`Dialogue.Raises`).  Composing
has none of its own but a pick that was not offered, and a draft that was composed has a value for every key of its
template; so a session fails for outward reasons only, or because a kind was picked that there is not
(`Session.talk_command_error`).  A script that is held to what is offered and a terminal never pick such a kind
(`Session.failures_outward`).
-/
namespace CommandComposer

variable {σ : Type}

/-- **Reasons outside the session**: the input, the stream, and what was picked. -/
inductive Error.Outward : Error → Prop where
  | inputClosed : Outward .inputClosed
  | stream (fault : Fault) : Outward (.stream fault)
  | unknownChoice (pick : Text) : Outward (.unknownChoice pick)

/-- **A partner that fails for outward reasons**, unless a menu has nothing to offer. -/
def Partner.Reliable (p : Partner σ) : Prop :=
  ∀ q s e, (p.answer q s).1 = .error e → e.Outward ∨ ∃ message text, q = .menu message [] ∧ e = .emptyMenu text

/-- **A partner that picks what is offered.** -/
def Partner.Fair (p : Partner σ) : Prop := ∀ q s a, (p.answer q s).1 = .ok a → Script.offered q a = true

theorem Partner.Reliable.attending {p : Partner σ} (h : p.Reliable) : p.attending.Reliable :=
  fun q s => h q s.partner

theorem Partner.Fair.attending {p : Partner σ} (h : p.Fair) : p.attending.Fair := fun q s => h q s.partner

theorem Partner.exists_answer (p : Partner σ) {q : Question} {reply : Except Error Text} :
    ∀ {l : List Exchange} {s t : σ}, p.Gives s l t → .asked q reply ∈ l → ∃ u, (p.answer q u).1 = reply
  | .asked q' reply' :: l, s, t, ⟨hreply, hgives⟩, h => by
    rcases List.mem_cons.1 h with heq | h
    · cases heq
      exact ⟨s, hreply.symm⟩
    · exact p.exists_answer hgives h
  | .heard r :: l, s, t, hgives, h => by
    rcases List.mem_cons.1 h with heq | h
    · cases heq
    · exact p.exists_answer (s := p.hear r s) hgives h

namespace Script

theorem next_error {checked : Bool} {q : Question} {s : Script} {e : Error} (h : (next checked q s).1 = .error e) :
    e.Outward := by
  unfold next at h
  split at h
  · cases h
    exact .inputClosed
  · dsimp only at h
    split at h
    · cases h
      exact .unknownChoice _
    · cases h

theorem reliable_partner (m : Manner) : (partner m).Reliable := by
  intro q s e h
  replace h : (answer m q s).1 = .error e := h
  unfold answer at h
  split at h
  · cases h
    exact .inl (.stream _)
  · cases h
    exact .inr ⟨_, _, rfl, rfl⟩
  · exact .inl (next_error h)
  · exact .inl (next_error h)

theorem fair_partner : (partner .checked).Fair := fun _ _ _ h => (answer_checked_ok h.symm).2

end Script

namespace Terminal

theorem write_error {t : Text} {s : Terminal} {e : Error} (h : s.write t = .error e) : e.Outward := by
  unfold write at h
  split at h
  · cases h
  · cases h
    exact .stream _

theorem line_error {s : Terminal} {e : Error} (h : s.line.1 = .error e) : e.Outward := by
  unfold line readLine at h
  split at h
  · cases h
    exact .inputClosed
  · dsimp only [lineText] at h
    split at h
    · cases h
    · cases h
      exact .stream _

/-- What a menu at a terminal may come to: an outward error, or the value of one of its entries. -/
def Picks (choices : List Choice) : Except Error Text → Prop
  | .error e => e.Outward
  | .ok a => ∃ c ∈ choices, c.value = a

theorem picks_pick (message : Text) (choices : List Choice) :
    ∀ (n : Nat) (s : Terminal), Picks choices (pick message choices n s).1
  | 0, _ => .inputClosed
  | n + 1, s => by
    rw [pick]
    split
    · rename_i e hwrite
      exact write_error hwrite
    · rename_i u hwrite
      split
      · rename_i e v hline
        exact line_error (s := u) (by rw [hline])
      · split
        · rename_i c hc
          obtain ⟨i, -, hi⟩ := Option.bind_eq_some_iff.1 hc
          exact ⟨c, List.mem_of_getElem? hi, rfl⟩
        · split
          · rename_i e hwrite
            exact write_error hwrite
          · exact picks_pick message choices n _

theorem reliable_partner : partner.Reliable := by
  intro q s e h
  replace h : (answer q s).1 = .error e := h
  unfold answer at h
  split at h
  · cases h
    exact .inr ⟨_, _, rfl, rfl⟩
  · rename_i message choices _
    have hpicks := picks_pick message choices (s.input.length + 1) s
    rw [h] at hpicks
    exact .inl hpicks
  · split at h
    · rename_i e' hwrite
      cases h
      exact .inl (write_error hwrite)
    · exact .inl (line_error h)

theorem fair_partner : partner.Fair := by
  intro q s a h
  replace h : (answer q s).1 = .ok a := h
  unfold answer at h
  split at h
  · cases h
  · rename_i message choices _
    have hpicks := picks_pick message choices (s.input.length + 1) s
    rw [h] at hpicks
    obtain ⟨c, hc, hvalue⟩ := hpicks
    exact List.any_eq_true.2 ⟨c, hc, by simpa using hvalue⟩
  · rfl

end Terminal

namespace Dialogue

variable {α β γ : Type} {E : Error → Prop}

/-- **What a dialogue fails with**: the error of a question that got no answer, or one of its own. -/
def Raises (E : Error → Prop) (d : Dialogue α) : Prop :=
  ∀ l e, d.Talk l (.error e) → (∃ q, .asked q (.error e) ∈ l) ∨ E e

theorem raises_done (a : α) : (done a).Raises E := by
  rintro l e ⟨-, heq⟩
  cases heq

theorem raises_fail {e : Error} (h : E e) : (fail e : Dialogue α).Raises E := by
  rintro l e' ⟨-, heq⟩
  cases heq
  exact .inr h

theorem raises_ask (q : Question) : (ask q).Raises E := by
  rintro l e rfl
  exact .inl ⟨q, List.mem_cons_self⟩

theorem raises_tell (m : Remark) : (tell m).Raises E := by
  rintro l e ⟨-, heq⟩
  cases heq

theorem raises_ofExcept {x : Except Error α} (h : ∀ e, x = .error e → E e) : (ofExcept x).Raises E := by
  cases x with
  | ok a => exact raises_done a
  | error e => exact raises_fail (h e rfl)

theorem raises_bind {d : Dialogue α} {next : α → Dialogue β} (hd : d.Raises E) (hn : ∀ a, (next a).Raises E) :
    (d >>= next).Raises E := by
  rintro l e (⟨e', htalk, heq⟩ | ⟨a, l₁, l₂, -, h₂, rfl⟩)
  · cases heq
    exact hd l e htalk
  · exact (hn a l₂ e h₂).imp_left (fun ⟨q, hq⟩ => ⟨q, List.mem_append_right _ hq⟩)

/-- **Rounds fail as a round does**, by induction on their talk. -/
theorem raises_rounds {question : β → Question} {round : β → Text → Dialogue (Turn β γ)}
    (hround : ∀ b a, (round b a).Raises E) (b : β) : (rounds question round b).Raises E := by
  intro l e h
  replace h : RoundsTalk question (fun b a l r => (round b a).Talk l r) b l (.error e) := h
  generalize hr : (.error e : Except Error γ) = r at h
  induction h with
  | unanswered b e' =>
    cases hr
    exact .inl ⟨_, List.mem_cons_self⟩
  | failed b a l e' htalk =>
    cases hr
    exact (hround b a l e htalk).imp_left (fun ⟨q, hq⟩ => ⟨q, List.mem_cons_of_mem _ hq⟩)
  | finished b a l c htalk => cases hr
  | again b a l b' l' r _ _ ih =>
    exact (ih hr).imp_left (fun ⟨q, hq⟩ => ⟨q, List.mem_cons_of_mem _ (List.mem_append_right _ hq)⟩)

theorem raises_refuse (state : β) (reason : Text) : (refuse state reason : Dialogue (Turn β γ)).Raises E :=
  raises_bind (raises_tell _) (fun _ => raises_done _)

theorem raises_askUntil (q : Question) (settle : Text → Except Text γ) : (askUntil q settle).Raises E := by
  refine raises_rounds (fun _ raw => ?_) ()
  split
  · exact raises_done _
  · exact raises_refuse _ _

theorem raises_askRequired (message : Text) (reader : Reader α) : (askRequired message reader).Raises E := by
  rw [askRequired_eq]
  exact raises_askUntil _ _

theorem raises_askEscapable (message : Text) (reader : Reader α) : (askEscapable message reader).Raises E := by
  rw [askEscapable_eq]
  exact raises_askUntil _ _

theorem raises_enchantments : Enchantment.collect.Raises E := by
  refine raises_rounds (fun collected raw => ?_) []
  split
  · exact raises_done _
  · split
    · refine raises_bind (raises_askRequired _ _) (fun level => raises_bind (raises_tell _) (fun _ => ?_))
      exact raises_bind (raises_ask _) (fun _ => raises_done _)
    · exact raises_refuse _ _

theorem raises_collect (noun : Text) (kind : ValueKind) : (kind.collect noun).Raises E := by
  cases kind with
  | choice prompt options => exact raises_bind (raises_ask _) (fun _ => raises_done _)
  | enchantments => exact raises_enchantments
  | _ => exact raises_askEscapable _ _

theorem raises_build (hpick : ∀ pick, E (.unknownChoice pick)) (schema : Schema) : schema.build.Raises E := by
  refine raises_bind (raises_rounds (fun collected pick => ?_) _) (fun _ => raises_bind (raises_tell _) (fun _ => ?_))
  · unfold Schema.round
    split
    · exact raises_done _
    · split
      · exact raises_fail (hpick pick)
      · refine raises_bind (raises_tell _) (fun _ => raises_bind (raises_collect _ _) (fun answer => ?_))
        cases answer <;> exact raises_bind (raises_tell _) (fun _ => raises_done _)
  · exact raises_done _

end Dialogue

namespace Session

open Dialogue

variable {E : Error → Prop}

theorem raises_askField (label message : Text) (reader : Reader Text) : (askField label message reader).Raises E :=
  raises_bind (raises_askRequired _ _) (fun _ => raises_bind (raises_tell _) (fun _ => raises_done _))

theorem raises_askBlock (catalog : Catalog) (message : Text) : (askBlock catalog message).Raises E := by
  refine raises_bind ?_ (fun _ => raises_bind (raises_askRequired _ _) (fun block => ?_))
  · unfold noticeIfUnavailable
    split
    · exact raises_tell _
    · exact raises_done _
  · exact raises_bind (raises_tell _) (fun _ => raises_done _)

theorem raises_askClauses (hpick : ∀ pick, E (.unknownChoice pick)) (message : Text) (schema : Schema) :
    (askClauses message schema).Raises E := by
  refine raises_bind (raises_askRequired _ _) (fun wanted => ?_)
  cases wanted with
  | false => exact raises_done _
  | true => exact raises_bind (raises_build hpick schema) (fun _ => raises_done _)

theorem raises_selectTarget (hpick : ∀ pick, E (.unknownChoice pick)) : selectTarget.Raises E := by
  refine raises_bind (raises_ask _) (fun picked => raises_bind (raises_ofExcept (fun e h => ?_)) (fun target => ?_))
  · unfold Target.read at h
    split at h
    · cases h
    · cases h
      exact hpick picked
  · exact raises_bind (raises_tell _) (fun _ => raises_done _)

/-- **Composing has no error of its own** but a pick that was not offered. -/
theorem raises_compose (hpick : ∀ pick, E (.unknownChoice pick)) (catalog : Catalog) (kind : Kind) :
    (compose catalog kind).Raises E := by
  cases kind with
  | give =>
    refine raises_bind (raises_selectTarget hpick) (fun target => ?_)
    refine raises_bind (raises_askClauses hpick _ _) (fun clauses => ?_)
    refine raises_bind (raises_askField _ _ _) (fun item => ?_)
    refine raises_bind (raises_askClauses hpick _ _) (fun components => ?_)
    exact raises_bind (raises_askField _ _ _) (fun amount => raises_done _)
  | teleport => exact raises_bind (raises_askField _ _ _) (fun _ => raises_done _)
  | setblock =>
    exact raises_bind (raises_askField _ _ _) (fun _ => raises_bind (raises_askBlock _ _) (fun _ => raises_done _))
  | fill =>
    refine raises_bind (raises_askField _ _ _) (fun start => raises_bind (raises_askField _ _ _) (fun finish => ?_))
    exact raises_bind (raises_askBlock _ _) (fun _ => raises_done _)
  | say => exact raises_bind (raises_askField _ _ _) (fun _ => raises_done _)
  | execute =>
    exact raises_bind (raises_askField _ _ _) (fun _ => raises_bind (raises_askField _ _ _) (fun _ => raises_done _))

/-- **A draft that was composed has a command**: there is a value for every key of its template. -/
theorem exists_serialize {catalog : Catalog} {kind : Kind} {l : List Exchange} {d : Draft}
    (h : (compose catalog kind).Talk l (.ok d)) : ∃ cmd, d.serialize = .ok cmd := by
  cases kind with
  | give =>
    obtain ⟨target, clauses, components, item, amount, -, -, -, -, -, -, -, -, rfl⟩ := talk_compose_give h
    exact ⟨_, Draft.serialize_give target clauses components item amount⟩
  | teleport =>
    obtain ⟨destination, -, -, rfl⟩ := talk_compose_teleport h
    exact ⟨_, Draft.serialize_teleport destination⟩
  | setblock =>
    obtain ⟨position, -, -, block, -, rfl, -⟩ := talk_compose_setblock h
    exact ⟨_, Draft.serialize_setblock _ _⟩
  | fill =>
    obtain ⟨start, finish, -, -, block, -, rfl, -⟩ := talk_compose_fill h
    exact ⟨_, Draft.serialize_fill _ _ _⟩
  | say =>
    obtain ⟨message, -, -, rfl⟩ := talk_compose_say h
    exact ⟨_, Draft.serialize_say message⟩
  | execute =>
    obtain ⟨target, command, -, -, -, -, rfl⟩ := talk_compose_execute h
    exact ⟨_, Draft.serialize_execute target command⟩

/-- **Picking a kind fails** if the question gets no answer, or one that names no kind. -/
theorem talk_selectKind_error {l : List Exchange} {e : Error} (h : selectKind.Talk l (.error e)) :
    l = [.asked kindMenu (.error e)] ∨
      ∃ name, l = [.asked kindMenu (.ok name)] ∧ name ∉ Kind.all.map Kind.name ∧ e = .unsupportedKind name := by
  rcases (talk_bind _ _ _ _).1 h with ⟨e', hasked, heq⟩ | ⟨name, _, l', rfl, h', rfl⟩
  · cases heq
    exact .inl hasked
  · refine .inr ⟨name, ?_⟩
    rcases (talk_bind _ _ _ _).1 h' with ⟨e', hread, heq⟩ | ⟨kind, l₁, l₂, -, htell, -⟩
    · cases heq
      obtain ⟨rfl, herror⟩ := (talk_ofExcept _ _ _).1 hread
      unfold Kind.read at herror
      split at herror
      · cases herror
      · rename_i hnone
        cases herror
        refine ⟨rfl, fun hname => ?_, rfl⟩
        obtain ⟨kind, hkind, rfl⟩ := List.mem_map.1 hname
        simpa using List.find?_eq_none.1 hnone kind hkind
    · obtain ⟨-, heq⟩ := (talk_tell_done _ _ _ _).1 htell
      cases heq

/-- **A session fails** with the error of a question that got no answer, for an outward reason, or because a kind was
picked that there is not. -/
theorem talk_command_error {catalog : Catalog} {l : List Exchange} {e : Error}
    (h : (command catalog).Talk l (.error e)) :
    (∃ q, .asked q (.error e) ∈ l) ∨ e.Outward ∨
      ∃ name, l = [.asked kindMenu (.ok name)] ∧ name ∉ Kind.all.map Kind.name ∧ e = .unsupportedKind name := by
  rcases (talk_bind _ _ _ _).1 h with ⟨e', hkind, heq⟩ | ⟨kind, l₁, l₂, -, h', rfl⟩
  · cases heq
    rcases talk_selectKind_error hkind with rfl | hname
    · exact .inl ⟨kindMenu, List.mem_cons_self⟩
    · exact .inr (.inr hname)
  · rcases (talk_bind _ _ _ _).1 h' with ⟨e', hcompose, heq⟩ | ⟨d, l₃, l₄, hcompose, hserialize, -⟩
    · cases heq
      rcases raises_compose Error.Outward.unknownChoice catalog kind _ _ hcompose with ⟨q, hq⟩ | houtward
      · exact .inl ⟨q, List.mem_append_right _ hq⟩
      · exact .inr (.inl houtward)
    · obtain ⟨cmd, hcmd⟩ := exists_serialize hcompose
      rw [hcmd] at hserialize
      cases hserialize.2

/-- **A session with a reliable partner** fails for outward reasons, or because a kind was picked that there is not. -/
theorem command_error {p : Partner σ} (hp : p.Reliable) {catalog : Catalog} {s : σ} {e : Error}
    (hrun : ((command catalog).run p s).1 = .error e) :
    e.Outward ∨ ∃ name, e = .unsupportedKind name ∧ name ∉ Kind.all.map Kind.name ∧
      (command catalog).transcript p s = [.asked kindMenu (.ok name)] := by
  have htalk := (command catalog).talk_transcript p s
  have hgives := (command catalog).gives_transcript p s
  rw [hrun] at htalk
  rcases talk_command_error htalk with ⟨q, hq⟩ | houtward | ⟨name, hl, hname, rfl⟩
  · obtain ⟨u, hu⟩ := p.exists_answer hgives hq
    rcases hp q u e hu with houtward | ⟨message, text, rfl, -⟩
    · exact .inl houtward
    · exact absurd rfl (Utterance.says_command catalog _ _ htalk _ hq).offers
  · exact .inl houtward
  · exact .inr ⟨name, rfl, hname, hl⟩

/-- A partner that picks what is offered picks a kind that there is. -/
theorem command_error_of_fair {p : Partner σ} (hp : p.Reliable) (hfair : p.Fair) {catalog : Catalog} {s : σ} {e : Error}
    (hrun : ((command catalog).run p s).1 = .error e) : e.Outward := by
  rcases command_error hp hrun with houtward | ⟨name, rfl, hname, hl⟩
  · exact houtward
  · have hgives := (command catalog).gives_transcript p s
    rw [hl] at hgives
    obtain ⟨c, hc, hvalue⟩ := List.any_eq_true.1 (hfair kindMenu s name hgives.1.symm)
    obtain ⟨kind, hkind, rfl⟩ := List.mem_map.1 hc
    obtain rfl : kind.name = name := eq_of_beq hvalue
    exact absurd (List.mem_map_of_mem hkind) hname

/-- **A session fails for outward reasons.**  With a partner that fails for such reasons, or because a menu is empty: a
draft that is composed has a command, which its template, read from its text, makes of its values; no menu is empty; and
a session fails for outward reasons, or because what was picked from the menu of kinds names none.  With a script that
is held to what is offered, or at a terminal, that never happens. -/
theorem failures_outward (p : Partner σ) (hp : p.Reliable) (catalog : Catalog) :
    (∀ (kind : Kind) (s : Attending σ) (d : Draft), ((compose catalog kind).run p.attending s).1 = .ok d →
      ∃ cmd, d.serialize = .ok cmd ∧ (Template.read d.kind.template.source >>= Template.render d.values) = .ok cmd) ∧
    (∀ (calls : List Call) (s : σ) (message : Text) (choices : List Choice) (reply : Except Error Text),
      .asked (.menu message choices) reply ∈ sessionTalk p catalog calls s → choices ≠ []) ∧
    (∀ (s : Attending σ) (e : Error), ((command catalog).run p.attending s).1 = .error e →
      e.Outward ∨ ∃ name, e = .unsupportedKind name ∧ name ∉ Kind.all.map Kind.name ∧
        (command catalog).transcript p.attending s = [.asked kindMenu (.ok name)]) ∧
    (∀ (s : Attending Script) (e : Error),
      ((command catalog).run (Script.partner .checked).attending s).1 = .error e → e.Outward) ∧
    ∀ (s : Attending Terminal) (e : Error),
      ((command catalog).run Terminal.partner.attending s).1 = .error e → e.Outward := by
  refine ⟨fun kind s d hrun => ?_, fun calls s message choices reply hasked => ?_,
    fun s e hrun => command_error hp.attending hrun,
    fun s e hrun => command_error_of_fair (Script.reliable_partner _).attending Script.fair_partner.attending hrun,
    fun s e hrun => command_error_of_fair Terminal.reliable_partner.attending Terminal.fair_partner.attending hrun⟩
  · have htalk := (compose catalog kind).talk_transcript p.attending s
    rw [hrun] at htalk
    obtain ⟨cmd, hcmd⟩ := exists_serialize htalk
    refine ⟨cmd, hcmd, ?_⟩
    rw [d.kind.read_source]
    exact hcmd
  · obtain ⟨l, rs, htalks, htalk⟩ := sessionTalk_eq p catalog calls s
    rw [htalk] at hasked
    exact (htalks.said _ (mem_of_mem_heardOnce hasked)).offers

/-- A script that may pick anything: what is composed over it has a command, and "dance" is no kind. -/
theorem failures_outward_dance :
    (Script.partner .unchecked).Reliable ∧
    ((command (.unavailable "none")).run (Script.partner .unchecked).attending ⟨Script.start ["dance"], false⟩).1 =
      .error (.unsupportedKind "dance") ∧
    ("dance" : Text) ∉ Kind.all.map Kind.name ∧
    ((compose (.unavailable "none") .setblock).run (Script.partner .unchecked).attending
      ⟨Script.start ["1 2 3", "stone"], false⟩).1 =
      .ok (((Draft.new .setblock).setField "position" "1 2 3").setField "block" "minecraft:stone") ∧
    ∃ cmd, (((Draft.new .setblock).setField "position" "1 2 3").setField "block" "minecraft:stone").serialize =
      .ok cmd := by
  have hreliable : (Script.partner .unchecked).Reliable := Script.reliable_partner .unchecked
  have hdance : ((command (.unavailable "none")).run (Script.partner .unchecked).attending
      ⟨Script.start ["dance"], false⟩).1 = .error (.unsupportedKind "dance") := rfl
  have hplaced : ((compose (.unavailable "none") .setblock).run (Script.partner .unchecked).attending
      ⟨Script.start ["1 2 3", "stone"], false⟩).1 =
      .ok (((Draft.new .setblock).setField "position" "1 2 3").setField "block" "minecraft:stone") := rfl
  obtain ⟨hcomposed, -, hfails, -⟩ := failures_outward (Script.partner .unchecked) hreliable (.unavailable "none")
  obtain ⟨cmd, hcmd, -⟩ := hcomposed .setblock _ _ hplaced
  refine ⟨hreliable, hdance, ?_, hplaced, cmd, hcmd⟩
  obtain houtward | ⟨name, hname, hnone, -⟩ := hfails _ _ hdance
  · nomatch houtward
  · cases hname
    exact hnone

end Session
end CommandComposer
