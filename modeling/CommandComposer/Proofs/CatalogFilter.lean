import CommandComposer.Proofs.Refusals
/-!
# CatalogFilter — a catalog refuses blocks, and does nothing else

A catalog that knows the blocks makes a session refuse answers that one that is unavailable lets pass, and that is all:
without the answers that are refused where a block is asked for, a session that is not checked gives the same command
(`catalog_only_filters`).  Suggestions and completions are only ever said.
-/
namespace CommandComposer

open Dialogue

/-- The answers of a talk but for those that are dropped. -/
def kept (drop : Exchange → Bool) (l : List Exchange) : List Text := replies (l.filter fun x => !drop x)

theorem kept_append (drop : Exchange → Bool) (l l' : List Exchange) :
    kept drop (l ++ l') = kept drop l ++ kept drop l' := by
  rw [kept, List.filter_append, replies_append]
  rfl

namespace Dialogue

variable {α β : Type} {drop : Exchange → Bool}

/-- **What `d` comes to with all its answers, `d'` comes to without those that are dropped.** -/
def Filters (drop : Exchange → Bool) (d d' : Dialogue α) : Prop :=
  ∀ l a, d.Talk l (.ok a) →
    ∃ l', d'.Talk l' (.ok a) ∧ replies l' = kept drop l ∧ ((∀ x ∈ l, x.Fair) → ∀ x ∈ l', x.Fair)

theorem filters_of_undropped {d : Dialogue α} (h : d.Says (drop · = false)) : d.Filters drop d := by
  intro l a htalk
  have hall : l.filter (fun x => !drop x) = l := List.filter_eq_self.2 (fun x hx => by rw [h l _ htalk x hx]; rfl)
  exact ⟨l, htalk, by rw [kept, hall], id⟩

theorem filters_bind {d d' : Dialogue α} {next next' : α → Dialogue β} (hd : d.Filters drop d')
    (hn : ∀ a, (next a).Filters drop (next' a)) : (d >>= next).Filters drop (d' >>= next') := by
  intro l b htalk
  obtain ⟨a, l₁, l₂, h₁, h₂, rfl⟩ := (talk_bind_ok _ _ _ _).1 htalk
  obtain ⟨l₁', h₁', hreplies₁, hfair₁⟩ := hd l₁ a h₁
  obtain ⟨l₂', h₂', hreplies₂, hfair₂⟩ := hn a l₂ b h₂
  refine ⟨l₁' ++ l₂', (talk_bind_ok _ _ _ _).2 ⟨a, l₁', l₂', h₁', h₂', rfl⟩, ?_, fun hfair => ?_⟩
  · rw [replies_append, hreplies₁, hreplies₂, kept_append]
  · obtain ⟨hfair₁', hfair₂'⟩ := List.forall_mem_append.1 hfair
    exact List.forall_mem_append.2 ⟨hfair₁ hfair₁', hfair₂ hfair₂'⟩

/-- **A reader that accepts what another accepts** needs none of the answers that the other refuses. -/
theorem filters_askRequired {message : Text} {reader reader' : Reader α}
    (haccepts : ∀ t a, reader t = .ok a → reader' t = .ok a)
    (hdrop : ∀ raw, drop (.asked (required message) (.ok raw)) = true ↔
      (LineQuestion.required message reader).Refuses raw) :
    (askRequired message reader).Filters drop (askRequired message reader') := by
  intro l a htalk
  obtain ⟨refused, reply, hrefused, hsettles, rfl⟩ := attempts_of_talk htalk
  obtain ⟨raw, rfl, hread⟩ : ∃ raw, reply = .ok raw ∧ reader raw.trim = .ok a := by
    rcases hsettles with ⟨_, _, heq⟩ | ⟨raw, _, hraw, hread, heq⟩ <;> cases heq
    exact ⟨raw, hraw, hread⟩
  have hattempts : kept drop ((LineQuestion.required message reader).attempts refused) = [] := by
    refine List.filterMap_eq_nil_iff.2 (fun x hx => ?_)
    obtain ⟨hmem, hkept⟩ := List.mem_filter.1 hx
    rcases LineQuestion.mem_attempts hmem with ⟨raw', hraw', rfl⟩ | ⟨reason, rfl⟩
    · have hdropped : drop (.asked (.line (LineQuestion.required message reader).text) (.ok raw')) = true :=
        (hdrop raw').2 (hrefused raw' hraw')
      rw [hdropped] at hkept
      cases hkept
    · rfl
  have hlast : drop (.asked (required message) (.ok raw)) = false := by
    refine Bool.eq_false_iff.2 (fun h => ?_)
    obtain ⟨reason, hreason⟩ := (hdrop raw).1 h
    cases hread.symm.trans (LineQuestion.refusalOf_eq_some hreason)
  refine ⟨[.asked (required message) (.ok raw)], talk_of_settles (.inr ⟨raw, a, rfl, haccepts _ _ hread, rfl⟩), ?_, ?_⟩
  · rw [kept_append, hattempts, kept, List.filter_cons_of_pos (by rw [hlast]; rfl)]
    rfl
  · exact fun _ => List.forall_mem_singleton.2 rfl

end Dialogue

namespace Session

/-- The questions for a block. -/
def blockQuestions (catalog : Catalog) : List LineQuestion :=
  [.required "Block (e.g., diamond_block)" (readBlock catalog), .required "Block (e.g., stone)" (readBlock catalog)]

/-- **An answer that is refused where a block is asked for.** -/
def refusedBlock (catalog : Catalog) : Exchange → Bool
  | .asked (.line text) (.ok raw) => (blockQuestions catalog).any fun q => q.text == text && (q.refusal? raw).isSome
  | _ => false

/-- The answers that a session with a script takes but for the blocks that it refuses. -/
def keptAnswers (catalog : Catalog) (answers : List Text) : List Text :=
  kept (refusedBlock catalog) (scriptedTalk catalog answers)

variable {catalog : Catalog}

theorem refusedBlock_iff {q : LineQuestion} (hq : q ∈ blockQuestions catalog) (raw : Text) :
    refusedBlock catalog (.asked (.line q.text) (.ok raw)) = true ↔ q.Refuses raw := by
  -- whichever of the questions it is, what it refuses the catalog says
  have hsame : ∀ q ∈ blockQuestions catalog,
      q.refusal? = fun raw => LineQuestion.refusalOf (readBlock catalog raw.trim) := by
    simp [blockQuestions, LineQuestion.required]
  have hrefuses : q.Refuses raw ↔ (q.refusal? raw).isSome = true := Option.isSome_iff_exists.symm
  rw [hrefuses, refusedBlock, List.any_eq_true]
  constructor
  · rintro ⟨q', hq', h⟩
    rw [hsame q' hq', ← hsame q hq] at h
    exact (Bool.and_eq_true_iff.1 h).2
  · exact fun h => ⟨q, hq, by simpa using h⟩

/-- The questions for a line that are not for a block. -/
def otherQuestions (catalog : Catalog) : List LineQuestion :=
  questionsBut catalog ((blockQuestions catalog).map LineQuestion.text)

theorem mem_otherQuestions {kind : Kind} {i : Nat} {q : LineQuestion} (hq : (kindQuestions catalog kind)[i]? = some q)
    (hsetblock : kind = .setblock → i ≠ 1) (hfill : kind = .fill → i ≠ 2) : q ∈ otherQuestions catalog := by
  refine mem_questionsBut_iff.2 ⟨mem_lineQuestions (List.mem_of_getElem? hq), fun htext => ?_⟩
  rcases List.mem_cons.1 htext with htext | htext
  · exact text_ne_of_place hsetblock hq rfl htext
  · exact text_ne_of_place hfill hq rfl (List.mem_singleton.1 htext)

theorem filters_of_others {α : Type} {d : Dialogue α} (h : d.Forgiving (otherQuestions catalog)) :
    d.Filters (refusedBlock catalog) d := by
  refine filters_of_undropped (fun l r htalk x hx => Bool.eq_false_iff.2 (fun hdrop => ?_))
  rcases x with ⟨_ | text, _ | raw⟩ | _
  case asked.line.ok =>
    obtain ⟨q, hq, hdrop⟩ := List.any_eq_true.1 hdrop
    have htext : q.text = text := eq_of_beq (Bool.and_eq_true_iff.1 hdrop).1
    exact says_ne_of_questionsBut h (htext ▸ List.mem_map_of_mem hq) (.ok raw) l r htalk _ hx rfl
  all_goals cases hdrop

/-- **What a catalog accepts is accepted without one**, to the same block. -/
theorem readBlock_unavailable {t block : Text} (reason : Text) (h : readBlock catalog t = .ok block) :
    readBlock (.unavailable reason) t = .ok block := by
  obtain ⟨rfl, hblank, -⟩ := readBlock_eq_ok h
  exact if_neg (by simp [hblank])

theorem filters_notice (reason : Text) :
    (noticeIfUnavailable catalog).Filters (refusedBlock catalog) (noticeIfUnavailable (.unavailable reason)) := by
  intro l a htalk
  refine ⟨[.heard (.notice (unavailableNotice reason))], ⟨rfl, rfl⟩, ?_, fun _ => List.forall_mem_singleton.2 trivial⟩
  cases catalog with
  | available blocks hne =>
    obtain ⟨rfl, -⟩ := htalk
    rfl
  | unavailable reason' =>
    obtain ⟨rfl, -⟩ := htalk
    rfl

theorem filters_askBlock (reason : Text) {message : Text}
    (hq : .required message (readBlock catalog) ∈ blockQuestions catalog) :
    (askBlock catalog message).Filters (refusedBlock catalog) (askBlock (.unavailable reason) message) := by
  have hblock := filters_askRequired (fun _ _ => readBlock_unavailable reason) (refusedBlock_iff hq)
  refine filters_bind (filters_notice reason) (fun _ => filters_bind hblock (fun block => ?_))
  exact filters_of_undropped (says_bind (says_tell rfl) (fun _ => says_done _))

/-- Only where a block is placed is the catalog asked. -/
theorem compose_of_no_block (catalog catalog' : Catalog) {kind : Kind} (hsetblock : kind ≠ .setblock)
    (hfill : kind ≠ .fill) : compose catalog kind = compose catalog' kind := by
  cases kind with
  | setblock => exact absurd rfl hsetblock
  | fill => exact absurd rfl hfill
  | _ => rfl

theorem forgiving_compose_of_no_block (catalog : Catalog) {kind : Kind} (hsetblock : kind ≠ .setblock)
    (hfill : kind ≠ .fill) : (compose catalog kind).Forgiving (otherQuestions catalog) := by
  refine forgiving_compose (nodup_questionsBut catalog _) (fun q hq => ?_)
  obtain ⟨i, hi⟩ := List.mem_iff_getElem?.1 hq
  exact mem_otherQuestions hi (fun h => absurd h hsetblock) (fun h => absurd h hfill)

theorem filters_compose (catalog : Catalog) (reason : Text) (kind : Kind) :
    (compose catalog kind).Filters (refusedBlock catalog) (compose (.unavailable reason) kind) := by
  have hqs := nodup_questionsBut catalog ((blockQuestions catalog).map LineQuestion.text)
  have hfield : ∀ {label message reader}, .required message reader ∈ otherQuestions catalog →
      (askField label message reader).Filters (refusedBlock catalog) (askField label message reader) :=
    fun hq => filters_of_others (forgiving_askField hqs hq)
  have hdone : ∀ d : Draft, (done d).Filters (refusedBlock catalog) (done d) :=
    fun d => filters_of_undropped (says_done d)
  by_cases hsetblock : kind = .setblock
  · subst hsetblock
    have hposition := @mem_otherQuestions catalog .setblock 0 _ rfl nofun nofun
    refine filters_bind (hfield hposition) (fun position => ?_)
    exact filters_bind (filters_askBlock reason List.mem_cons_self) (fun block => hdone _)
  by_cases hfill : kind = .fill
  · subst hfill
    have hstart := @mem_otherQuestions catalog .fill 0 _ rfl nofun nofun
    have hfinish := @mem_otherQuestions catalog .fill 1 _ rfl nofun nofun
    refine filters_bind (hfield hstart) (fun start => filters_bind (hfield hfinish) (fun finish => ?_))
    exact filters_bind (filters_askBlock reason (List.mem_cons_of_mem _ List.mem_cons_self)) (fun block => hdone _)
  · rw [← compose_of_no_block catalog (.unavailable reason) hsetblock hfill]
    exact filters_of_others (forgiving_compose_of_no_block catalog hsetblock hfill)

theorem filters_command (catalog : Catalog) (reason : Text) :
    (command catalog).Filters (refusedBlock catalog) (command (.unavailable reason)) := by
  refine filters_bind (filters_of_others (forgiving_pick _ _ _ _)) (fun kind => ?_)
  refine filters_bind (filters_compose catalog reason kind) (fun draft => ?_)
  exact filters_of_others (forgiving_ofExcept _)

variable {σ : Type}

theorem composeWith_of_no_block (p : Partner σ) (s : σ) (catalog catalog' : Catalog)
    (hsetblock : (p.answer kindMenu s).1 ≠ .ok Kind.setblock.name)
    (hfill : (p.answer kindMenu s).1 ≠ .ok Kind.fill.name) :
    composeWith p catalog s = composeWith p catalog' s := by
  have htalk := selectKind.talk_transcript p.attending ⟨s, false⟩
  have hgives := selectKind.gives_transcript p.attending ⟨s, false⟩
  have hcommand : (command catalog).run p.attending ⟨s, false⟩ = (command catalog').run p.attending ⟨s, false⟩ := by
    rw [command, command, run_bind, run_bind]
    cases hrun : selectKind.run p.attending ⟨s, false⟩ with
    | mk result t =>
      cases result with
      | error e => rfl
      | ok kind =>
        rw [hrun] at htalk hgives
        rw [talk_selectKind htalk] at hgives
        -- the kind is the one that the partner answers with
        have hpicked : .ok kind.name = (p.answer kindMenu s).1 := hgives.1
        rw [← hpicked] at hsetblock hfill
        have hkind : ∀ {kind'}, Except.ok (ε := Error) kind.name ≠ .ok kind'.name → kind ≠ kind' := by
          rintro kind' h rfl
          exact h rfl
        dsimp only
        rw [compose_of_no_block catalog catalog' (hkind hsetblock) (hkind hfill)]
  rw [composeWith, composeWith, hcommand]

/-- **A catalog only filters.**  Where a session with a script gives a command, a session that is not checked gives the
same one, and leaves the same answers, with the script but for the blocks that the catalog refuses.  And where no block
is placed, a session gives the same with every catalog, whoever the partner is. -/
theorem catalog_only_filters (catalog : Catalog) :
    (∀ {answers : List Text} {cmd : Text} {left : Script},
      composeWith (Script.partner .checked) catalog (Script.start answers) = (.ok cmd, left) →
      answers = replies (scriptedTalk catalog answers) ++ left.answers ∧
        ∀ reason, ∃ events, composeWith (Script.partner .checked) (.unavailable reason)
          (Script.start (keptAnswers catalog answers ++ left.answers)) = (.ok cmd, ⟨left.answers, events⟩)) ∧
    ∀ {σ : Type} (p : Partner σ) (s : σ) (catalog' : Catalog), (p.answer kindMenu s).1 ≠ .ok Kind.setblock.name →
      (p.answer kindMenu s).1 ≠ .ok Kind.fill.name → composeWith p catalog s = composeWith p catalog' s := by
  refine ⟨fun {answers cmd left} hrun => ?_, fun p s catalog' => composeWith_of_no_block p s catalog catalog'⟩
  obtain ⟨htalk, hfair, hanswers, -⟩ := composeWith_ok hrun
  refine ⟨hanswers, fun reason => ?_⟩
  obtain ⟨l, htalk', hkept, hfair'⟩ := filters_command catalog reason _ _ htalk
  have hunchecked := composeWith_of_talk left.answers htalk' (hfair' hfair)
  rw [hkept] at hunchecked
  exact ⟨_, hunchecked⟩

/-- A block that is not listed, before one that is; and a message, for which there is nothing to check. -/
theorem catalog_only_filters_unlisted :
    ∃ left events,
      composeWith (Script.partner .checked) (.ofNames ["stone"])
          (Script.start ["setblock", "0 0 0", "dirt", "stone", "left"]) =
        (.ok "/setblock 0 0 0 minecraft:stone", left) ∧
      composeWith (Script.partner .checked) (.unavailable "offline")
          (Script.start ["setblock", "0 0 0", "stone", "left"]) =
        (.ok "/setblock 0 0 0 minecraft:stone", ⟨["left"], events⟩) ∧
      composeWith (Script.partner .checked) (.ofNames ["stone"]) (Script.start ["say", "hi"]) =
        composeWith (Script.partner .checked) (.unavailable "offline") (Script.start ["say", "hi"]) := by
  obtain ⟨hfiltered, hsame⟩ := catalog_only_filters (.ofNames ["stone"])
  have hrun : composeWith (Script.partner .checked) (.ofNames ["stone"])
      (Script.start ["setblock", "0 0 0", "dirt", "stone", "left"]) = (.ok "/setblock 0 0 0 minecraft:stone", _) := rfl
  have hkept : keptAnswers (.ofNames ["stone"]) ["setblock", "0 0 0", "dirt", "stone", "left"] =
      ["setblock", "0 0 0", "stone"] := rfl
  obtain ⟨events, hunchecked⟩ := (hfiltered hrun).2 "offline"
  rw [hkept] at hunchecked
  exact ⟨_, events, hrun, hunchecked, hsame _ _ _ nofun nofun⟩

end Session
end CommandComposer
