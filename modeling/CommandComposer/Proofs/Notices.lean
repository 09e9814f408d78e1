import CommandComposer.Proofs.Calls
import CommandComposer.Proofs.CatalogFilter
/-!
# Notices — the warning of a catalog that is not available is given once

Wherever a block is asked for and cannot be checked, a notice goes before the question, in every call and however it
ends (`Announced`).  A session hears the talks of its calls without the notices after the first, so that one stands
before all its questions for a block, and where none is asked there is no notice (`unavailable_warning_once`).
-/
namespace CommandComposer

/-- The texts of the questions for a block. -/
def Session.blockTexts : List Text := ["Block (e.g., diamond_block): ", "Block (e.g., stone): "]

def Exchange.asksForBlock : Exchange → Bool
  | .asked (.line text) _ => Session.blockTexts.contains text
  | _ => false

section HeardOnce

/-- **Of all notices at most one is heard**: the first, if none was before. -/
theorem countP_isNotice_heardOnce : ∀ (l : List Exchange) (noticed : Bool),
    (heardOnce noticed l).countP Exchange.isNotice = if !noticed && l.any Exchange.isNotice then 1 else 0
  | [], noticed => by simp [heardOnce]
  | x :: l, noticed => by
    have ih := countP_isNotice_heardOnce l
    rw [heardOnce]
    cases noticed <;> cases hx : x.isNotice <;> simp [ih, hx]

theorem any_isNotice_heardOnce (l : List Exchange) :
    (heardOnce false l).any Exchange.isNotice = l.any Exchange.isNotice := by
  have hcount := countP_isNotice_heardOnce l false
  rw [Bool.eq_iff_iff, List.any_eq_true, ← List.countP_pos_iff, hcount]
  cases l.any Exchange.isNotice <;> simp

theorem any_asksForBlock_heardOnce (l : List Exchange) (noticed : Bool) :
    (heardOnce noticed l).any Exchange.asksForBlock = l.any Exchange.asksForBlock := by
  have hplain : ∀ x : Exchange, x.asksForBlock = (!x.isNotice && x.asksForBlock) := by
    rintro (⟨_ | _, _⟩ | _)
    all_goals simp [Exchange.asksForBlock, Exchange.isNotice]
  rw [funext hplain, ← List.any_filter, ← List.any_filter, filter_heardOnce]

/-- What is heard before an exchange is what was said before it, without the notices after the first. -/
theorem heardOnce_eq_append_cons : ∀ {l : List Exchange} {noticed : Bool} {before : List Exchange} {x : Exchange}
    {after : List Exchange}, heardOnce noticed l = before ++ x :: after →
      ∃ before' after', l = before' ++ x :: after' ∧ before = heardOnce noticed before'
  | [], _, before, _, _, h => absurd h.symm (List.append_ne_nil_of_right_ne_nil before (List.cons_ne_nil _ _))
  | y :: l, noticed, before, x, after, h => by
    rw [heardOnce] at h
    split at h
    · rename_i hdropped
      obtain ⟨before', after', rfl, rfl⟩ := heardOnce_eq_append_cons h
      exact ⟨y :: before', after', rfl, by rw [heardOnce, if_pos hdropped]⟩
    · rename_i hkept
      cases before with
      | nil =>
        obtain ⟨rfl, -⟩ := List.cons.inj h
        exact ⟨[], l, rfl, rfl⟩
      | cons z before =>
        obtain ⟨rfl, htail⟩ := List.cons.inj h
        obtain ⟨before', after', rfl, rfl⟩ := heardOnce_eq_append_cons htail
        exact ⟨y :: before', after', rfl, by rw [heardOnce, if_neg hkept]⟩

end HeardOnce

/-- **Blocks are asked for behind a notice**, and there is a notice only where one is asked for. -/
structure Announced (l : List Exchange) : Prop where
  noticed : ∀ before x after, l = before ++ x :: after → x.asksForBlock = true →
    before.any Exchange.isNotice = true
  asked : l.any Exchange.isNotice = true → l.any Exchange.asksForBlock = true

/-- An exchange that is neither a notice nor a question for a block. -/
def Exchange.Quiet (x : Exchange) : Prop := x.isNotice = false ∧ x.asksForBlock = false

namespace Announced

theorem of_quiet {l : List Exchange} (h : ∀ x ∈ l, x.Quiet) : Announced l where
  noticed := by
    rintro before x after rfl hx
    rw [(h x (List.mem_append_right _ List.mem_cons_self)).2] at hx
    cases hx
  asked hany := by
    obtain ⟨x, hx, hnotice⟩ := List.any_eq_true.1 hany
    rw [(h x hx).1] at hnotice
    cases hnotice

theorem append {l l' : List Exchange} (h : Announced l) (h' : Announced l') : Announced (l ++ l') where
  noticed before x after hl hx := by
    rcases append_eq_append_cons hl with ⟨mid, rfl, -⟩ | ⟨mid, rfl, rfl⟩
    · exact h.noticed before x mid rfl hx
    · rw [List.any_append, h'.noticed mid x after rfl hx, Bool.or_true]
  asked hany := by
    rw [List.any_append, Bool.or_eq_true] at hany ⊢
    exact hany.imp h.asked h'.asked

theorem of_notice {text : Text} {x : Exchange} {l : List Exchange} (hx : x.asksForBlock = true) :
    Announced (.heard (.notice text) :: x :: l) where
  noticed before y after hl hy := by
    cases before with
    | nil =>
      obtain ⟨rfl, -⟩ := List.cons.inj hl
      cases hy
    | cons z before =>
      obtain ⟨rfl, -⟩ := List.cons.inj hl
      rfl
  asked _ := by
    rw [List.any_cons, List.any_cons, hx]
    rfl

/-- **A notice is said where a block is asked for, and only there.** -/
theorem any_isNotice {l : List Exchange} (h : Announced l) :
    l.any Exchange.isNotice = l.any Exchange.asksForBlock := by
  rw [Bool.eq_iff_iff]
  refine ⟨h.asked, fun hany => ?_⟩
  obtain ⟨x, hx, hasks⟩ := List.any_eq_true.1 hany
  obtain ⟨before, after, rfl⟩ := List.append_of_mem hx
  rw [List.any_append, h.noticed before x after rfl hasks, Bool.true_or]

/-- **The first notice announces all questions for a block.** -/
theorem heardOnce {l : List Exchange} (h : Announced l) : Announced (heardOnce false l) where
  noticed before x after hl hx := by
    obtain ⟨before', after', rfl, rfl⟩ := heardOnce_eq_append_cons hl
    rw [any_isNotice_heardOnce]
    exact h.noticed before' x after' rfl hx
  asked := by
    rw [any_isNotice_heardOnce, any_asksForBlock_heardOnce]
    exact h.asked

end Announced

namespace Dialogue

variable {α β : Type}

/-- Every talk of the dialogue has its questions for a block announced. -/
def Announces (d : Dialogue α) : Prop := ∀ l r, d.Talk l r → Announced l

theorem announces_of_quiet {d : Dialogue α} (h : d.Says Exchange.Quiet) : d.Announces :=
  fun l r htalk => .of_quiet (h l r htalk)

theorem announces_bind {d : Dialogue α} {next : α → Dialogue β} (hd : d.Announces) (hn : ∀ a, (next a).Announces) :
    (d >>= next).Announces := by
  rintro l r (⟨e, htalk, -⟩ | ⟨a, l₁, l₂, h₁, h₂, rfl⟩)
  · exact hd l _ htalk
  · exact (hd l₁ _ h₁).append (hn a l₂ r h₂)

theorem announces_done (a : α) : (done a).Announces := announces_of_quiet (says_done a)

theorem announces_ofExcept (x : Except Error α) : (ofExcept x).Announces := by
  cases x with
  | ok a => exact announces_done a
  | error e => exact announces_of_quiet (says_fail e)

end Dialogue

namespace Session

open Dialogue

theorem says_quiet {α : Type} {d : Dialogue α} (catalog : Catalog) (hsaid : d.Says (Utterance labels none))
    (hforgiving : d.Forgiving (otherQuestions catalog)) : d.Says Exchange.Quiet := by
  intro l r htalk x hx
  have hnever : ∀ text ∈ blockTexts, ∀ reply, x ≠ .asked (.line text) reply :=
    fun text htext reply => says_ne_of_questionsBut hforgiving htext reply l r htalk x hx
  cases hsaid l r htalk x hx with
  | line text reply => exact ⟨rfl, Bool.eq_false_iff.2 (fun h => hnever text (List.contains_iff_mem.1 h) reply rfl)⟩
  | notice reason hreason => cases hreason
  | _ => exact ⟨rfl, rfl⟩

/-- **A block that cannot be checked is asked for behind a notice.** -/
theorem announces_askBlock (reason : Text) {message : Text} (hmessage : message ++ ": " ∈ blockTexts) :
    (askBlock (.unavailable reason) message).Announces := by
  intro l r htalk
  obtain ⟨l', htalk', rfl⟩ := (talk_tell_bind _ _ _ _).1 htalk
  have hopens : ∀ {l r}, (askRequired message (readBlock (.unavailable reason))).Talk l r →
      ∃ reply l', l = .asked (required message) reply :: l' := rounds_opens
  have hasks : ∀ reply, (Exchange.asked (required message) reply).asksForBlock = true :=
    fun _ => List.contains_iff_mem.2 hmessage
  rcases (talk_bind _ _ _ _).1 htalk' with ⟨e, h, -⟩ | ⟨block, l₁, l₂, h, -, rfl⟩
  · obtain ⟨reply, l₁, rfl⟩ := hopens h
    exact .of_notice (hasks reply)
  · obtain ⟨reply, l₁, rfl⟩ := hopens h
    exact .of_notice (hasks reply)

theorem announces_askField (catalog : Catalog) {label message : Text} {reader : Reader Text} (hlabel : label ∈ labels)
    (hq : .required message reader ∈ otherQuestions catalog) : (askField label message reader).Announces :=
  announces_of_quiet (says_quiet _ (Utterance.says_askField hlabel _ _)
    (forgiving_askField (nodup_questionsBut catalog _) hq))

theorem announces_compose (reason : Text) (kind : Kind) : (compose (.unavailable reason) kind).Announces := by
  by_cases hsetblock : kind = .setblock
  · subst hsetblock
    have hposition := @mem_otherQuestions (.unavailable reason) .setblock 0 _ rfl nofun nofun
    refine announces_bind (announces_askField _ (Utterance.mem_labels (i := 5) rfl) hposition) (fun position => ?_)
    exact announces_bind (announces_askBlock reason List.mem_cons_self) (fun _ => announces_done _)
  by_cases hfill : kind = .fill
  · subst hfill
    have hstart := @mem_otherQuestions (.unavailable reason) .fill 0 _ rfl nofun nofun
    have hfinish := @mem_otherQuestions (.unavailable reason) .fill 1 _ rfl nofun nofun
    refine announces_bind (announces_askField _ (Utterance.mem_labels (i := 6) rfl) hstart) (fun start => ?_)
    refine announces_bind (announces_askField _ (Utterance.mem_labels (i := 7) rfl) hfinish) (fun finish => ?_)
    have hmessage : (("Block (e.g., stone)" : Text) ++ ": ") ∈ blockTexts := List.mem_cons_of_mem _ List.mem_cons_self
    exact announces_bind (announces_askBlock reason hmessage) (fun _ => announces_done _)
  · exact announces_of_quiet (says_quiet _ (Utterance.says_compose_of_no_block _ hsetblock hfill)
      (forgiving_compose_of_no_block (.unavailable reason) hsetblock hfill))

theorem announces_selectKind : selectKind.Announces :=
  announces_of_quiet (says_quiet (.unavailable []) Utterance.says_selectKind (forgiving_pick _ _ _ _))

/-- **What one call keeps**: its questions for a block are announced. -/
theorem announces_call (reason : Text) (call : Call) : (call.dialogue (.unavailable reason)).Announces := by
  cases call with
  | run =>
    refine announces_bind (announces_bind announces_selectKind (fun kind => ?_)) (fun _ => announces_done _)
    exact announces_bind (announces_compose reason kind) (fun _ => announces_ofExcept _)
  | selectKind => exact announces_bind announces_selectKind (fun _ => announces_done _)
  | compose kind => exact announces_bind (announces_compose reason kind) (fun _ => announces_done _)

/-- **What a session keeps**, by induction on its calls. -/
theorem Talks.announced {reason : Text} {calls : List Call} {l : List Exchange} {rs : List (Except Error Outcome)}
    (h : Talks (.unavailable reason) calls l rs) : Announced l := by
  induction h with
  | nil => exact .of_quiet nofun
  | cons h _ ih => exact (announces_call reason _ _ _ h).append ih

theorem any_warnsUnavailable {reason? : Option Text} {l : List Exchange} (h : ∀ x ∈ l, Utterance labels reason? x) :
    l.any Exchange.warnsUnavailable = l.any Exchange.isNotice := by
  rw [Bool.eq_iff_iff, List.any_eq_true, List.any_eq_true]
  exact exists_congr (fun x => and_congr_right (fun hx => by rw [(h x hx).warnsUnavailable_eq]))

/-- **The warning of a catalog that is not available is given once in a session**, whoever the partner is, whatever
calls there are and however they end: never if the catalog is available or no block is asked for, and else exactly once,
before the first question for a block. -/
theorem unavailable_warning_once {σ : Type} (p : Partner σ) (catalog : Catalog) (calls : List Call) (s : σ) :
    (sessionTalk p catalog calls s).countP Exchange.warnsUnavailable =
      (if catalog.isAvailable || !(sessionTalk p catalog calls s).any Exchange.asksForBlock then 0 else 1) ∧
    (catalog.isAvailable = false → ∀ before x after, sessionTalk p catalog calls s = before ++ x :: after →
      x.asksForBlock = true → before.any Exchange.warnsUnavailable = true) := by
  obtain ⟨l, rs, htalks, htalk⟩ := sessionTalk_eq p catalog calls s
  have hsaid : ∀ x ∈ heardOnce false l, Utterance labels catalog.reason? x :=
    fun x hx => htalks.said x (mem_of_mem_heardOnce hx)
  have hcount : (heardOnce false l).countP Exchange.warnsUnavailable =
      if (heardOnce false l).any Exchange.isNotice then 1 else 0 := by
    rw [List.countP_congr (fun x hx => by rw [(hsaid x hx).warnsUnavailable_eq]), countP_isNotice_heardOnce,
      any_isNotice_heardOnce, Bool.not_false, Bool.true_and]
  rw [htalk, hcount]
  cases catalog with
  | available blocks hne =>
    have hnone : (heardOnce false l).any Exchange.isNotice = false := by
      refine List.any_eq_false.2 (fun x hx => ?_)
      cases hsaid x hx with
      | notice reason hreason => cases hreason
      | _ => exact Bool.false_ne_true
    rw [hnone]
    exact ⟨rfl, nofun⟩
  | unavailable reason =>
    have hannounced := htalks.announced.heardOnce
    constructor
    · rw [hannounced.any_isNotice]
      cases (heardOnce false l).any Exchange.asksForBlock <;> rfl
    · rintro - before x after hsplit hasks
      rw [hsplit] at hsaid
      rw [any_warnsUnavailable (fun y hy => hsaid y (List.mem_append_left _ hy))]
      exact hannounced.noticed before x after hsplit hasks

/-- A kind that there is not, a block placed for a draft, and then one in a whole command. -/
theorem unavailable_warning_once_placed :
    ∃ talk, talk = sessionTalk (Script.partner .unchecked) (.unavailable "offline") [.run, .compose .setblock, .run]
        (Script.start ["dance", "0 0 0", "stone", "fill", "0 0 0", "1 1 1", "stone"]) ∧
      (Catalog.unavailable "offline").isAvailable = false ∧ talk.countP Exchange.warnsUnavailable = 1 ∧
      ∃ before x after, talk = before ++ x :: after ∧ x.asksForBlock = true ∧
        before.any Exchange.warnsUnavailable = true := by
  refine ⟨_, rfl, rfl, ?_⟩
  obtain ⟨hcount, hbefore⟩ := unavailable_warning_once (Script.partner .unchecked) (.unavailable "offline")
    [.run, .compose .setblock, .run] (Script.start ["dance", "0 0 0", "stone", "fill", "0 0 0", "1 1 1", "stone"])
  have hasked : (sessionTalk (Script.partner .unchecked) (.unavailable "offline") [.run, .compose .setblock, .run]
      (Script.start ["dance", "0 0 0", "stone", "fill", "0 0 0", "1 1 1", "stone"])).any Exchange.asksForBlock = true :=
    rfl
  obtain ⟨x, hx, hasks⟩ := List.any_eq_true.1 hasked
  obtain ⟨before, after, hsplit⟩ := List.append_of_mem hx
  refine ⟨?_, before, x, after, hsplit, hasks, hbefore rfl before x after hsplit hasks⟩
  rw [hcount, hasked]
  rfl

end Session
end CommandComposer
