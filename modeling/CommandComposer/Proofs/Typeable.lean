import Mathlib.Data.List.Forall2
import CommandComposer.Proofs.Building
import CommandComposer.Session
/-!
# Typeable — dialogues that can be held by typing lines

What is typed on a line loses what ends lines, and a menu is answered by a number.  A dialogue is typeable if neither
matters: with answers that differ in the white space around them it says the same and has the same result, and its
menus are short enough for their numbers to be read (`Typeable`).  Each form of dialogue keeps this, and so composing a
command has it (`typeable_command`).
-/
namespace CommandComposer

/-- **Two exchanges alike**: the same, but for white space around the answer to a question for a line. -/
inductive Exchange.Alike : Exchange → Exchange → Prop where
  | same (x : Exchange) : Alike x x
  | line (text : Text) (a a' : Text) (h : a.trim = a'.trim) :
      Alike (.asked (.line text) (.ok a)) (.asked (.line text) (.ok a'))

theorem Exchange.Alike.answered {q : Question} {a : Text} {x : Exchange} (h : Alike (.asked q (.ok a)) x) :
    ∃ a', x = .asked q (.ok a') := by
  cases h with
  | same => exact ⟨a, rfl⟩
  | line text _ a' => exact ⟨a', rfl⟩

theorem Exchange.exists_answered_of_alike {q : Question} {a : Text} {l l' : List Exchange}
    (h : List.Forall₂ Alike (.asked q (.ok a) :: l) l') :
    ∃ a' rest, l' = .asked q (.ok a') :: rest ∧ Alike (.asked q (.ok a)) (.asked q (.ok a')) ∧
      List.Forall₂ Alike l rest := by
  obtain ⟨x, rest, hx, hrest, rfl⟩ := List.forall₂_cons_left_iff.1 h
  obtain ⟨a', rfl⟩ := hx.answered
  exact ⟨a', rest, rfl, hx, hrest⟩

theorem Exchange.Alike.unanswered {q : Question} {e : Error} {x : Exchange} (h : Alike (.asked q (.error e)) x) :
    x = .asked q (.error e) := by
  cases h
  rfl

/-- A menu whose entries have numbers that can be read. -/
def Exchange.ShortMenu : Exchange → Prop
  | .asked (.menu _ choices) _ => choices.length ≤ Numeral.word64
  | _ => True

theorem forall₂_append_split {α β : Type} {R : α → β → Prop} {l₁ l₂ : List α} {l' : List β}
    (h : List.Forall₂ R (l₁ ++ l₂) l') :
    ∃ l₁' l₂', l' = l₁' ++ l₂' ∧ List.Forall₂ R l₁ l₁' ∧ List.Forall₂ R l₂ l₂' :=
  ⟨_, _, (List.take_append_drop l₁.length l').symm, (List.forall₂_take_append _ _ _ h.flip).flip,
    (List.forall₂_drop_append _ _ _ h.flip).flip⟩

namespace Dialogue

variable {α β γ : Type}

/-- **A dialogue that can be held by typing lines.** -/
structure Typeable (d : Dialogue α) : Prop where
  alike : ∀ l l' r, d.Talk l r → List.Forall₂ Exchange.Alike l l' → d.Talk l' r
  menus : d.Says Exchange.ShortMenu

theorem typeable_done (a : α) : (done a).Typeable where
  alike := by
    rintro l l' r ⟨rfl, rfl⟩ ⟨⟩
    exact ⟨rfl, rfl⟩
  menus := says_done a

theorem typeable_fail (e : Error) : (fail e : Dialogue α).Typeable where
  alike := by
    rintro l l' r ⟨rfl, rfl⟩ ⟨⟩
    exact ⟨rfl, rfl⟩
  menus := says_fail e

theorem typeable_ofExcept (x : Except Error α) : (ofExcept x).Typeable := by
  cases x with
  | ok a => exact typeable_done a
  | error e => exact typeable_fail e

theorem typeable_tell (m : Remark) : (tell m).Typeable where
  alike := by
    rintro l l' r ⟨rfl, rfl⟩ (_ | ⟨⟨⟩, ⟨⟩⟩)
    exact ⟨rfl, rfl⟩
  menus := says_tell trivial

theorem typeable_menu (message : Text) {choices : List Choice} (h : choices.length ≤ Numeral.word64) :
    (ask (.menu message choices)).Typeable where
  alike := by
    rintro l l' r rfl (_ | ⟨⟨⟩, ⟨⟩⟩)
    rfl
  menus := says_ask (fun _ => h)

theorem typeable_bind {d : Dialogue α} {next : α → Dialogue β} (hd : d.Typeable) (hn : ∀ a, (next a).Typeable) :
    (d >>= next).Typeable where
  alike := by
    rintro l l' r (⟨e, h, rfl⟩ | ⟨a, l₁, l₂, h₁, h₂, rfl⟩) hl
    · exact .inl ⟨e, hd.alike l l' _ h hl, rfl⟩
    · obtain ⟨l₁', l₂', rfl, hl₁, hl₂⟩ := forall₂_append_split hl
      exact .inr ⟨a, l₁', l₂', hd.alike l₁ l₁' _ h₁ hl₁, (hn a).alike l₂ l₂' r h₂ hl₂, rfl⟩
  menus := says_bind hd.menus (fun a => (hn a).menus)

/-- **Rounds are typeable** if a round is, and is the same for answers that are alike: by induction on their talk. -/
theorem typeable_rounds {question : β → Question} {round : β → Text → Dialogue (Turn β γ)} (b : β)
    (hmenu : ∀ b r, (Exchange.asked (question b) r).ShortMenu)
    (halike : ∀ b a a', Exchange.Alike (.asked (question b) (.ok a)) (.asked (question b) (.ok a')) →
      round b a = round b a')
    (hround : ∀ b a, (round b a).Typeable) : (rounds question round b).Typeable where
  alike := by
    intro l l' r h
    -- both talks are peeled together, and alike answers open the same round
    induction h generalizing l' with
    | unanswered b e =>
      intro hl
      obtain ⟨x, _, hx, ⟨⟩, rfl⟩ := List.forall₂_cons_left_iff.1 hl
      rw [hx.unanswered]
      exact .unanswered b e
    | failed b a l e h =>
      intro hl
      obtain ⟨a', l', rfl, hx, hl'⟩ := Exchange.exists_answered_of_alike hl
      rw [halike b a a' hx] at h
      exact .failed b a' l' e ((hround b a').alike l l' _ h hl')
    | finished b a l c h =>
      intro hl
      obtain ⟨a', l', rfl, hx, hl'⟩ := Exchange.exists_answered_of_alike hl
      rw [halike b a a' hx] at h
      exact .finished b a' l' c ((hround b a').alike l l' _ h hl')
    | again b a l₁ b' l₂ r h _ ih =>
      intro hl
      obtain ⟨a', l', rfl, hx, hl'⟩ := Exchange.exists_answered_of_alike hl
      obtain ⟨l₁', l₂', rfl, hl₁, hl₂⟩ := forall₂_append_split hl'
      rw [halike b a a' hx] at h
      exact .again b a' l₁' b' l₂' r ((hround b a').alike l₁ l₁' _ h hl₁) (ih l₂' hl₂)
  menus := says_rounds hmenu (fun b a => (hround b a).menus)

theorem typeable_lines {text : β → Text} {round : β → Text → Dialogue (Turn β γ)} (b : β)
    (htrim : ∀ b a a', a.trim = a'.trim → round b a = round b a') (hround : ∀ b a, (round b a).Typeable) :
    (rounds (fun b => .line (text b)) round b).Typeable := by
  refine typeable_rounds b (fun _ _ => trivial) (fun b a a' h => ?_) hround
  cases h with
  | same => rfl
  | line _ _ _ h => exact htrim b a a' h

theorem typeable_menus {message : β → Text} {choices : β → List Choice} {round : β → Text → Dialogue (Turn β γ)} (b : β)
    (hshort : ∀ b, (choices b).length ≤ Numeral.word64) (hround : ∀ b a, (round b a).Typeable) :
    (rounds (fun b => .menu (message b) (choices b)) round b).Typeable := by
  refine typeable_rounds b (fun b _ => hshort b) (fun b a a' h => ?_) hround
  cases h
  rfl

theorem typeable_pick (message : Text) {choices : List Choice} (h : choices.length ≤ Numeral.word64)
    (read : Text → Except Error α) (remark : α → Remark) :
    (do
      let picked ← ask (.menu message choices)
      let a ← ofExcept (read picked)
      tell (remark a)
      return a : Dialogue α).Typeable :=
  typeable_bind (typeable_menu message h) (fun _ =>
    typeable_bind (typeable_ofExcept _) (fun _ => typeable_bind (typeable_tell _) (fun _ => typeable_done _)))

theorem typeable_refuse (state : β) (reason : Text) : (refuse state reason : Dialogue (Turn β γ)).Typeable :=
  typeable_bind (typeable_tell _) (fun _ => typeable_done _)

theorem typeable_askUntil (text : Text) {settle : Text → Except Text γ}
    (htrim : ∀ a a', a.trim = a'.trim → settle a = settle a') : (askUntil (.line text) settle).Typeable := by
  refine typeable_lines () (fun _ a a' h => ?_) (fun _ raw => ?_)
  · rw [htrim a a' h]
  · split
    · exact typeable_done _
    · exact typeable_refuse _ _

theorem typeable_askRequired (message : Text) (reader : Reader α) : (askRequired message reader).Typeable := by
  rw [askRequired_eq]
  exact typeable_askUntil _ (fun a a' h => congrArg reader h)

theorem goesBack_congr {a a' : Text} (h : a.trim = a'.trim) : goesBack a = goesBack a' := by
  rw [goesBack, h, goesBack]

theorem typeable_askEscapable (message : Text) (reader : Reader α) : (askEscapable message reader).Typeable := by
  rw [askEscapable_eq]
  refine typeable_askUntil _ (fun a a' h => ?_)
  rw [orBack, h, goesBack_congr h, orBack]

theorem typeable_askYes (message : Text) (default : Bool) : (askYes message default).Typeable :=
  typeable_askRequired _ _

theorem typeable_selectOrBack (message : Text) {choices : List Choice} (h : choices.length < Numeral.word64)
    (origin : Text) : (selectOrBack message choices origin).Typeable := by
  refine typeable_bind (typeable_menu message ?_) (fun _ => typeable_done _)
  rw [List.length_append]
  exact h

theorem typeable_enchantments : Enchantment.collect.Typeable := by
  refine typeable_lines [] (fun _ a a' h => ?_) (fun collected raw => ?_)
  · rw [h, goesBack_congr h]
  · split
    · exact typeable_done _
    · split
      · refine typeable_bind (typeable_askRequired _ _) (fun _ => typeable_bind (typeable_tell _) (fun _ => ?_))
        exact typeable_bind (typeable_menu _ (by decide)) (fun _ => typeable_done _)
      · exact typeable_refuse _ _

end Dialogue

namespace Schema

open Dialogue

def optionCount : ValueKind → Nat
  | .choice _ options => options.length
  | _ => 0

/-- **A schema all of whose menus are short.** -/
structure Short (schema : Schema) : Prop where
  keys : schema.keys.length < Numeral.word64
  options : ∀ spec ∈ schema.keys, optionCount spec.value < Numeral.word64

theorem short_selectors : selectors.Short := by constructor <;> decide

theorem short_components : components.Short := by constructor <;> decide

theorem typeable_collect (noun : Text) {kind : ValueKind} (h : optionCount kind < Numeral.word64) :
    (kind.collect noun).Typeable := by
  cases kind with
  | choice prompt options =>
    refine typeable_selectOrBack prompt ?_ noun
    rw [List.length_map]
    exact h
  | enchantments => exact typeable_enchantments
  | _ => exact typeable_askEscapable _ _

theorem typeable_round {schema : Schema} (h : schema.Short) (collected : ClauseSet) (pick : Text) :
    (schema.round collected pick).Typeable := by
  unfold round
  split
  · exact typeable_done _
  · split
    · exact typeable_fail _
    · rename_i spec hsome
      have hoptions := h.options spec (picked?_eq_some hsome).1
      refine typeable_bind (typeable_tell _) (fun _ => typeable_bind (typeable_collect _ hoptions) (fun answer => ?_))
      cases answer <;> exact typeable_bind (typeable_tell _) (fun _ => typeable_done _)

theorem typeable_build {schema : Schema} (h : schema.Short) : schema.build.Typeable := by
  refine typeable_bind (typeable_menus _ (fun collected => ?_) (typeable_round h)) (fun _ => ?_)
  · rw [menu, List.length_append, List.length_map]
    exact Nat.lt_of_le_of_lt (List.length_filter_le _ _) h.keys
  · exact typeable_bind (typeable_tell _) (fun _ => typeable_done _)

end Schema

namespace Session

open Dialogue

theorem typeable_askField (label message : Text) (reader : Reader Text) : (askField label message reader).Typeable :=
  typeable_bind (typeable_askRequired _ _) (fun _ => typeable_bind (typeable_tell _) (fun _ => typeable_done _))

theorem typeable_askBlock (catalog : Catalog) (message : Text) : (askBlock catalog message).Typeable := by
  refine typeable_bind ?_ (fun _ => typeable_bind (typeable_askRequired _ _) (fun _ => ?_))
  · unfold noticeIfUnavailable
    split
    · exact typeable_tell _
    · exact typeable_done _
  · exact typeable_bind (typeable_tell _) (fun _ => typeable_done _)

theorem typeable_askClauses (message : Text) {schema : Schema} (h : schema.Short) :
    (askClauses message schema).Typeable := by
  refine typeable_bind (typeable_askYes _ _) (fun wanted => ?_)
  cases wanted with
  | false => exact typeable_done _
  | true => exact typeable_bind (Schema.typeable_build h) (fun _ => typeable_done _)

theorem typeable_composeGive : composeGive.Typeable :=
  typeable_bind (typeable_pick _ (by decide) _ _) (fun _ =>
    typeable_bind (typeable_askClauses _ Schema.short_selectors) (fun _ =>
      typeable_bind (typeable_askField _ _ _) (fun _ =>
        typeable_bind (typeable_askClauses _ Schema.short_components) (fun _ =>
          typeable_bind (typeable_askField _ _ _) (fun _ => typeable_done _)))))

theorem typeable_compose (catalog : Catalog) (kind : Kind) : (compose catalog kind).Typeable := by
  cases kind with
  | give => exact typeable_composeGive
  | teleport => exact typeable_bind (typeable_askField _ _ _) (fun _ => typeable_done _)
  | setblock =>
    refine typeable_bind (typeable_askField _ _ _) (fun _ => ?_)
    exact typeable_bind (typeable_askBlock _ _) (fun _ => typeable_done _)
  | fill =>
    refine typeable_bind (typeable_askField _ _ _) (fun _ => typeable_bind (typeable_askField _ _ _) (fun _ => ?_))
    exact typeable_bind (typeable_askBlock _ _) (fun _ => typeable_done _)
  | say => exact typeable_bind (typeable_askField _ _ _) (fun _ => typeable_done _)
  | execute =>
    refine typeable_bind (typeable_askField _ _ _) (fun _ => ?_)
    exact typeable_bind (typeable_askField _ _ _) (fun _ => typeable_done _)

theorem typeable_command (catalog : Catalog) : (command catalog).Typeable :=
  typeable_bind (typeable_pick _ (by decide) _ _) (fun kind =>
    typeable_bind (typeable_compose catalog kind) (fun _ => typeable_ofExcept _))

end Session
end CommandComposer
