import Mathlib.Data.List.Nodup
import CommandComposer.Proofs.Building
import CommandComposer.Proofs.Composing
import CommandComposer.Proofs.LineQuestions
import CommandComposer.Proofs.Swapping
import CommandComposer.Proofs.Values
/-!
# Refusals — an answer that is refused leaves no trace

A dialogue forgives if an answer that one of its questions refuses may be given there, and told the reason for, before
any reply (`Forgiving`).  Asking until an answer is accepted forgives because nothing is kept of a refused answer, and
each form of dialogue keeps this, so composing a command has it (`forgiving_command`).
-/
namespace CommandComposer

/-- A question for a line is one of those listed. -/
def Exchange.Listed (qs : List LineQuestion) : Exchange → Prop
  | .asked (.line text) _ => ∃ q ∈ qs, q.text = text
  | _ => True

def Exchange.NoLine : Exchange → Prop
  | .asked (.line _) _ => False
  | _ => True

theorem Enchantment.round_of_refused {collected : List Enchantment} {raw reason : Text}
    (h : nameQuestion.refusal? raw = some reason) : round collected raw = Dialogue.refuse collected reason := by
  obtain ⟨hstays, hread⟩ := LineQuestion.refusal?_escapable h
  rw [round, if_neg (by simp [hstays]), hread]

namespace Dialogue

variable {α β γ : Type} {qs : List LineQuestion}

/-- **A dialogue whose questions for a line are listed and forgive what they refuse.** -/
structure Forgiving (qs : List LineQuestion) (d : Dialogue α) : Prop where
  listed : d.Says (Exchange.Listed qs)
  swaps : ∀ q ∈ qs, ∀ raw, q.Refuses raw → ∀ reply,
    d.Swaps (.asked (.line q.text) reply) (q.attempt raw ++ [.asked (.line q.text) reply])

theorem forgiving_of_noLine {d : Dialogue α} (h : d.Says Exchange.NoLine) : d.Forgiving qs where
  listed l r htalk x hx := by
    have hline := h l r htalk x hx
    rcases x with ⟨_ | _, reply⟩ | remark
    · trivial
    · exact absurd hline id
    · trivial
  swaps q hq raw hraw reply := by
    refine swaps_of_unsaid (fun l r htalk x hx hline => ?_)
    have := h l r htalk x hx
    rw [hline] at this
    exact this

theorem forgiving_done (a : α) : (done a).Forgiving qs := forgiving_of_noLine (says_done a)

theorem forgiving_tell (m : Remark) : (tell m).Forgiving qs := forgiving_of_noLine (says_tell trivial)

theorem forgiving_menu (message : Text) (choices : List Choice) : (ask (.menu message choices)).Forgiving qs :=
  forgiving_of_noLine (says_ask (fun _ => trivial))

theorem forgiving_ofExcept (x : Except Error α) : (ofExcept x).Forgiving qs := by
  cases x with
  | ok a => exact forgiving_done a
  | error e => exact forgiving_of_noLine (says_fail e)

theorem forgiving_bind {d : Dialogue α} {next : α → Dialogue β} (hd : d.Forgiving qs)
    (hn : ∀ a, (next a).Forgiving qs) : (d >>= next).Forgiving qs where
  listed := says_bind hd.listed (fun a => (hn a).listed)
  swaps q hq raw hraw reply :=
    swaps_bind (hd.swaps q hq raw hraw reply) (fun a => (hn a).swaps q hq raw hraw reply)

theorem forgiving_refuse (state : β) (reason : Text) : (refuse state reason : Dialogue (Turn β γ)).Forgiving qs :=
  forgiving_bind (forgiving_tell _) (fun _ => forgiving_done _)

theorem rounds_opens {question : β → Question} {round : β → Text → Dialogue (Turn β γ)} {b : β} {l : List Exchange}
    {r : Except Error γ} (h : (rounds question round b).Talk l r) :
    ∃ reply l', l = .asked (question b) reply :: l' := by
  cases h with
  | unanswered => exact ⟨_, _, rfl⟩
  | failed => exact ⟨_, _, rfl⟩
  | finished => exact ⟨_, _, rfl⟩
  | again => exact ⟨_, _, rfl⟩

/-- **Rounds that open with a question forgive** if a refused answer leads to the same round again. -/
theorem forgiving_lines (hqs : (qs.map LineQuestion.text).Nodup) {q : LineQuestion} (hq : q ∈ qs)
    {round : β → Text → Dialogue (Turn β γ)}
    (hrefuse : ∀ b raw reason, q.refusal? raw = some reason → round b raw = refuse b reason)
    (hround : ∀ b raw, (round b raw).Forgiving qs) (b : β) :
    (rounds (fun _ => .line q.text) round b).Forgiving qs where
  listed := says_rounds (fun _ _ => ⟨q, hq, rfl⟩) (fun b raw => (hround b raw).listed)
  swaps q' hq' raw hraw reply := by
    refine swaps_rounds (fun b after r h => ?_) (fun b a => (hround b a).swaps q' hq' raw hraw reply) b
    -- the question that opens the round is this one, and no other has its text
    obtain ⟨_, _, hopens⟩ := rounds_opens h
    have htext : q'.text = q.text := Question.line.inj (Exchange.asked.inj (List.cons.inj hopens).1).1
    obtain rfl : q' = q := List.inj_on_of_nodup_map hqs hq' hq htext
    rw [List.append_assoc]
    exact LineQuestion.talk_rounds_attempt (hrefuse b) hraw h

theorem forgiving_menus {message : β → Text} {choices : β → List Choice} {round : β → Text → Dialogue (Turn β γ)}
    (hround : ∀ b a, (round b a).Forgiving qs) (b : β) :
    (rounds (fun b => .menu (message b) (choices b)) round b).Forgiving qs where
  listed := says_rounds (fun _ _ => trivial) (fun b a => (hround b a).listed)
  swaps q hq raw hraw reply := by
    refine swaps_rounds (fun b after r h => ?_) (fun b a => (hround b a).swaps q hq raw hraw reply) b
    obtain ⟨_, _, hopens⟩ := rounds_opens h
    cases (List.cons.inj hopens).1

variable (hqs : (qs.map LineQuestion.text).Nodup)
include hqs

theorem forgiving_askUntil {q : LineQuestion} (hq : q ∈ qs) {settle : Text → Except Text γ}
    (hsettle : ∀ raw reason, q.refusal? raw = some reason → settle raw = .error reason) :
    (askUntil (.line q.text) settle).Forgiving qs := by
  refine forgiving_lines hqs hq (fun _ raw reason h => ?_) (fun _ raw => ?_) ()
  · rw [hsettle raw reason h]
  · split
    · exact forgiving_done _
    · exact forgiving_refuse _ _

theorem forgiving_askRequired {message : Text} {reader : Reader α} (hq : .required message reader ∈ qs) :
    (askRequired message reader).Forgiving qs := by
  rw [askRequired_eq]
  exact forgiving_askUntil hqs hq (fun raw reason h => LineQuestion.refusalOf_eq_some h)

theorem forgiving_askEscapable {message : Text} {reader : Reader α} (hq : .escapable message reader ∈ qs) :
    (askEscapable message reader).Forgiving qs := by
  rw [askEscapable_eq]
  refine forgiving_askUntil hqs hq (fun raw reason h => ?_)
  obtain ⟨hstays, hread⟩ := LineQuestion.refusal?_escapable h
  rw [orBack, if_neg (by simp [hstays]), hread]
  rfl

theorem forgiving_enchantments (hq : ∀ q ∈ ValueKind.lineQuestions .enchantments, q ∈ qs) :
    Enchantment.collect.Forgiving qs := by
  refine forgiving_lines hqs (hq _ List.mem_cons_self) (fun _ _ _ => Enchantment.round_of_refused)
    (fun collected raw => ?_) []
  unfold Enchantment.round
  split
  · exact forgiving_done _
  · split
    · refine forgiving_bind (forgiving_askRequired hqs (hq _ (List.mem_of_getElem? (i := 1) rfl))) (fun level => ?_)
      refine forgiving_bind (forgiving_tell _) (fun _ => ?_)
      exact forgiving_bind (forgiving_menu _ _) (fun _ => forgiving_done _)
    · exact forgiving_refuse _ _

theorem forgiving_collect (noun : Text) {kind : ValueKind} (hq : ∀ q ∈ kind.lineQuestions, q ∈ qs) :
    (kind.collect noun).Forgiving qs := by
  cases kind with
  | choice prompt options => exact forgiving_bind (forgiving_menu _ _) (fun _ => forgiving_done _)
  | enchantments => exact forgiving_enchantments hqs hq
  | _ => exact forgiving_askEscapable hqs (hq _ List.mem_cons_self)

theorem forgiving_build {schema : Schema} (hq : ∀ q ∈ schema.lineQuestions, q ∈ qs) : schema.build.Forgiving qs := by
  refine forgiving_bind (forgiving_menus (fun collected pick => ?_) _) (fun _ => ?_)
  · unfold Schema.round
    split
    · exact forgiving_done _
    · split
      · exact forgiving_of_noLine (says_fail _)
      · rename_i spec hsome
        have hvalue : ∀ q ∈ spec.value.lineQuestions, q ∈ qs := fun q hmem =>
          hq q (List.mem_flatMap.2 ⟨spec, (Schema.picked?_eq_some hsome).1, hmem⟩)
        refine forgiving_bind (forgiving_tell _) (fun _ => ?_)
        refine forgiving_bind (forgiving_collect hqs _ hvalue) (fun answer => ?_)
        cases answer <;> exact forgiving_bind (forgiving_tell _) (fun _ => forgiving_done _)
  · exact forgiving_bind (forgiving_tell _) (fun _ => forgiving_done _)

end Dialogue

namespace Session

open Dialogue

theorem forgiving_pick {qs : List LineQuestion} (message : Text) (choices : List Choice) {α : Type}
    (read : Text → Except Error α) (remark : α → Remark) :
    (do
      let picked ← ask (.menu message choices)
      let a ← ofExcept (read picked)
      tell (remark a)
      return a : Dialogue α).Forgiving qs :=
  forgiving_bind (forgiving_menu _ _) (fun _ =>
    forgiving_bind (forgiving_ofExcept _) (fun _ => forgiving_bind (forgiving_tell _) (fun _ => forgiving_done _)))

section

variable {qs : List LineQuestion} (hqs : (qs.map LineQuestion.text).Nodup)
include hqs

theorem forgiving_askField {label message : Text} {reader : Reader Text} (hq : .required message reader ∈ qs) :
    (askField label message reader).Forgiving qs :=
  forgiving_bind (forgiving_askRequired hqs hq) (fun _ => forgiving_bind (forgiving_tell _) (fun _ => forgiving_done _))

theorem forgiving_askBlock {catalog : Catalog} {message : Text} (hq : .required message (readBlock catalog) ∈ qs) :
    (askBlock catalog message).Forgiving qs := by
  refine forgiving_bind ?_ (fun _ => forgiving_bind (forgiving_askRequired hqs hq) (fun _ => ?_))
  · unfold noticeIfUnavailable
    split
    · exact forgiving_tell _
    · exact forgiving_done _
  · exact forgiving_bind (forgiving_tell _) (fun _ => forgiving_done _)

theorem forgiving_askClauses {message : Text} {schema : Schema} (hyes : .yesNo message ∈ qs)
    (hq : ∀ q ∈ schema.lineQuestions, q ∈ qs) : (askClauses message schema).Forgiving qs := by
  refine forgiving_bind (forgiving_askRequired hqs hyes) (fun wanted => ?_)
  cases wanted with
  | false => exact forgiving_done _
  | true => exact forgiving_bind (forgiving_build hqs hq) (fun _ => forgiving_done _)

theorem forgiving_compose {catalog : Catalog} {kind : Kind} (hq : ∀ q ∈ kindQuestions catalog kind, q ∈ qs) :
    (compose catalog kind).Forgiving qs := by
  have hmem := fun i q h => hq q (List.mem_of_getElem? (i := i) h)
  cases kind with
  | give =>
    have hselectors : ∀ q ∈ Schema.selectors.lineQuestions, q ∈ qs := fun q h =>
      hq q (List.mem_append_right _ (List.mem_append_left _ h))
    have hcomponents : ∀ q ∈ Schema.components.lineQuestions, q ∈ qs := fun q h =>
      hq q (List.mem_append_right _ (List.mem_append_right _ h))
    refine forgiving_bind (forgiving_pick _ _ _ _) (fun target => ?_)
    refine forgiving_bind (forgiving_askClauses hqs (hmem 0 _ rfl) hselectors) (fun clauses => ?_)
    refine forgiving_bind (forgiving_askField hqs (hmem 1 _ rfl)) (fun item => ?_)
    refine forgiving_bind (forgiving_askClauses hqs (hmem 2 _ rfl) hcomponents) (fun components => ?_)
    exact forgiving_bind (forgiving_askField hqs (hmem 3 _ rfl)) (fun amount => forgiving_done _)
  | teleport => exact forgiving_bind (forgiving_askField hqs (hmem 0 _ rfl)) (fun _ => forgiving_done _)
  | setblock =>
    refine forgiving_bind (forgiving_askField hqs (hmem 0 _ rfl)) (fun _ => ?_)
    exact forgiving_bind (forgiving_askBlock hqs (hmem 1 _ rfl)) (fun _ => forgiving_done _)
  | fill =>
    refine forgiving_bind (forgiving_askField hqs (hmem 0 _ rfl)) (fun _ => ?_)
    refine forgiving_bind (forgiving_askField hqs (hmem 1 _ rfl)) (fun _ => ?_)
    exact forgiving_bind (forgiving_askBlock hqs (hmem 2 _ rfl)) (fun _ => forgiving_done _)
  | say => exact forgiving_bind (forgiving_askField hqs (hmem 0 _ rfl)) (fun _ => forgiving_done _)
  | execute =>
    refine forgiving_bind (forgiving_askField hqs (hmem 0 _ rfl)) (fun _ => ?_)
    exact forgiving_bind (forgiving_askField hqs (hmem 1 _ rfl)) (fun _ => forgiving_done _)

end

theorem says_ne_of_questionsBut {α : Type} {d : Dialogue α} {catalog : Catalog} {texts : List Text}
    (h : d.Forgiving (questionsBut catalog texts)) {text : Text} (htext : text ∈ texts) (reply : Except Error Text) :
    d.Says (· ≠ .asked (.line text) reply) := by
  rintro l r htalk x hx rfl
  obtain ⟨q, hq, rfl⟩ := h.listed l r htalk _ hx
  exact (mem_questionsBut_iff.1 hq).2 htext

theorem forgiving_command (catalog : Catalog) : (command catalog).Forgiving (lineQuestions catalog) :=
  forgiving_bind (forgiving_pick _ _ _ _) (fun _ =>
    forgiving_bind (forgiving_compose (nodup_lineQuestions catalog) (fun _ => mem_lineQuestions)) (fun _ =>
      forgiving_ofExcept _))

/-- **A refused answer leaves no trace on the result.**  Where a session with a script gives a command and a question
for a line is answered in it, any answer that this question refuses may be put before the answer there: the command and
the answers left are the same, and what is recorded more is the reason and the question once again. -/
theorem refused_answer_leaves_no_trace {catalog : Catalog} {answers : List Text} {cmd : Text} {left : Script}
    (hrun : composeWith (Script.partner .checked) catalog (Script.start answers) = (.ok cmd, left))
    {before after : List Exchange} {text reply : Text}
    (hasked : scriptedTalk catalog answers = before ++ .asked (.line text) (.ok reply) :: after) :
    (∃ q ∈ lineQuestions catalog, q.text = text) ∧
    ∃ rest earlier later, answers = replies before ++ reply :: rest ∧
      left.events = earlier ++ .asked (.line text) :: later ∧
      ∀ q ∈ lineQuestions catalog, q.text = text → ∀ raw reason, q.refusal? raw = some reason →
        composeWith (Script.partner .checked) catalog (Script.start (replies before ++ raw :: reply :: rest)) =
          (.ok cmd, ⟨left.answers,
            earlier ++ .asked (.line text) :: .heard .error reason :: .asked (.line text) :: later⟩) := by
  have hforgiving := forgiving_command catalog
  obtain ⟨htalk, -⟩ := composeWith_ok hrun
  rw [hasked] at htalk
  obtain ⟨rest, more, hanswers, hevents, hswap⟩ := composeWith_swap hrun hasked ⟨trivial, rfl⟩
  refine ⟨hforgiving.listed _ _ htalk (.asked (.line text) (.ok reply)) (by simp), rest, _, more, hanswers, hevents, ?_⟩
  rintro q hq rfl raw reason hrefusal
  have hgiven : ∀ z ∈ q.attempt raw ++ [.asked (.line q.text) (.ok reply)], z.Given :=
    List.forall_mem_append.2 ⟨q.given_attempt raw, List.forall_mem_singleton.2 (Exchange.given_line _ _)⟩
  have hswapped := hswap _ hgiven (hforgiving.swaps q hq raw ⟨reason, hrefusal⟩ (.ok reply))
  rw [LineQuestion.attempt_of_refused hrefusal] at hswapped
  exact hswapped

/-- A block that is blank behind its namespace, before one that is listed. -/
theorem refused_answer_leaves_no_trace_blank :
    ∃ left earlier later,
      composeWith (Script.partner .checked) (.ofNames ["stone"]) (Script.start ["setblock", "0 0 0", "stone", "left"]) =
        (.ok "/setblock 0 0 0 minecraft:stone", left) ∧
      left.events = earlier ++ .asked (required "Block (e.g., diamond_block)") :: later ∧
      composeWith (Script.partner .checked) (.ofNames ["stone"])
          (Script.start ["setblock", "0 0 0", "minecraft: ", "stone", "left"]) =
        (.ok "/setblock 0 0 0 minecraft:stone", ⟨left.answers,
          earlier ++ .asked (required "Block (e.g., diamond_block)") :: .heard .error "Please enter a block." ::
            .asked (required "Block (e.g., diamond_block)") :: later⟩) := by
  have hrun : composeWith (Script.partner .checked) (.ofNames ["stone"])
      (Script.start ["setblock", "0 0 0", "stone", "left"]) = (.ok "/setblock 0 0 0 minecraft:stone", _) := rfl
  have hasked : scriptedTalk (.ofNames ["stone"]) ["setblock", "0 0 0", "stone", "left"] =
      [.asked kindMenu (.ok "setblock"), .heard (.echo "Generate target" "setblock"),
        .asked (required "Position (e.g., 0 64 0)") (.ok "0 0 0"), .heard (.echo "Position" "0 0 0")] ++
      .asked (required "Block (e.g., diamond_block)") (.ok "stone") :: [.heard (.echo "Block" "minecraft:stone")] := rfl
  obtain ⟨-, rest, earlier, later, hanswers, hevents, hrefused⟩ := refused_answer_leaves_no_trace hrun hasked
  obtain rfl : (["left"] : List Text) = rest := congrArg (List.drop 3) hanswers
  have hblock : LineQuestion.required "Block (e.g., diamond_block)" (readBlock (.ofNames ["stone"])) ∈
      lineQuestions (.ofNames ["stone"]) :=
    @mem_lineQuestions _ .setblock _ (List.mem_of_getElem? (i := 1) rfl)
  exact ⟨_, earlier, later, hrun, hevents, hrefused _ hblock rfl "minecraft: " "Please enter a block." rfl⟩

end Session
end CommandComposer
