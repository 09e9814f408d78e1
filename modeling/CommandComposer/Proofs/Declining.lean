import CommandComposer.Proofs.Composing
import CommandComposer.Proofs.Detours
/-!
# Declining — a builder that is entered and left empty is as good as declined

A builder that collects nothing refines nothing, so the question whether it is wanted may be answered with yes instead
of no and followed by whatever collects nothing (`swaps_command`).  Together with the detours at the menus of keys this
is the whole of what a key that is backed out of can do: nothing (`detours_leave_no_trace`).
-/
namespace CommandComposer

open Dialogue

namespace Dialogue

variable {α : Type} {message : Text} {reader : Reader α}

/-- **An accepted answer settles a question**, and so would any other that is accepted. -/
theorem talk_askRequired_accepted {before after : List Exchange} {raw : Text} {a : α} {r : Except Error α}
    (h : (askRequired message reader).Talk (before ++ .asked (required message) (.ok raw) :: after) r)
    (hread : reader raw.trim = .ok a) :
    after = [] ∧ r = .ok a ∧ ∀ raw' a', reader raw'.trim = .ok a' →
      (askRequired message reader).Talk (before ++ [.asked (required message) (.ok raw')]) (.ok a') := by
  obtain ⟨refused, reply, hrefused, hsettles, hl⟩ := attempts_of_talk h
  have hother : ∀ z ∈ (LineQuestion.required message reader).attempts refused,
      ¬ z = .asked (required message) (.ok raw) := by
    rintro z hz rfl
    rcases LineQuestion.mem_attempts hz with ⟨raw', hraw', heq⟩ | ⟨reason, heq⟩
    · obtain rfl : raw = raw' := Except.ok.inj (Exchange.asked.inj heq).2
      obtain ⟨reason, hreason⟩ := hrefused raw hraw'
      rw [LineQuestion.refusalOf_eq_some hreason] at hread
      cases hread
    · cases heq
  obtain ⟨before', rfl, hlast⟩ := eq_append_of_split (P := (· = .asked (required message) (.ok raw))) rfl hother hl.symm
  obtain ⟨rfl, hlast⟩ : before' = [] ∧
      [.asked (required message) reply] = .asked (required message) (.ok raw) :: after := by
    cases before' with
    | nil => exact ⟨rfl, hlast⟩
    | cons z before' => exact absurd (List.cons.inj hlast).2.symm (by simp)
  obtain ⟨hreply, rfl⟩ := List.cons.inj hlast
  obtain rfl : reply = .ok raw := (Exchange.asked.inj hreply).2
  refine ⟨rfl, ?_, fun raw' a' hread' => ?_⟩
  · rcases hsettles with ⟨e, he, -⟩ | ⟨raw', a', hraw, ha', rfl⟩
    · cases he
    · cases hraw
      rw [hread] at ha'
      cases ha'
      rfl
  · rw [List.append_nil]
    exact talk_askRequired_iff.2 ⟨refused, .ok raw', hrefused, .inr ⟨raw', a', rfl, hread', rfl⟩, rfl⟩

end Dialogue

namespace Session

/-- **The builders that a gift offers.** -/
inductive Builder where
  | selectors
  | components
deriving DecidableEq

namespace Builder

def schema : Builder → Schema
  | .selectors => Schema.selectors
  | .components => Schema.components

/-- The question whether the builder is wanted. -/
def wanted : Builder → Text
  | .selectors => "Want to further refine your target selector?"
  | .components => "Want to add item components?"

def question (builder : Builder) : LineQuestion := .yesNo builder.wanted

/-- The question whether the builder is wanted, with a reply. -/
def answered (builder : Builder) (reply : Text) : Exchange := .asked (.line builder.question.text) (.ok reply)

/-- The questions for a line that are not this one. -/
def others (builder : Builder) (catalog : Catalog) : List LineQuestion := questionsBut catalog [builder.question.text]

/-- Where that question is among those for a gift. -/
def index : Builder → Nat
  | .selectors => 0
  | .components => 2

theorem plain : ∀ builder : Builder, builder.schema.Plain
  | .selectors => Schema.plain_selectors
  | .components => Schema.plain_components

theorem nodup_keyNames (builder : Builder) : builder.schema.keyNames.Nodup := by
  cases builder <;> decide

theorem question_at_index (builder : Builder) (catalog : Catalog) :
    (kindQuestions catalog .give)[builder.index]? = some builder.question := by
  cases builder <;> rfl

theorem index_inj {builder builder' : Builder} (h : builder.index = builder'.index) : builder = builder' := by
  cases builder <;> cases builder' <;> first | rfl | cases h

theorem mem_kindQuestions (builder : Builder) (catalog : Catalog) {q : LineQuestion}
    (hq : q ∈ builder.schema.lineQuestions) : ∃ n, (kindQuestions catalog .give)[n + 4]? = some q := by
  have htail : q ∈ Schema.selectors.lineQuestions ++ Schema.components.lineQuestions := by
    cases builder with
    | selectors => exact List.mem_append_left _ hq
    | components => exact List.mem_append_right _ hq
  obtain ⟨n, hn⟩ := List.mem_iff_getElem?.1 htail
  refine ⟨n, ?_⟩
  rw [kindQuestions, List.getElem?_append_right (Nat.le_add_left 4 n)]
  exact hn

theorem index_lt (builder : Builder) : builder.index < 3 := by
  cases builder <;> decide

end Builder

/-- **A builder that is declined may be entered and left empty**, since nothing is made of either. -/
theorem trades_askClauses {builder : Builder} {no yes : Text} {talk : List Exchange}
    (hno : readYes false no.trim = .ok false) (hyes : readYes false yes.trim = .ok true)
    (htalk : builder.schema.build.Talk talk (.ok .empty))
    (hnever : builder.schema.build.Says (· ≠ builder.answered no)) :
    (askClauses builder.wanted builder.schema).Trades (builder.answered no) (builder.answered yes :: talk)
      Draft.refined := by
  rintro before after r (⟨e, h, rfl⟩ | ⟨wanted, l₁, l₂, h₁, h₂, hl⟩)
  · cases (talk_askRequired_accepted h hno).2.1
  · rcases append_eq_append_cons hl.symm with ⟨mid, rfl, rfl⟩ | ⟨mid, rfl, rfl⟩
    · obtain ⟨rfl, hwanted, hswap⟩ := talk_askRequired_accepted h₁ hno
      cases hwanted
      obtain ⟨rfl, rfl⟩ := h₂
      refine ⟨.ok (some .empty), ?_, rfl⟩
      refine (talk_bind_ok _ _ _ _).2 ⟨true, _, talk ++ [], hswap yes true hyes, ?_, ?_⟩
      · exact (talk_bind_ok _ _ _ _).2 ⟨.empty, talk, [], htalk, ⟨rfl, rfl⟩, rfl⟩
      · rw [List.append_assoc]
        rfl
    · -- the question is not asked again once it is answered
      have hbuilder : (if wanted = true then (do return some (← builder.schema.build)) else return none :
          Dialogue (Option ClauseSet)).Says (· ≠ builder.answered no) := by
        cases wanted with
        | false => exact says_done _
        | true => exact says_bind hnever (fun _ => says_done _)
      exact absurd rfl (hbuilder _ r h₂ _ (by simp))

section

variable {catalog : Catalog} {builder : Builder}

theorem mem_others {kind : Kind} {i : Nat} (hi : kind = .give → i ≠ builder.index) {q : LineQuestion}
    (hq : (kindQuestions catalog kind)[i]? = some q) : q ∈ builder.others catalog :=
  mem_questionsBut_iff.2 ⟨mem_lineQuestions (List.mem_of_getElem? hq), fun h =>
    text_ne_of_place hi hq (builder.question_at_index catalog) (List.mem_singleton.1 h)⟩

theorem mem_others_of_schema {builder' : Builder} {q : LineQuestion} (hq : q ∈ builder'.schema.lineQuestions) :
    q ∈ builder.others catalog := by
  obtain ⟨n, hn⟩ := builder'.mem_kindQuestions catalog hq
  have hlt := builder.index_lt
  exact mem_others (fun _ => by omega) hn

/-- A dialogue that asks only other questions never asks whether the builder is wanted. -/
theorem says_ne_of_others {α : Type} {d : Dialogue α} (catalog : Catalog) (h : d.Forgiving (builder.others catalog))
    (reply : Text) : d.Says (· ≠ builder.answered reply) :=
  says_ne_of_questionsBut h List.mem_cons_self (.ok reply)

theorem swaps_of_others {α : Type} {d : Dialogue α} (catalog : Catalog) (h : d.Forgiving (builder.others catalog))
    {reply : Text} {y : List Exchange} : d.Swaps (builder.answered reply) y :=
  swaps_of_unsaid (says_ne_of_others catalog h reply)

variable {no yes : Text} {talk : List Exchange} (hno : readYes false no.trim = .ok false)
  (hyes : readYes false yes.trim = .ok true) (htalk : builder.schema.build.Talk talk (.ok .empty))
include hno hyes htalk

theorem trades_askClauses_of_declined (catalog : Catalog) (builder' : Builder) :
    (askClauses builder'.wanted builder'.schema).Trades (builder.answered no) (builder.answered yes :: talk)
      Draft.refined := by
  have hqs := nodup_questionsBut catalog [builder.question.text]
  by_cases h : builder' = builder
  · subst h
    have hbuild : builder'.schema.build.Forgiving (builder'.others catalog) :=
      forgiving_build hqs (fun q hq => mem_others_of_schema hq)
    exact trades_askClauses hno hyes htalk (says_ne_of_others catalog hbuild no)
  · have hquestion : builder'.question ∈ builder.others catalog :=
      mem_others (fun _ heq => h (Builder.index_inj heq)) (builder'.question_at_index catalog)
    have hother : (askClauses builder'.wanted builder'.schema).Forgiving (builder.others catalog) :=
      forgiving_askClauses hqs hquestion (fun q hq => mem_others_of_schema hq)
    exact (swaps_of_others catalog hother).trades _

theorem trades_composeGive (catalog : Catalog) :
    (compose catalog .give).Trades (builder.answered no) (builder.answered yes :: talk) Draft.serialize := by
  have hqs := nodup_questionsBut catalog [builder.question.text]
  have hbuilder := trades_askClauses_of_declined hno hyes htalk catalog
  have hother : ∀ {α : Type} {d : Dialogue α}, d.Forgiving (builder.others catalog) →
      d.Trades (builder.answered no) (builder.answered yes :: talk) id := fun h => (swaps_of_others catalog h).trades id
  have hsame : ∀ {α β : Type} {f : β → Except Error Text} {next : α → Dialogue β} (a a' : α), id a = id a' →
      (next a).Follows f (next a') := by
    rintro α β f next a _ rfl
    exact follows_refl f (next a)
  have hfield : ∀ {label message : Text} {reader : Reader Text} (i : Nat), i ≠ builder.index →
      (kindQuestions catalog .give)[i]? = some (.required message reader) →
      (askField label message reader).Trades (builder.answered no) (builder.answered yes :: talk) id :=
    fun _ hi hq => hother (forgiving_askField hqs (mem_others (fun _ => hi) hq))
  have hitem : 1 ≠ builder.index := by cases builder <;> decide
  have hamount : 3 ≠ builder.index := by cases builder <;> decide
  refine trades_bind (hother (forgiving_pick _ _ _ _)) hsame (fun target => ?_)
  refine trades_bind (hbuilder .selectors) (fun clauses clauses' h => ?_) (fun clauses => ?_)
  · refine follows_bind _ (fun item => follows_bind _ (fun components => follows_bind _ (fun amount => ?_)))
    refine follows_done ?_
    rw [Draft.serialize_give, Draft.serialize_give, h]
  refine trades_bind (hfield 1 hitem rfl) hsame (fun item => ?_)
  refine trades_bind (hbuilder .components) (fun components components' h => ?_) (fun components => ?_)
  · refine follows_bind _ (fun amount => follows_done ?_)
    rw [Draft.serialize_give, Draft.serialize_give, h]
  refine trades_bind (hfield 3 hamount rfl) hsame (fun amount => ?_)
  exact (swaps_of_unsaid (says_done _)).trades _

/-- **A session where a builder is declined may enter it and collect nothing.** -/
theorem swaps_command (catalog : Catalog) :
    (command catalog).Swaps (builder.answered no) (builder.answered yes :: talk) := by
  have hqs := nodup_questionsBut catalog [builder.question.text]
  have hserialize : ∀ d : Draft, (ofExcept d.serialize).Swaps (builder.answered no) (builder.answered yes :: talk) :=
    fun d => swaps_of_others catalog (forgiving_ofExcept _)
  refine swaps_bind (swaps_of_others catalog (forgiving_pick _ _ _ _)) (fun kind => ?_)
  by_cases hkind : kind = .give
  · subst hkind
    have hgive := trades_composeGive hno hyes htalk catalog
    refine swaps_iff_trades_id.2 (trades_bind hgive (fun d d' h => ?_) (fun d => (hserialize d).trades id))
    rw [h]
    exact follows_refl _ _
  · refine swaps_bind (swaps_of_others catalog (forgiving_compose hqs (fun q hq => ?_))) hserialize
    obtain ⟨i, hi⟩ := List.mem_iff_getElem?.1 hq
    exact mem_others (fun h => absurd h hkind) hi

end

/-- **A key that is backed out of leaves no trace.**  Where a builder collects a set from a script, at any menu of keys
a key that is not collected yet may be picked first and backed out of: the set and the answers left are the same.  And
where a gift's builder is declined, it may be entered instead and left with nothing but keys that are backed out of: the
session ends in the same way, with the same command if there is one, and leaves the same answers. -/
theorem detours_leave_no_trace (builder : Builder) :
    (∀ {answers : List Text} {set : ClauseSet} {left : Script},
      builder.schema.build.run (Script.partner .checked) (Script.start answers) = (.ok set, left) →
      ∀ {before : List Exchange} {choices : List Choice} {pick : Text} {after : List Exchange},
        builder.schema.build.transcript (Script.partner .checked) (Script.start answers) =
          before ++ .asked (.menu builder.schema.title choices) (.ok pick) :: after →
        ∃ rest, answers = replies before ++ pick :: rest ∧
          ∀ spec ∈ builder.schema.keys, spec.key ∉ (builder.schema.accepted before).map Clause.key →
            ∀ detour, spec.value.Detour detour →
              ∃ events, builder.schema.build.run (Script.partner .checked)
                  (Script.start (replies before ++ spec.key :: (detour ++ pick :: rest))) =
                (.ok set, ⟨left.answers, events⟩)) ∧
    ∀ {catalog : Catalog} {answers : List Text} {result : Except Error Text} {left : Script},
      composeWith (Script.partner .checked) catalog (Script.start answers) = (result, left) →
      ∀ {before : List Exchange} {no : Text} {after : List Exchange},
        scriptedTalk catalog answers = before ++ builder.answered no :: after → readYes false no.trim = .ok false →
        ∃ rest, answers = replies before ++ no :: rest ∧
          ∀ yes detours, readYes false yes.trim = .ok true → builder.schema.Detours detours →
            ∃ events, composeWith (Script.partner .checked) catalog
                (Script.start (replies before ++ yes :: (detours ++ Schema.okWord :: rest))) =
              (result, ⟨left.answers, events⟩) := by
  constructor
  · intro answers set left hrun before choices pick after hmenu
    obtain ⟨htalk, hfair, -⟩ := Script.run_ok hrun
    rw [hmenu] at htalk hfair
    obtain ⟨rest, more, hanswers, -, hswap⟩ := Script.run_swap hrun hmenu trivial
    refine ⟨rest, hanswers, fun spec hspec hfree detour hdetour => ?_⟩
    have hoffered : spec.key ∈ choices.map Choice.value := by
      rw [((Schema.built_of_talk htalk).menuFits builder.plain _ _ _ _ rfl).offers]
      exact Schema.mem_offer_iff.2 (.inl ⟨List.mem_map_of_mem hspec, hfree⟩)
    have hkey : Script.offered (.menu builder.schema.title choices) spec.key = true := by
      simpa [Script.offered] using hoffered
    have hpick : Script.offered (.menu builder.schema.title choices) pick = true :=
      hfair (.asked (.menu builder.schema.title choices) (.ok pick)) (by simp)
    obtain ⟨talk, hcollect, hgiven, rfl⟩ := hdetour.leads builder.schema.noun
    have hall : ∀ z ∈ .asked (.menu builder.schema.title choices) (.ok spec.key) ::
        builder.schema.cancelled spec talk ++ [.asked (.menu builder.schema.title choices) (.ok pick)], z.Given :=
      List.forall_mem_append.2 ⟨List.forall_mem_cons.2 ⟨⟨trivial, hkey, rfl⟩, Schema.given_cancelled hgiven⟩,
        List.forall_mem_singleton.2 ⟨trivial, hpick, rfl⟩⟩
    have hswapped := hswap _ hall
      (Schema.swaps_build builder.plain builder.nodup_keyNames hspec hcollect hoffered (.ok pick))
    rw [replies_append, replies_answered, Schema.replies_cancelled, List.append_assoc] at hswapped
    exact ⟨_, hswapped⟩
  · intro catalog answers result left hrun before no after hasked hno
    obtain ⟨rest, more, hanswers, -, hswap⟩ := composeWith_swap hrun hasked ⟨trivial, rfl⟩
    refine ⟨rest, hanswers, fun yes detours hyes hdetours => ?_⟩
    obtain ⟨talk, htalk, hgiven, hreplies⟩ := hdetours.leads_build builder.plain builder.nodup_keyNames
    have hswapped := hswap _ (List.forall_mem_cons.2 ⟨Exchange.given_line _ _, hgiven⟩)
      (swaps_command hno hyes htalk catalog)
    rw [replies_answered, hreplies, List.cons_append, List.append_assoc] at hswapped
    exact ⟨_, hswapped⟩

/-- Enchantments that are begun and dropped, with a blank name and a level out of range, before the way out and instead
of declining. -/
theorem detours_leave_no_trace_enchantments :
    ValueKind.Detour .enchantments ["", "sharpness", "0", "5", "y", " BACK "] ∧
    (∃ set events, set.toList = [⟨"damage", "5"⟩] ∧
      Schema.components.build.run (Script.partner .checked) (Script.start
        ["damage", "5", "enchantments", "", "sharpness", "0", "5", "y", " BACK ", "OK", "left"]) =
          (.ok set, ⟨["left"], events⟩)) ∧
    ∃ events, composeWith (Script.partner .checked) (.unavailable "none") (Script.start
        ["give", "@p", "", "diamond", "yes", "enchantments", "", "sharpness", "0", "5", "y", " BACK ", "OK", "2",
          "left"]) =
      (.ok "/give @p diamond 2", ⟨["left"], events⟩) := by
  have hdetour : ValueKind.Detour .enchantments ["", "sharpness", "0", "5", "y", " BACK "] :=
    .enchantments (.dropped [""] "sharpness" "sharpness" ["0"] "5" "5" [" BACK "]
      (List.forall_mem_singleton.2 ⟨_, rfl⟩) rfl rfl (List.forall_mem_singleton.2 ⟨_, rfl⟩) rfl
      (.back [] " BACK " nofun rfl))
  have hspec : ⟨"enchantments", "Item Enchantments", .enchantments⟩ ∈ Schema.components.keys :=
    List.mem_of_getElem? (i := 5) rfl
  refine ⟨hdetour, ?_, ?_⟩
  · obtain ⟨set, events, hset, hrun⟩ : ∃ set events, set.toList = [⟨"damage", "5"⟩] ∧
        Schema.components.build.run (Script.partner .checked) (Script.start ["damage", "5", "OK", "left"]) =
          (.ok set, ⟨["left"], events⟩) := ⟨⟨[⟨"damage", "5"⟩], by decide⟩, _, rfl, rfl⟩
    obtain ⟨before, choices, after, hmenu, hreplies, hfree⟩ : ∃ before choices after,
        Schema.components.build.transcript (Script.partner .checked) (Script.start ["damage", "5", "OK", "left"]) =
          before ++ .asked (.menu Schema.components.title choices) (.ok "OK") :: after ∧
        replies before = ["damage", "5"] ∧
        ("enchantments" : Text) ∉ (Schema.components.accepted before).map Clause.key :=
      ⟨[.asked _ (.ok "damage"), .heard (Schema.components.pickedRemark "damage"),
        .asked (escapable "damage (how much to reduce the durability, non-negative integer)") (.ok "5"),
        .heard (.echo "damage" "5")], _, _, rfl, rfl, by decide⟩
    obtain ⟨rest, hanswers, hdetours⟩ := (detours_leave_no_trace .components).1 hrun hmenu
    rw [hreplies] at hanswers hdetours
    obtain rfl : (["left"] : List Text) = rest := congrArg (List.drop 3) hanswers
    obtain ⟨events, hdone⟩ := hdetours _ hspec hfree _ hdetour
    exact ⟨set, events, hset, hdone⟩
  · obtain ⟨events, hrun⟩ : ∃ events, composeWith (Script.partner .checked) (.unavailable "none")
        (Script.start ["give", "@p", "", "diamond", "", "2", "left"]) =
          (.ok "/give @p diamond 2", ⟨["left"], events⟩) := ⟨_, rfl⟩
    obtain ⟨before, after, hasked, hreplies⟩ : ∃ before after,
        scriptedTalk (.unavailable "none") ["give", "@p", "", "diamond", "", "2", "left"] =
          before ++ Builder.components.answered "" :: after ∧
        replies before = ["give", "@p", "", "diamond"] :=
      ⟨[.asked _ (.ok "give"), .heard _, .asked _ (.ok "@p"), .heard _, .asked _ (.ok ""), .asked _ (.ok "diamond"),
        .heard _], _, rfl, rfl⟩
    have hno : readYes false (Text.trim "") = .ok false := rfl
    have hdetours : Schema.Detours Schema.components _ :=
      .cons hspec hdetour .nil
    obtain ⟨rest, hanswers, hentered⟩ := (detours_leave_no_trace .components).2 hrun hasked hno
    rw [hreplies] at hanswers hentered
    obtain rfl : (["2", "left"] : List Text) = rest := congrArg (List.drop 5) hanswers
    have hyes : readYes false (Text.trim "yes") = .ok true := rfl
    obtain ⟨events, hdone⟩ := hentered "yes" _ hyes hdetours
    exact ⟨events, hdone⟩

end Session
end CommandComposer
