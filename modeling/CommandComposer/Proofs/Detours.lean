import CommandComposer.Proofs.ClauseCollection
import CommandComposer.Proofs.Leads
import CommandComposer.Proofs.Refusals
/-!
# Detours — a key that is backed out of leaves no trace

A detour is what may be answered behind a key until its value is backed out of (`ValueKind.Detour`): it leads back to
the menu of keys, with the clauses as they were.  So at every menu a key that it offers may be picked and backed out of
first (`swaps_build`), and detours alone, and then the way out, collect nothing (`Detours.leads_build`).
-/
namespace CommandComposer

open Dialogue

/-- **Answers that ask for enchantments and go back in the end**: enchantments that are dropped then, each with its
name, its level and the wish for one more, and refused answers anywhere between them. -/
inductive Enchantment.Detour : List Text → Prop where
  | back (refused : List Text) (raw : Text) (hrefused : ∀ a ∈ refused, nameQuestion.Refuses a)
      (hback : goesBack raw = true) : Detour (refused ++ [raw])
  | dropped (refused : List Text) (raw name : Text) (refusedLevels : List Text) (rawLevel level : Text)
      (rest : List Text) (hrefused : ∀ a ∈ refused, nameQuestion.Refuses a) (hstays : goesBack raw = false)
      (hname : readName raw.trim = .ok name) (hrefusedLevels : ∀ a ∈ refusedLevels, levelQuestion.Refuses a)
      (hlevel : readLevel rawLevel.trim = .ok level) (hrest : Detour rest) :
      Detour (refused ++ raw :: (refusedLevels ++ rawLevel :: "y" :: rest))

/-- **The answers that back out of a value**, by the way it is asked for. -/
inductive ValueKind.Detour : ValueKind → List Text → Prop where
  | line {kind : ValueKind} {q : LineQuestion} (hkind : kind.lineQuestions = [q]) (refused : List Text) (raw : Text)
      (hrefused : ∀ a ∈ refused, q.Refuses a) (hback : goesBack raw = true) : Detour kind (refused ++ [raw])
  | choice (prompt : Text) (options : List (Text × Text)) : Detour (.choice prompt options) [backWord]
  | enchantments {answers : List Text} (h : Enchantment.Detour answers) : Detour .enchantments answers

/-- The answers at the menu of keys that pick keys and back out of each. -/
inductive Schema.Detours (schema : Schema) : List Text → Prop where
  | nil : Detours schema []
  | cons {spec : KeySpec} (hspec : spec ∈ schema.keys) {detour rest : List Text} (hdetour : spec.value.Detour detour)
      (hrest : Detours schema rest) : Detours schema (spec.key :: (detour ++ rest))

theorem Enchantment.Detour.leads {answers : List Text} (h : Detour answers) (collected : List Enchantment) :
    (rounds (fun _ => .line nameQuestion.text) round collected).Leads answers (.back : Answer Text) := by
  induction h generalizing collected with
  | back refused raw hrefused hback =>
    refine leads_attempts (fun _ _ => round_of_refused) hrefused (leads_finish rfl ?_)
    rw [round, if_pos hback]
    exact leads_done _
  | dropped refused raw name refusedLevels rawLevel level rest hrefused hstays hname hrefusedLevels hlevel hrest ih =>
    refine leads_attempts (fun _ _ => round_of_refused) hrefused ?_
    have hround : (round collected raw).Leads (refusedLevels ++ [rawLevel] ++ [("y" : Text)])
        (.again (collected ++ [⟨name, level⟩])) := by
      rw [round, if_neg (by simp [hstays]), hname]
      refine leads_bind (leads_askRequired hrefusedLevels hlevel) ?_
      refine leads_tell_bind (Exchange.given_echo _ _) ?_
      exact leads_bind (leads_ask (a := "y") rfl) (leads_done _)
    have hdropped : (rounds (fun _ => .line nameQuestion.text) round collected).Leads
        (raw :: (refusedLevels ++ [rawLevel] ++ [("y" : Text)] ++ rest)) (.back : Answer Text) :=
      leads_again rfl hround (ih _)
    rwa [List.append_assoc, List.append_assoc] at hdropped

theorem ValueKind.collect_of_lineQuestions {kind : ValueKind} {q : LineQuestion} (h : kind.lineQuestions = [q]) :
    ∃ (prompt : Text) (reader : Reader Text), q = .escapable prompt reader ∧
      ∀ noun, kind.collect noun = askEscapable prompt reader := by
  cases kind with
  | choice => cases h
  | enchantments => cases h
  | _ =>
    cases h
    exact ⟨_, _, rfl, fun _ => rfl⟩

/-- **A detour leads back to the menu of keys.** -/
theorem ValueKind.Detour.leads {kind : ValueKind} {answers : List Text} (h : kind.Detour answers) (noun : Text) :
    (kind.collect noun).Leads answers .back := by
  cases h with
  | line hkind refused raw hrefused hback =>
    obtain ⟨prompt, reader, rfl, hcollect⟩ := collect_of_lineQuestions hkind
    rw [hcollect]
    exact leads_askEscapable_back hrefused hback
  | choice prompt options =>
    refine leads_bind (leads_ask (a := backWord) ?_) (leads_done _)
    simp [Script.offered, Choice.described]
  | enchantments h => exact h.leads []

namespace Schema

variable {schema : Schema} {spec : KeySpec} {talk : List Exchange}

theorem picked?_of_mem (hnodup : schema.keyNames.Nodup) (hspec : spec ∈ schema.keys) {collected : ClauseSet}
    (hfree : collected.contains spec.key = false) : schema.picked? collected spec.key = some spec := by
  cases hfind : schema.find? spec.key with
  | none => simpa using List.find?_eq_none.1 hfind spec hspec
  | some found =>
    have hkey : found.key = spec.key := by simpa using List.find?_some hfind
    obtain rfl : found = spec := List.inj_on_of_nodup_map hnodup (List.mem_of_find?_eq_some hfind) hspec hkey
    rw [picked?, hfind, Option.filter_some, hfree]
    rfl

theorem offered_question_iff {collected : ClauseSet} {pick : Text} :
    Script.offered (schema.question collected) pick = true ↔
      (pick ∈ schema.keyNames ∧ pick ∉ collected.toList.map Clause.key) ∨ pick = okWord := by
  rw [question_eq, ← mem_offer_iff]
  simp [Script.offered]

/-- What is said when a key is picked and backed out of, with the talk about its value. -/
def cancelled (schema : Schema) (spec : KeySpec) (talk : List Exchange) : List Exchange :=
  .heard (schema.pickedRemark spec.key) :: (talk ++ [.heard schema.cancelRemark])

theorem given_cancelled (h : ∀ x ∈ talk, x.Given) : ∀ x ∈ schema.cancelled spec talk, x.Given := by
  refine List.forall_mem_cons.2 ⟨Exchange.given_echo _ _, List.forall_mem_append.2 ⟨h, ?_⟩⟩
  exact List.forall_mem_singleton.2 (Exchange.given_message _ _)

theorem replies_cancelled : replies (schema.cancelled spec talk) = replies talk := by
  rw [cancelled, replies_heard, replies_append]
  exact List.append_nil _

/-- **A round whose key is backed out of** ends with the clauses it began with. -/
theorem talk_round_cancelled (hplain : schema.Plain) (hnodup : schema.keyNames.Nodup) (hspec : spec ∈ schema.keys)
    {collected : ClauseSet} (hfree : collected.contains spec.key = false)
    (htalk : (spec.value.collect schema.noun).Talk talk (.ok .back)) :
    (schema.round collected spec.key).Talk (schema.cancelled spec talk) (.ok (.again collected)) := by
  have hkey : spec.key ≠ okWord := fun h => hplain.way_out (h ▸ List.mem_map_of_mem hspec)
  unfold round
  rw [if_neg hkey, picked?_of_mem hnodup hspec hfree]
  refine (talk_tell_bind _ _ _ _).2 ⟨_, ?_, rfl⟩
  refine (talk_bind_ok _ _ _ _).2 ⟨.back, talk, _, htalk, ?_, rfl⟩
  exact (talk_tell_done _ _ _ _).2 ⟨rfl, rfl⟩

theorem says_round (hplain : schema.Plain) (collected : ClauseSet) (pick : Text) :
    (schema.round collected pick).Says (¬ schema.IsMenu ·) := by
  unfold round
  split
  · exact says_done _
  · split
    · exact says_fail _
    · rename_i hsome
      refine says_bind (says_tell (not_isMenu_heard _)) (fun _ => ?_)
      have hvalue := says_collect hplain (picked?_eq_some hsome).1
      refine says_bind (fun l r h x hx => (hvalue l r h x hx).1) (fun answer => ?_)
      cases answer <;> exact says_bind (says_tell (not_isMenu_heard _)) (fun _ => says_done _)

/-- **At every menu of keys, one that it offers may be picked and backed out of first.** -/
theorem swaps_build (hplain : schema.Plain) (hnodup : schema.keyNames.Nodup) (hspec : spec ∈ schema.keys)
    (htalk : (spec.value.collect schema.noun).Talk talk (.ok .back)) {choices : List Choice}
    (hoffered : spec.key ∈ choices.map Choice.value) (reply : Except Error Text) :
    schema.build.Swaps (.asked (.menu schema.title choices) reply)
      (.asked (.menu schema.title choices) (.ok spec.key) :: schema.cancelled spec talk ++
        [.asked (.menu schema.title choices) reply]) := by
  have hmenu : schema.IsMenu (.asked (.menu schema.title choices) reply) := ⟨choices, reply, rfl⟩
  have hnever : ∀ {α : Type} {d : Dialogue α}, d.Says (¬ schema.IsMenu ·) → ∀ y,
      d.Swaps (.asked (.menu schema.title choices) reply) y := fun h y =>
    swaps_of_unsaid (fun l r htalk x hx heq => h l r htalk x hx (heq ▸ hmenu))
  refine swaps_bind (swaps_rounds (fun collected after r h => ?_)
    (fun collected pick => hnever (says_round hplain collected pick) _) _) (fun set => ?_)
  · obtain ⟨_, _, hopens⟩ := rounds_opens h
    have hquestion : .menu schema.title choices = schema.question collected :=
      (Exchange.asked.inj (List.cons.inj hopens).1).1
    have hchoices : choices = schema.offer (collected.toList.map Clause.key) := by
      rw [question_eq] at hquestion
      exact (Question.menu.inj hquestion).2
    have hfree : collected.contains spec.key = false := by
      rw [hchoices, mem_offer_iff] at hoffered
      rcases hoffered with ⟨-, hfree⟩ | hok
      · exact ClauseSet.contains_eq_false_iff.2 hfree
      · exact absurd (hok ▸ List.mem_map_of_mem hspec) hplain.way_out
    have hround := talk_round_cancelled hplain hnodup hspec hfree htalk
    rw [hquestion] at h ⊢
    rw [List.append_assoc]
    exact .again collected spec.key _ collected _ r hround h
  · exact hnever (says_bind (says_tell (not_isMenu_heard _)) (fun _ => says_done _)) _

theorem leads_round_cancelled (hplain : schema.Plain) (hnodup : schema.keyNames.Nodup) (hspec : spec ∈ schema.keys)
    {collected : ClauseSet} (hfree : collected.contains spec.key = false) {detour : List Text}
    (h : spec.value.Detour detour) : (schema.round collected spec.key).Leads detour (.again collected) := by
  obtain ⟨talk, htalk, hgiven, rfl⟩ := h.leads schema.noun
  exact ⟨_, talk_round_cancelled hplain hnodup hspec hfree htalk, given_cancelled hgiven, replies_cancelled⟩

/-- **Nothing but detours, and the way out**, collects nothing. -/
theorem Detours.leads_build (hplain : schema.Plain) (hnodup : schema.keyNames.Nodup) {answers : List Text}
    (h : schema.Detours answers) : schema.build.Leads (answers ++ [okWord]) .empty := by
  have hrounds : (rounds schema.question schema.round ClauseSet.empty).Leads (answers ++ [okWord]) .empty := by
    induction h with
    | nil =>
      refine leads_finish (offered_question_iff.2 (.inr rfl)) ?_
      rw [round, if_pos rfl]
      exact leads_done _
    | @cons spec hspec detour rest hdetour hrest ih =>
      have hfree : ClauseSet.empty.contains spec.key = false := rfl
      rw [List.cons_append, List.append_assoc]
      exact leads_again (offered_question_iff.2 (.inl ⟨List.mem_map_of_mem hspec, List.not_mem_nil⟩))
        (leads_round_cancelled hplain hnodup hspec hfree hdetour) ih
  rw [← List.append_nil (answers ++ [okWord])]
  exact leads_bind hrounds (leads_tell_bind (Exchange.given_echo _ _) (leads_done _))

end Schema
end CommandComposer
