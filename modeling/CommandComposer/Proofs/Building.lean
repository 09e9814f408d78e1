import CommandComposer.Builder
import CommandComposer.Proofs.Outcome
/-!
# Building — how clauses are collected, as a list

`Schema.Built` says on plain lists what building does: each round offers the keys not collected yet, and a value that
is accepted joins the clauses at their end.  There is no set in it and no look-up, so nothing in it can refuse or
overwrite a clause.  Every talk of building is one of its (`built_of_talk`).
-/
namespace CommandComposer

namespace Schema

open Dialogue

def keyNames (schema : Schema) : List Text := schema.keys.map KeySpec.key

def title (schema : Schema) : Text := "Additional " ++ schema.noun ++ "s:"

/-- **What a round offers** when some keys are taken: the others, in schema order, and then the way out. -/
def offer (schema : Schema) (taken : List Text) : List Choice :=
  (schema.keys.filter (fun spec => !taken.contains spec.key)).map (fun spec => .described spec.key spec.description) ++
    [.plain okWord]

theorem menu_eq_offer (schema : Schema) (collected : ClauseSet) :
    schema.menu collected = schema.offer (collected.toList.map Clause.key) := by
  unfold menu remaining offer
  congr 2
  apply List.filter_congr
  intro spec _
  rw [Bool.not_inj_iff, Bool.eq_iff_iff, ClauseSet.contains_iff, List.contains_iff_mem]

theorem question_eq (schema : Schema) (collected : ClauseSet) :
    schema.question collected = .menu schema.title (schema.offer (collected.toList.map Clause.key)) := by
  rw [question, menu_eq_offer]
  rfl

theorem mem_offer_iff {schema : Schema} {taken : List Text} {pick : Text} :
    pick ∈ (schema.offer taken).map Choice.value ↔ (pick ∈ schema.keyNames ∧ pick ∉ taken) ∨ pick = okWord := by
  simp only [offer, keyNames, List.map_append, List.map_map, List.mem_append, List.mem_map, List.mem_filter,
    Bool.not_eq_true', ← Bool.not_eq_true, List.contains_iff_mem, List.map_cons, List.map_nil, List.mem_singleton]
  constructor
  · rintro (⟨spec, ⟨hspec, htaken⟩, rfl⟩ | rfl)
    · exact .inl ⟨⟨spec, hspec, rfl⟩, htaken⟩
    · exact .inr rfl
  · rintro (⟨⟨spec, hspec, rfl⟩, htaken⟩ | rfl)
    · exact .inl ⟨spec, ⟨hspec, htaken⟩, rfl⟩
    · exact .inr rfl

theorem picked?_eq_some {schema : Schema} {collected : ClauseSet} {pick : Text} {spec : KeySpec}
    (h : schema.picked? collected pick = some spec) :
    spec ∈ schema.keys ∧ spec.key = pick ∧ collected.contains spec.key = false := by
  obtain ⟨hfind, hfree⟩ := Option.filter_eq_some_iff.1 h
  exact ⟨List.mem_of_find?_eq_some hfind, by simpa using List.find?_some hfind, by simpa using hfree⟩

theorem picked?_eq_none {schema : Schema} {collected : ClauseSet} {pick : Text}
    (h : schema.picked? collected pick = none) :
    ¬ (pick ∈ schema.keyNames ∧ pick ∉ collected.toList.map Clause.key) := by
  rintro ⟨hmem, hfree⟩
  obtain ⟨spec, hspec, rfl⟩ := List.mem_map.1 hmem
  cases hfind : schema.find? spec.key with
  | none =>
    have := List.find?_eq_none.1 hfind spec hspec
    simp at this
  | some found =>
    have hkey : found.key = spec.key := by simpa using List.find?_some hfind
    rw [picked?, hfind, Option.filter_eq_none_iff] at h
    have := h found rfl
    rw [hkey, ClauseSet.contains_eq_false_iff.2 hfree] at this
    simp at this

def pickedRemark (schema : Schema) (key : Text) : Remark := .echo ("Additional " ++ schema.noun) key

def cancelRemark (schema : Schema) : Remark :=
  .message .warning ("Cancelled. Back to " ++ schema.noun ++ " selection.")

def closingRemark (schema : Schema) (clauses : List Clause) : Remark :=
  .echo ("All " ++ schema.noun ++ "s")
    (if clauses.isEmpty then "(none)" else Text.join "," (clauses.map Clause.text))

/-- **How clauses are built** from some that are there: the talk, and the clauses at the end. -/
inductive Built (schema : Schema) : List Clause → List Exchange → Except Error (List Clause) → Prop where
  | unanswered (clauses : List Clause) (e : Error) :
      Built schema clauses [.asked (.menu schema.title (schema.offer (clauses.map Clause.key))) (.error e)] (.error e)
  | finished (clauses : List Clause) :
      Built schema clauses
        [.asked (.menu schema.title (schema.offer (clauses.map Clause.key))) (.ok okWord),
          .heard (schema.closingRemark clauses)]
        (.ok clauses)
  | foreign (clauses : List Clause) (pick : Text)
      (hpick : pick ∉ (schema.offer (clauses.map Clause.key)).map Choice.value) :
      Built schema clauses [.asked (.menu schema.title (schema.offer (clauses.map Clause.key))) (.ok pick)]
        (.error (.unknownChoice pick))
  | failed (clauses : List Clause) (spec : KeySpec) (talk : List Exchange) (e : Error) (hspec : spec ∈ schema.keys)
      (hfree : spec.key ∉ clauses.map Clause.key) (htalk : (spec.value.collect schema.noun).Talk talk (.error e)) :
      Built schema clauses
        (.asked (.menu schema.title (schema.offer (clauses.map Clause.key))) (.ok spec.key) ::
          .heard (schema.pickedRemark spec.key) :: talk)
        (.error e)
  | cancelled (clauses : List Clause) (spec : KeySpec) (talk l : List Exchange) (r : Except Error (List Clause))
      (hspec : spec ∈ schema.keys) (hfree : spec.key ∉ clauses.map Clause.key)
      (htalk : (spec.value.collect schema.noun).Talk talk (.ok .back)) (h : Built schema clauses l r) :
      Built schema clauses
        (.asked (.menu schema.title (schema.offer (clauses.map Clause.key))) (.ok spec.key) ::
          .heard (schema.pickedRemark spec.key) :: (talk ++ .heard schema.cancelRemark :: l))
        r
  | accepted (clauses : List Clause) (spec : KeySpec) (talk : List Exchange) (value : Text) (l : List Exchange)
      (r : Except Error (List Clause)) (hspec : spec ∈ schema.keys) (hfree : spec.key ∉ clauses.map Clause.key)
      (htalk : (spec.value.collect schema.noun).Talk talk (.ok (.value value)))
      (h : Built schema (clauses ++ [⟨spec.key, value⟩]) l r) :
      Built schema clauses
        (.asked (.menu schema.title (schema.offer (clauses.map Clause.key))) (.ok spec.key) ::
          .heard (schema.pickedRemark spec.key) :: (talk ++ .heard (.echo spec.key value) :: l))
        r

theorem Built.opens {schema : Schema} {clauses : List Clause} {l : List Exchange} {r : Except Error (List Clause)}
    (h : Built schema clauses l r) :
    ∃ reply after, l = .asked (.menu schema.title (schema.offer (clauses.map Clause.key))) reply :: after := by
  cases h <;> exact ⟨_, _, rfl⟩

/-- **The talks of a round**: its pick ends the rounds, was not offered, or is a key whose value is asked for. -/
theorem talk_round {schema : Schema} {collected : ClauseSet} {pick : Text} {l : List Exchange}
    {r : Except Error (Turn ClauseSet ClauseSet)} (h : (schema.round collected pick).Talk l r) :
    (pick = okWord ∧ l = [] ∧ r = .ok (.finish collected)) ∨
    (pick ∉ (schema.offer (collected.toList.map Clause.key)).map Choice.value ∧ l = [] ∧
      r = .error (.unknownChoice pick)) ∨
    ∃ spec talk outcome, spec ∈ schema.keys ∧ spec.key = pick ∧ collected.contains spec.key = false ∧
      (spec.value.collect schema.noun).Talk talk outcome ∧
      match outcome with
      | .error e => l = .heard (schema.pickedRemark pick) :: talk ∧ r = .error e
      | .ok .back => l = .heard (schema.pickedRemark pick) :: (talk ++ [.heard schema.cancelRemark]) ∧
          r = .ok (.again collected)
      | .ok (.value value) => l = .heard (schema.pickedRemark pick) :: (talk ++ [.heard (.echo pick value)]) ∧
          r = .ok (.again (collected.insert ⟨pick, value⟩)) := by
  unfold round at h
  split at h
  · exact .inl ⟨‹_›, h.1, h.2⟩
  · rename_i hok
    split at h
    · rename_i hnone
      refine .inr (.inl ⟨?_, h.1, h.2⟩)
      rw [mem_offer_iff]
      exact fun hmem => hmem.elim (picked?_eq_none hnone) hok
    · rename_i spec hsome
      obtain ⟨hspec, rfl, hfree⟩ := picked?_eq_some hsome
      obtain ⟨l', h', rfl⟩ := (talk_tell_bind _ _ _ _).1 h
      refine .inr (.inr ?_)
      rcases (talk_bind _ _ _ _).1 h' with ⟨e, htalk, rfl⟩ | ⟨answer, talk, l₂, htalk, h₂, rfl⟩
      · exact ⟨spec, l', .error e, hspec, rfl, hfree, htalk, rfl, rfl⟩
      · refine ⟨spec, talk, .ok answer, hspec, rfl, hfree, htalk, ?_⟩
        cases answer with
        | value value =>
          obtain ⟨rfl, rfl⟩ := (talk_tell_done _ _ _ _).1 h₂
          exact ⟨rfl, rfl⟩
        | back =>
          obtain ⟨rfl, rfl⟩ := (talk_tell_done _ _ _ _).1 h₂
          exact ⟨rfl, rfl⟩

def closing (schema : Schema) : Except Error ClauseSet → List Exchange
  | .ok set => [.heard (schema.closingRemark set.toList)]
  | .error _ => []

/-- **The rounds build**, by induction on their talk: what a round keeps is that the set lists the clauses. -/
theorem built_of_roundsTalk {schema : Schema} {collected : ClauseSet} {l : List Exchange} {r : Except Error ClauseSet}
    (h : RoundsTalk schema.question (fun b a l r => (schema.round b a).Talk l r) collected l r) :
    Built schema collected.toList (l ++ schema.closing r) (r.map ClauseSet.toList) := by
  -- round by round: what a round may have come to is said by `talk_round`, and only one of its cases fits its end
  induction h with
  | unanswered collected e =>
    rw [question_eq]
    exact .unanswered _ e
  | failed collected pick l e h =>
    rw [question_eq]
    rcases talk_round h with ⟨-, -, hr⟩ | ⟨hpick, rfl, hr⟩ | ⟨spec, talk, outcome, hspec, rfl, hfree, htalk, hout⟩
    · cases hr
    · cases hr
      exact .foreign _ pick hpick
    · rcases outcome with e' | ⟨value⟩ | _
      · obtain ⟨rfl, hr⟩ := hout
        cases hr
        rw [closing, List.append_nil]
        exact .failed _ spec talk e hspec (ClauseSet.contains_eq_false_iff.1 hfree) htalk
      · cases hout.2
      · cases hout.2
  | finished collected pick l set h =>
    rw [question_eq]
    rcases talk_round h with ⟨rfl, rfl, hr⟩ | ⟨-, -, hr⟩ | ⟨spec, talk, outcome, -, -, -, -, hout⟩
    · cases hr
      exact .finished _
    · cases hr
    · rcases outcome with e' | ⟨value⟩ | _
      all_goals cases hout.2
  | again collected pick l next l' r h _ ih =>
    rw [question_eq]
    rcases talk_round h with ⟨-, -, hr⟩ | ⟨-, -, hr⟩ | ⟨spec, talk, outcome, hspec, rfl, hfree, htalk, hout⟩
    · cases hr
    · cases hr
    · rcases outcome with e' | ⟨value⟩ | _
      · cases hout.2
      · obtain ⟨rfl, hr⟩ := hout
        cases hr
        rw [ClauseSet.toList_insert hfree] at ih
        simpa using Built.accepted _ spec talk value _ _ hspec (ClauseSet.contains_eq_false_iff.1 hfree) htalk ih
      · obtain ⟨rfl, hr⟩ := hout
        cases hr
        simpa using Built.cancelled _ spec talk _ _ hspec (ClauseSet.contains_eq_false_iff.1 hfree) htalk ih

/-- **Every talk of building is built**, from no clauses. -/
theorem built_of_talk {schema : Schema} {l : List Exchange} {r : Except Error ClauseSet}
    (h : schema.build.Talk l r) : Built schema [] l (r.map ClauseSet.toList) := by
  rcases (talk_bind _ _ _ _).1 h with ⟨e, h₁, rfl⟩ | ⟨set, l₁, l₂, h₁, h₂, rfl⟩
  · have hbuilt := built_of_roundsTalk h₁
    rwa [closing, List.append_nil] at hbuilt
  · obtain ⟨rfl, rfl⟩ := (talk_tell_done _ _ _ _).1 h₂
    exact built_of_roundsTalk h₁

end Schema
end CommandComposer
