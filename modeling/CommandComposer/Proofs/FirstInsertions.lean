import CommandComposer.Clause
import Mathlib.Data.Set.Card
/-!
# FirstInsertions — a set of clauses as the first insertions of its history

What a history of insertions adds to a set is its first clause of each key that the set does not have, in the order of
the history (`ClauseSet.toList_foldl_insert`).  So a set that began empty holds the first insertions and no more
(`ClauseSet.toList_ofHistory`), and all that it shows is read off these: a look-up by key finds in them what it finds in
the whole history (`Clause.find?_firsts`).
-/
namespace CommandComposer
namespace Clause

/-- **The first insertions of a history**, in order: its clauses without those that have the key of one in front. -/
def firsts : List Clause → List Clause
  | [] => []
  | c :: later => c :: (firsts later).filter fun d => d.key != c.key

theorem find?_firsts (key : Text) : ∀ history : List Clause,
    (firsts history).find? (fun c => c.key == key) = history.find? (fun c => c.key == key)
  | [] => rfl
  | c :: later => by
    rw [firsts, List.find?_cons, List.find?_cons]
    by_cases hkey : c.key = key
    · simp [hkey]
    · -- what the first clause takes out has its own key, and that is not looked for
      have hother : ∀ d : Clause, decide ((d.key != c.key) = true ∧ (d.key == key) = true) = (d.key == key) := by
        intro d
        by_cases hd : d.key = key
        · simp [hd, Ne.symm hkey]
        · simp [hd]
      have hc : (c.key == key) = false := by simpa using hkey
      rw [hc, List.find?_filter]
      simp only [hother]
      exact find?_firsts key later

theorem mem_keys_iff {key : Text} {clauses : List Clause} :
    key ∈ clauses.map Clause.key ↔ (clauses.find? fun c => c.key == key).isSome = true := by
  simp

theorem mem_keys_firsts {key : Text} {history : List Clause} :
    key ∈ (firsts history).map Clause.key ↔ key ∈ history.map Clause.key := by
  rw [mem_keys_iff, find?_firsts, mem_keys_iff]

theorem firsts_eq_nil_iff {history : List Clause} : firsts history = [] ↔ history = [] := by
  cases history with
  | nil => exact iff_of_true rfl rfl
  | cons c later => exact iff_of_false (List.cons_ne_nil _ _) (List.cons_ne_nil _ _)

end Clause

namespace ClauseSet

open Clause (firsts)

variable {s : ClauseSet} {c : Clause} {history : List Clause}

/-- The set after a history of insertions, the first of them into the empty set. -/
def ofHistory (history : List Clause) : ClauseSet := history.foldl insert empty

theorem isSome_insert?_iff : (s.insert? c).isSome = true ↔ s.contains c.key = false := by
  cases h : s.contains c.key with
  | true => simp [insert?_of_contains h]
  | false =>
    obtain ⟨s', hs', -⟩ := insert?_of_not_contains h
    simp [hs']

theorem contains_eq_isSome_get? (s : ClauseSet) (key : Text) : s.contains key = (s.get? key).isSome := by
  rw [get?, Option.isSome_map, Bool.eq_iff_iff, contains_iff, Clause.mem_keys_iff]

theorem size_eq_ncard (s : ClauseSet) : s.size = {key | key ∈ s.toList.map Clause.key}.ncard := by
  classical
  rw [← List.coe_toFinset, Set.ncard_coe_finset, List.toFinset_card_of_nodup s.distinct, List.length_map, size]

/-- **No clauses are seen exactly when there are none**, also if keys and values are empty. -/
theorem attachTo_eq_self_iff {base : Text} : s.attachTo base = base ↔ s.isEmpty = true := by
  cases h : s.isEmpty with
  | true => exact iff_of_true (attachTo_of_isEmpty h base) rfl
  | false =>
    refine iff_of_false (fun hself => ?_) nofun
    rw [attachTo_of_not_isEmpty h] at hself
    have hlength := congrArg List.length hself
    simp at hlength

theorem contains_insert (s : ClauseSet) (c : Clause) (key : Text) :
    (s.insert c).contains key = (s.contains key || c.key == key) := by
  cases h : s.contains c.key with
  | true =>
    rw [insert_of_contains h]
    by_cases hkey : c.key = key
    · simp [← hkey, h]
    · simp [hkey]
  | false => simp [contains, toList_insert h]

/-- **What a history adds to a set**: its first insertions, but for the keys that the set has. -/
theorem toList_foldl_insert : ∀ (history : List Clause) (s : ClauseSet),
    (history.foldl insert s).toList = s.toList ++ (firsts history).filter fun c => !s.contains c.key
  | [], _ => (List.append_nil _).symm
  | c :: later, s => by
    rw [List.foldl_cons, toList_foldl_insert later (s.insert c), firsts]
    cases h : s.contains c.key with
    | true =>
      -- the clauses that `c` takes out are taken out by the set as well
      have hfree : ∀ d : Clause, (!s.contains d.key && d.key != c.key) = !s.contains d.key := by
        intro d
        by_cases hd : d.key = c.key
        · simp [hd, h]
        · simp [hd]
      rw [insert_of_contains h, List.filter_cons_of_neg (by simp [h]), List.filter_filter]
      simp only [hfree]
    | false =>
      have hfree : ∀ d : Clause, (!(s.insert c).contains d.key) = (!s.contains d.key && d.key != c.key) := by
        intro d
        rw [contains_insert, Bool.not_or, bne_comm]
        rfl
      rw [toList_insert h, List.filter_cons_of_pos (by simp [h]), List.filter_filter, List.append_assoc]
      simp only [hfree]
      rfl

theorem toList_ofHistory (history : List Clause) : (ofHistory history).toList = firsts history := by
  rw [ofHistory, toList_foldl_insert]
  exact List.filter_eq_self.2 fun _ _ => rfl

theorem contains_ofHistory_iff {key : Text} :
    (ofHistory history).contains key = true ↔ key ∈ history.map Clause.key := by
  rw [contains_iff, toList_ofHistory, Clause.mem_keys_firsts]

theorem isEmpty_ofHistory_iff : (ofHistory history).isEmpty = true ↔ history = [] := by
  rw [isEmpty_iff, toList_ofHistory, Clause.firsts_eq_nil_iff]

/-- **A set of clauses shows a history of insertions**: it takes one more clause just if the history has none with its
key, and is left as it is by any other; a key has its first value; the size is the number of keys inserted; and the text
is of the first insertions, in order, in brackets behind what they refine unless nothing was inserted. -/
structure Shows (s : ClauseSet) (history : List Clause) : Prop where
  takes_iff : ∀ c, (s.insert? c).isSome = true ↔ c.key ∉ history.map Clause.key
  refused : ∀ c, c.key ∈ history.map Clause.key → s.insert c = s
  found : ∀ key, s.get? key = (history.find? fun c => c.key == key).map Clause.value
  contained : ∀ key, s.contains key = (s.get? key).isSome
  size_eq : s.size = {key | key ∈ history.map Clause.key}.ncard
  text_eq : s.text = Text.join "," ((firsts history).map fun c => c.key ++ "=" ++ c.value)
  bare_iff : ∀ base, s.attachTo base = base ↔ history = []
  attached : history ≠ [] → ∀ base, s.attachTo base = base ++ "[" ++ s.text ++ "]"

/-- **The first insertion of a key stays**, whatever is inserted behind it, and is what the set shows of the key. -/
theorem first_insertions_stay (history : List Clause) : (ofHistory history).Shows history where
  takes_iff c := by
    rw [isSome_insert?_iff, ← contains_ofHistory_iff, Bool.not_eq_true]
  refused c h := insert_of_contains (contains_ofHistory_iff.2 h)
  found key := by
    rw [get?, toList_ofHistory, Clause.find?_firsts]
  contained key := contains_eq_isSome_get? _ key
  size_eq := by
    rw [size_eq_ncard, toList_ofHistory]
    simp only [Clause.mem_keys_firsts]
  text_eq := by
    rw [text, toList_ofHistory]
    rfl
  bare_iff base := by
    rw [attachTo_eq_self_iff, isEmpty_ofHistory_iff]
  attached hne base := by
    have hfull : (ofHistory history).isEmpty = false := by
      rw [← Bool.not_eq_true, isEmpty_ofHistory_iff]
      exact hne
    exact attachTo_of_not_isEmpty hfull base

/-- A key without a character that has a value without one, inserted again with another value. -/
theorem first_insertions_stay_unnamed :
    ∃ history : List Clause, history = [⟨"", ""⟩, ⟨"tag", ""⟩] ∧
      ("" : Text) ∈ history.map Clause.key ∧ (ofHistory history).insert ⟨"", "x"⟩ = ofHistory history ∧
      (ofHistory history).get? "" = some "" ∧ history ≠ [] ∧ (ofHistory history).attachTo "@p" = "@p[=,tag=]" := by
  obtain ⟨history, hhistory⟩ : ∃ history : List Clause, history = [⟨"", ""⟩, ⟨"tag", ""⟩] := ⟨_, rfl⟩
  have hnamed : ("" : Text) ∈ history.map Clause.key := by simp [hhistory]
  have hne : history ≠ [] := by simp [hhistory]
  have hshows := first_insertions_stay history
  have htext : (ofHistory history).text = "=,tag=" := by
    rw [hshows.text_eq, hhistory]
    rfl
  refine ⟨history, hhistory, hnamed, hshows.refused ⟨"", "x"⟩ hnamed, ?_, hne, ?_⟩
  · rw [hshows.found, hhistory]
    rfl
  · rw [hshows.attached hne, htext]
    rfl

end ClauseSet
end CommandComposer
