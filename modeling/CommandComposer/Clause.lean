import CommandComposer.Text
/-!
# Clause — refinements of a target or an item

A clause is a key with a value.  A set of clauses keeps them in the order they came and holds each key once: the first
value of a key stays, and a later one changes nothing.
-/
namespace CommandComposer

/-- A key with its value. -/
structure Clause where
  key : Text
  value : Text
deriving DecidableEq, Repr

def Clause.text (c : Clause) : Text := c.key ++ "=" ++ c.value

/-- Clauses in the order they came, no two with one key. -/
structure ClauseSet where
  toList : List Clause
  distinct : (toList.map Clause.key).Nodup

namespace ClauseSet

def empty : ClauseSet := ⟨[], List.nodup_nil⟩

instance : Inhabited ClauseSet := ⟨empty⟩

def get? (s : ClauseSet) (key : Text) : Option Text := (s.toList.find? (fun c => c.key == key)).map Clause.value

def contains (s : ClauseSet) (key : Text) : Bool := s.toList.any (fun c => c.key == key)

theorem contains_iff (s : ClauseSet) (key : Text) : s.contains key = true ↔ key ∈ s.toList.map Clause.key := by
  simp [contains]

variable {s t : ClauseSet} {c : Clause}

theorem contains_eq_false_iff {key : Text} : s.contains key = false ↔ key ∉ s.toList.map Clause.key := by
  rw [← contains_iff, Bool.not_eq_true]

theorem eq_of_toList (h : s.toList = t.toList) : s = t := by
  cases s
  cases t
  cases h
  rfl

/-- **The set with one more clause at its end**, if it does not have the key yet. -/
def insert? (s : ClauseSet) (c : Clause) : Option ClauseSet :=
  if h : s.contains c.key then none
  else some ⟨s.toList ++ [c], by
    rw [contains_iff] at h
    rw [List.map_append, List.map_singleton, List.nodup_append]
    refine ⟨s.distinct, List.nodup_cons.2 ⟨List.not_mem_nil, List.nodup_nil⟩, ?_⟩
    intro a ha b hb hab
    rw [List.mem_singleton] at hb
    exact h (hb ▸ hab ▸ ha)⟩

/-- The set with a clause; one whose key is there already leaves the set as it is. -/
def insert (s : ClauseSet) (c : Clause) : ClauseSet := (s.insert? c).getD s

theorem insert?_of_contains (h : s.contains c.key = true) : s.insert? c = none := dif_pos h

theorem insert?_of_not_contains (h : s.contains c.key = false) :
    ∃ s', s.insert? c = some s' ∧ s'.toList = s.toList ++ [c] := by
  unfold insert?
  rw [dif_neg (by simp [h])]
  exact ⟨_, rfl, rfl⟩

theorem insert_of_contains (h : s.contains c.key = true) : s.insert c = s := by
  rw [insert, insert?_of_contains h, Option.getD_none]

theorem toList_insert (h : s.contains c.key = false) : (s.insert c).toList = s.toList ++ [c] := by
  obtain ⟨s', hs', hl⟩ := insert?_of_not_contains h
  rw [insert, hs', Option.getD_some, hl]

def size (s : ClauseSet) : Nat := s.toList.length

def isEmpty (s : ClauseSet) : Bool := s.toList.isEmpty

def text (s : ClauseSet) : Text := Text.join "," (s.toList.map Clause.text)

/-- **The clauses behind what they refine**, in brackets; no clauses leave no brackets. -/
def attachTo (s : ClauseSet) (base : Text) : Text :=
  if s.isEmpty then base else base ++ "[" ++ s.text ++ "]"

theorem isEmpty_iff : s.isEmpty = true ↔ s.toList = [] := List.isEmpty_iff

theorem attachTo_of_isEmpty (h : s.isEmpty = true) (base : Text) : s.attachTo base = base := if_pos h

theorem attachTo_of_not_isEmpty (h : s.isEmpty = false) (base : Text) :
    s.attachTo base = base ++ "[" ++ s.text ++ "]" := if_neg (by simp [h])

end ClauseSet
end CommandComposer
