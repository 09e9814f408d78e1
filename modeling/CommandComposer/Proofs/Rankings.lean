import Mathlib.Data.List.FinRange
import Mathlib.Data.List.Perm.Subperm
import CommandComposer.Proofs.EditDistance
/-!
# Rankings — the first entries of a stable order

Both rankings sort what there is and cut the result.  Sorting is stable: of two entries that rank alike the one that
stood first stays first (`pairwise_mergeSort_of_pairwise`), so a cut takes the foremost of an order without ties
(`Foremost`, `foremost_take`).  A pool may hold an entry more than once, so the nearest entries are the foremost of its
places (`nearest_foremost`); in a pool without repetitions the best matches come in the order of the entries themselves
(`pairwise_bestMatches`).
-/
namespace CommandComposer
namespace Ranking

variable {α : Type}

/-- **The foremost of a list in an order**: as many as the limit allows, in order, each before all that are left out. -/
structure Foremost (before : α → α → Prop) (l : List α) (limit : Nat) (found : List α) : Prop where
  length : found.length = min limit l.length
  subperm : found.Subperm l
  ordered : found.Pairwise before
  left_out : ∀ a ∈ found, ∀ b ∈ l, b ∉ found → before a b

theorem foremost_take {before : α → α → Prop} {sorted l : List α} (hsorted : sorted.Pairwise before)
    (hperm : sorted.Perm l) (limit : Nat) : Foremost before l limit (sorted.take limit) where
  length := by rw [List.length_take, hperm.length_eq]
  subperm := (List.take_sublist limit sorted).subperm.trans hperm.subperm
  ordered := hsorted.sublist (List.take_sublist limit sorted)
  left_out a ha b hb hout := by
    have hsplit : (sorted.take limit ++ sorted.drop limit).Pairwise before := by rwa [List.take_append_drop]
    have hmem : b ∈ sorted.take limit ++ sorted.drop limit := by
      rw [List.take_append_drop]
      exact hperm.mem_iff.2 hb
    rcases List.mem_append.1 hmem with hin | hdrop
    · exact absurd hin hout
    · exact (List.pairwise_append.1 hsplit).2.2 a ha b hdrop

theorem Foremost.eq_or_before {before : α → α → Prop} {l : List α} {limit : Nat} {a : α} {rest : List α}
    (h : Foremost before l limit (a :: rest)) {b : α} (hb : b ∈ l) : b = a ∨ before a b := by
  by_cases hin : b ∈ a :: rest
  · rcases List.mem_cons.1 hin with rfl | hin
    · exact .inl rfl
    · exact .inr ((List.pairwise_cons.1 h.ordered).1 b hin)
  · exact .inr (h.left_out a List.mem_cons_self b hb hin)

theorem Foremost.length_eq_limit {before : α → α → Prop} {l found : List α} {limit : Nat}
    (h : Foremost before l limit found) {b : α} (hb : b ∈ l) (hout : b ∉ found) : found.length = limit := by
  have hlength := h.length
  by_contra hne
  have hle : l.length ≤ found.length := by omega
  exact hout ((h.subperm.perm_of_length_le hle).mem_iff.2 hb)

/-- **Sorting is stable**: of two that rank alike, the one that stood first stays first. -/
theorem pairwise_mergeSort_of_pairwise {r : α → α → Bool} (htrans : ∀ a b c, r a b → r b c → r a c)
    (htotal : ∀ a b, r a b || r b a) {before : α → α → Prop} : ∀ {l : List α}, l.Pairwise before →
      (l.mergeSort r).Pairwise fun a b => r a b = true ∧ (r b a = true → before a b)
  | [], _ => by simp
  | a :: l, h => by
    obtain ⟨hhead, htail⟩ := List.pairwise_cons.1 h
    have ih := pairwise_mergeSort_of_pairwise htrans htotal htail
    -- the head goes behind those that rank strictly before it, and the others keep the places they have without it
    obtain ⟨l₁, l₂, hcons, hrest, hless⟩ := List.mergeSort_cons htrans htotal a l
    have hsorted := List.pairwise_mergeSort htrans htotal (a :: l)
    rw [hcons, List.pairwise_append] at hsorted
    rw [hrest, List.pairwise_append] at ih
    rw [hcons, List.pairwise_append, List.pairwise_cons]
    have hmem : ∀ b ∈ l₂, b ∈ l := fun b hb => List.mem_mergeSort.1 (hrest ▸ List.mem_append_right l₁ hb)
    refine ⟨ih.1, ⟨fun b hb => ?_, ih.2.1⟩, fun b hb c hc => ?_⟩
    · exact ⟨(List.pairwise_cons.1 hsorted.2.1).1 b hb, fun _ => hhead b (hmem b hb)⟩
    · rcases List.mem_cons.1 hc with rfl | hc
      · have hnot : r c b = false := by simpa using hless b hb
        exact ⟨hsorted.2.2 b hb c List.mem_cons_self, fun h => by simp [hnot] at h⟩
      · exact ih.2.2 b hb c hc

theorem nearest_eq (query : Text) (pool : List Text) (limit : Nat) :
    nearest query pool limit =
      (pool.mergeSort fun a b => decide (distance query a ≤ distance query b)).take limit := by
  have hsort := List.map_mergeSort (l := pool) (f := fun entry => (distance query entry, entry))
    (r := fun a b => decide (distance query a ≤ distance query b)) (s := fun a b => decide (a.1 ≤ b.1))
    (fun _ _ _ _ => rfl)
  rw [nearest, ← hsort, ← List.map_take, List.map_map]
  exact List.map_id _

theorem length_nearest (query : Text) (pool : List Text) (limit : Nat) :
    (nearest query pool limit).length = min limit pool.length := by
  rw [nearest_eq, List.length_take, List.length_mergeSort]

theorem nodup_nearest (query : Text) {pool : List Text} (hpool : pool.Nodup) (limit : Nat) :
    (nearest query pool limit).Nodup := by
  rw [nearest_eq]
  exact ((List.mergeSort_perm pool _).nodup_iff.2 hpool).sublist (List.take_sublist _ _)

theorem mem_of_mem_nearest {query b : Text} {pool : List Text} {limit : Nat} (h : b ∈ nearest query pool limit) :
    b ∈ pool := by
  rw [nearest_eq] at h
  exact List.mem_mergeSort.1 (List.mem_of_mem_take h)

/-- **Without a limit the nearest entries are all of the pool**, each as often as it is there. -/
theorem perm_nearest (query : Text) (pool : List Text) : (nearest query pool pool.length).Perm pool := by
  have hperm := List.mergeSort_perm pool fun a b => decide (distance query a ≤ distance query b)
  rw [nearest_eq, List.take_of_length_le hperm.length_eq.le]
  exact hperm

theorem subperm_nearest (query : Text) (pool : List Text) (limit : Nat) : (nearest query pool limit).Subperm pool := by
  rw [nearest_eq]
  exact (List.take_sublist limit _).subperm.trans (List.mergeSort_perm pool _).subperm

/-- **A place in a pool is nearer to a query than another**, or as near and further to the front. -/
def Nearer (query : Text) (pool : List Text) (i j : Fin pool.length) : Prop :=
  distance query pool[i] < distance query pool[j] ∨ distance query pool[i] = distance query pool[j] ∧ i < j

theorem Nearer.le {query : Text} {pool : List Text} {i j : Fin pool.length} (h : Nearer query pool i j) :
    distance query (pool.get i) ≤ distance query (pool.get j) := by
  rcases h with h | ⟨h, -⟩
  · exact Nat.le_of_lt h
  · exact Nat.le_of_eq h

theorem exists_nearest_places (query : Text) (pool : List Text) (limit : Nat) :
    ∃ places : List (Fin pool.length), places.map pool.get = nearest query pool limit ∧
      Foremost (Nearer query pool) (List.finRange pool.length) limit places := by
  have hsort := List.map_mergeSort (l := List.finRange pool.length) (f := pool.get)
    (r := fun i j => decide (distance query pool[i] ≤ distance query pool[j]))
    (s := fun a b => decide (distance query a ≤ distance query b)) (fun _ _ _ _ => rfl)
  -- the pool is sorted as its places are, and these stand in order before they are sorted
  have hstable := pairwise_mergeSort_of_pairwise
    (r := fun i j : Fin pool.length => decide (distance query pool[i] ≤ distance query pool[j]))
    (by simp only [decide_eq_true_eq]; omega) (by simp only [Bool.or_eq_true, decide_eq_true_eq]; omega)
    (List.pairwise_lt_finRange pool.length)
  refine ⟨_, ?_, foremost_take (hstable.imp fun {i j} h => ?_) (List.mergeSort_perm _ _) limit⟩
  · rw [List.map_take, hsort, nearest_eq]
    simp
  · simp only [decide_eq_true_eq] at h
    unfold Nearer
    omega

theorem pairwise_nearest (query : Text) (pool : List Text) (limit : Nat) :
    (nearest query pool limit).Pairwise fun a b => distance query a ≤ distance query b := by
  obtain ⟨places, hfound, hplaces⟩ := exists_nearest_places query pool limit
  rw [← hfound, List.pairwise_map]
  exact hplaces.ordered.imp Nearer.le

/-- **A query that is in the pool comes first**: nothing else is as near, and the limit allows it. -/
theorem head?_nearest {query : Text} {pool : List Text} {limit : Nat} (hquery : query ∈ pool) (hlimit : 1 ≤ limit) :
    (nearest query pool limit).head? = some query := by
  obtain ⟨places, hfound, hplaces⟩ := exists_nearest_places query pool limit
  obtain ⟨j, rfl⟩ := List.mem_iff_get.1 hquery
  rw [← hfound]
  cases places with
  | nil =>
    have hlength := hplaces.length
    have hpos := List.length_pos_of_mem hquery
    simp only [List.length_nil, List.length_finRange] at hlength
    omega
  | cons i places =>
    have hself := distance_self (pool.get j)
    have hnearest : distance (pool.get j) (pool.get i) = 0 := by
      rcases hplaces.eq_or_before (List.mem_finRange j) with rfl | h
      · exact hself
      · have hle := h.le
        omega
    rw [List.map_cons, List.head?_cons, distance_eq_zero_iff.1 hnearest]

/-- **The entries nearest to a query** are the foremost in the order of their distance, and of their places in the pool
where that is the same; the distance is the least number of edits.  A query that is in the pool comes first. -/
theorem nearest_foremost (query : Text) (pool : List Text) (limit : Nat) :
    let found := nearest query pool limit
    (∀ entry, IsLeast {n | Edits n query entry} (distance query entry)) ∧
    found.length = min limit pool.length ∧
    found.Subperm pool ∧
    found.Pairwise (fun a b => distance query a ≤ distance query b) ∧
    (∃ places : List (Fin pool.length), places.map pool.get = found ∧
      Foremost (Nearer query pool) (List.finRange pool.length) limit places) ∧
    (query ∈ pool → 1 ≤ limit → found.head? = some query) :=
  ⟨isLeast_distance query, length_nearest query pool limit, subperm_nearest query pool limit,
    pairwise_nearest query pool limit, exists_nearest_places query pool limit, head?_nearest⟩

/-- A query that is in its pool twice, with a cut between the two. -/
theorem nearest_foremost_twice :
    let query : Text := "dat"
    let pool : List Text := [("cat" : Text), "dat", "bat", "dat"]
    query ∈ pool ∧ 1 ≤ 1 ∧ nearest query pool 1 = [query] := by
  intro query pool
  have hquery : query ∈ pool := by decide
  obtain ⟨-, hlength, -, -, -, hfirst⟩ := nearest_foremost query pool 1
  refine ⟨hquery, Nat.le_refl 1, ?_⟩
  have hhead := hfirst hquery (Nat.le_refl 1)
  obtain ⟨entry, hentry⟩ := List.length_eq_one_iff.1 hlength
  rw [hentry] at hhead ⊢
  exact congrArg (fun a => [a]) (Option.some.inj hhead)

theorem bestMatches_eq (score : Text → Option Int) (pool : List Text) (limit : Nat) :
    bestMatches score pool limit = ((pool.filter fun entry => (score entry).isSome).mergeSort
      fun a b => decide ((score b).getD 0 ≤ (score a).getD 0)).take limit := by
  have hscored : ∀ pool : List Text, (pool.filterMap fun entry => (score entry).map fun s => (s, entry)) =
      (pool.filter fun entry => (score entry).isSome).map fun entry => ((score entry).getD 0, entry) := by
    intro pool
    induction pool with
    | nil => rfl
    | cons entry pool ih => cases h : score entry <;> simp [h, ih]
  have hsort := List.map_mergeSort (l := pool.filter fun entry => (score entry).isSome)
    (f := fun entry => ((score entry).getD 0, entry))
    (r := fun a b => decide ((score b).getD 0 ≤ (score a).getD 0)) (s := fun a b => decide (b.1 ≤ a.1))
    (fun _ _ _ _ => rfl)
  rw [bestMatches, hscored, ← hsort, ← List.map_take, List.map_map]
  exact List.map_id _

theorem mem_of_mem_bestMatches {score : Text → Option Int} {b : Text} {pool : List Text} {limit : Nat}
    (h : b ∈ bestMatches score pool limit) : b ∈ pool := by
  rw [bestMatches_eq] at h
  exact List.mem_of_mem_filter (List.mem_mergeSort.1 (List.mem_of_mem_take h))

/-- **An entry matches better than another**, or as well and further to the front of the pool. -/
def Better (score : Text → Option Int) (pool : List Text) (a b : Text) : Prop :=
  ∃ s t, score a = some s ∧ score b = some t ∧ (t < s ∨ t = s ∧ pool.idxOf a < pool.idxOf b)

theorem Better.ne {score : Text → Option Int} {pool : List Text} {a b : Text} (h : Better score pool a b) : a ≠ b := by
  rintro rfl
  obtain ⟨s, t, hs, ht, hlt⟩ := h
  obtain rfl : s = t := Option.some.inj (hs.symm.trans ht)
  omega

theorem pairwise_idxOf {pool : List Text} (hpool : pool.Nodup) :
    pool.Pairwise fun a b => pool.idxOf a < pool.idxOf b := by
  rw [List.pairwise_iff_getElem]
  intro i j hi hj hij
  rwa [hpool.idxOf_getElem i hi, hpool.idxOf_getElem j hj]

theorem perm_bestMatches (score : Text → Option Int) (pool : List Text) :
    (bestMatches score pool pool.length).Perm (pool.filter fun entry => (score entry).isSome) := by
  have hperm := List.mergeSort_perm (pool.filter fun entry => (score entry).isSome)
    fun a b => decide ((score b).getD 0 ≤ (score a).getD 0)
  rw [bestMatches_eq, List.take_of_length_le (hperm.length_eq.le.trans (List.length_filter_le _ _))]
  exact hperm

theorem pairwise_bestMatches (score : Text → Option Int) {pool : List Text} (hpool : pool.Nodup) (limit : Nat) :
    (bestMatches score pool limit).Pairwise (Better score pool) := by
  have hstable := pairwise_mergeSort_of_pairwise
    (r := fun a b : Text => decide ((score b).getD 0 ≤ (score a).getD 0))
    (by simp only [decide_eq_true_eq]; omega) (by simp only [Bool.or_eq_true, decide_eq_true_eq]; omega)
    ((pairwise_idxOf hpool).filter fun entry => (score entry).isSome)
  rw [bestMatches_eq]
  refine (hstable.imp_of_mem fun {a b} ha hb h => ?_).sublist (List.take_sublist _ _)
  rw [List.mem_mergeSort, List.mem_filter, Option.isSome_iff_exists] at ha hb
  obtain ⟨-, s, hs⟩ := ha
  obtain ⟨-, t, ht⟩ := hb
  simp only [hs, ht, Option.getD_some, decide_eq_true_eq] at h
  refine ⟨s, t, hs, ht, ?_⟩
  omega

end Ranking
end CommandComposer
