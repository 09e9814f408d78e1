import CommandComposer.Catalog
import CommandComposer.Proofs.Rankings
/-!
# Loading — what a catalog keeps of the names it is loaded from

A catalog keeps the normal forms of its names but for the empty one, each where it stands first (`mem_normalBlocks`,
`pairwise_idxOf_distinct`).  So a name adds nothing if its normal form is empty or stands further to the front
(`normalBlocks_insert`), and a catalog is available exactly when some name has a normal form.  What a check says depends
on no more than that and on whether the block is listed (`checkBy_eq`).
-/
namespace CommandComposer
namespace Catalog

theorem mem_distinct {a : Text} : ∀ {l : List Text}, a ∈ distinct l ↔ a ∈ l
  | [] => Iff.rfl
  | b :: l => by
    rw [distinct, List.mem_cons, List.mem_filter, mem_distinct, List.mem_cons]
    by_cases hab : a = b
    · simp [hab]
    · simp [hab]

theorem filter_distinct (p : Text → Bool) : ∀ l : List Text, (distinct l).filter p = distinct (l.filter p)
  | [] => rfl
  | a :: l => by
    have ih := filter_distinct p l
    by_cases ha : p a = true
    · rw [List.filter_cons_of_pos ha, distinct, distinct, List.filter_cons_of_pos ha, ← ih, List.filter_filter,
        List.filter_filter]
      simp only [Bool.and_comm]
    · rw [List.filter_cons_of_neg ha, distinct, List.filter_cons_of_neg ha, ← ih, List.filter_filter]
      refine List.filter_congr fun b _ => ?_
      by_cases hb : b = a
      · simp [hb, ha]
      · simp [hb]

/-- **An entry that stands further to the front adds nothing.** -/
theorem distinct_insert {a : Text} : ∀ {before : List Text}, a ∈ before → ∀ after : List Text,
    distinct (before ++ a :: after) = distinct (before ++ after)
  | b :: before, h, after => by
    rw [List.cons_append, List.cons_append, distinct, distinct]
    -- what stands in front takes its repetitions out, and with them the one that is put in
    by_cases hab : a = b
    · subst hab
      simp [filter_distinct, List.filter_append]
    · rw [distinct_insert (List.mem_of_ne_of_mem hab h) after]

/-- **The entries come in the order in which each stands first.** -/
theorem pairwise_idxOf_distinct : ∀ l : List Text, (distinct l).Pairwise fun a b => l.idxOf a < l.idxOf b
  | [] => by simp [distinct]
  | x :: l => by
    have hother : ∀ b ∈ (distinct l).filter (fun b => b ≠ x), (x :: l).idxOf b = l.idxOf b + 1 := by
      intro b hb
      have hne : b ≠ x := by simpa using (List.mem_filter.1 hb).2
      exact List.idxOf_cons_ne l hne.symm
    rw [distinct, List.pairwise_cons]
    refine ⟨fun b hb => ?_, ((pairwise_idxOf_distinct l).filter _).imp_of_mem fun {a b} ha hb h => ?_⟩
    · rw [hother b hb, List.idxOf_cons_self]
      omega
    · rw [hother a ha, hother b hb]
      omega

theorem nodup_distinct (l : List Text) : (distinct l).Nodup :=
  (pairwise_idxOf_distinct l).imp fun h heq => by simp [heq] at h

/-- The normal forms of names, but for the empty one; a form may stand there more than once. -/
def formsOf (names : List Text) : List Text := (names.map normalBlock).filter fun b => !b.isEmpty

theorem mem_formsOf {names : List Text} {b : Text} :
    b ∈ formsOf names ↔ b ≠ [] ∧ ∃ name ∈ names, normalBlock name = b := by
  rw [formsOf, List.mem_filter, List.mem_map, and_comm]
  simp

/-- **What is listed**: the normal forms of the names, but for the empty one. -/
theorem mem_normalBlocks {names : List Text} {b : Text} :
    b ∈ normalBlocks names ↔ b ≠ [] ∧ ∃ name ∈ names, normalBlock name = b :=
  mem_distinct.trans mem_formsOf

/-- **A name adds nothing** if it has no normal form, or one that stands further to the front. -/
theorem normalBlocks_insert {before : List Text} {name : Text}
    (h : normalBlock name = [] ∨ ∃ other ∈ before, normalBlock other = normalBlock name) (after : List Text) :
    normalBlocks (before ++ name :: after) = normalBlocks (before ++ after) := by
  have hforms : ∀ names, normalBlocks names = distinct (formsOf names) := fun _ => rfl
  have hsplit : ∀ names, formsOf (before ++ names) = formsOf before ++ formsOf names := fun names => by
    simp [formsOf]
  rw [hforms, hforms, hsplit, hsplit]
  by_cases hempty : normalBlock name = []
  · simp [formsOf, hempty]
  · obtain ⟨other, hother, heq⟩ := h.resolve_left hempty
    have hcons : formsOf (name :: after) = normalBlock name :: formsOf after := by simp [formsOf, hempty]
    rw [hcons, distinct_insert (mem_formsOf.2 ⟨hempty, other, hother, heq⟩)]

theorem blocks_ofNormal (reason : Text) (blocks : List Text) : (ofNormal reason blocks).blocks = blocks := by
  unfold ofNormal
  split
  · rename_i h
    exact h.symm
  · rfl

theorem blocks_ofNames (names : List Text) : (ofNames names).blocks = normalBlocks names := blocks_ofNormal _ _

/-- The names that a source gives; one that fails gives none. -/
def namesOf : Except Error (List Text) → List Text
  | .ok names => names
  | .error _ => []

theorem blocks_ofSource (source : Text) (result : Except Error (List Text)) :
    (ofSource source result).blocks = normalBlocks (namesOf result) := by
  cases result with
  | ok names => exact blocks_ofNormal _ _
  | error e => rfl

/-- **How a catalog comes about**: from names, from a source, or as one that is unavailable. -/
inductive Made : Catalog → Prop where
  | ofNames (names : List Text) : Made (ofNames names)
  | ofSource (source : Text) (result : Except Error (List Text)) : Made (ofSource source result)
  | unavailable (reason : Text) : Made (.unavailable reason)

theorem Made.nodup {c : Catalog} (h : c.Made) : c.blocks.Nodup := by
  cases h with
  | ofNames names =>
    rw [blocks_ofNames]
    exact nodup_distinct _
  | ofSource source result =>
    rw [blocks_ofSource]
    exact nodup_distinct _
  | unavailable reason => exact List.nodup_nil

theorem isAvailable_iff (c : Catalog) : c.isAvailable = true ↔ c.blocks ≠ [] := by
  cases c with
  | available blocks hne => exact iff_of_true rfl hne
  | unavailable reason => exact iff_of_false (fun h => by cases h) (fun h => h rfl)

theorem isAvailable_iff_reason (c : Catalog) : c.isAvailable = true ↔ c.reason? = none := by
  cases c with
  | available blocks hne => exact iff_of_true rfl rfl
  | unavailable reason => exact iff_of_false (fun h => by cases h) (fun h => by cases h)

theorem contains_iff_mem {c : Catalog} {name : Text} : c.contains name = true ↔ normalBlock name ∈ c.blocks := by
  simp [contains]

/-- **What a check says**, by whether there is a catalog and whether it lists the block. -/
theorem checkBy_eq (score : Text → Text → Option Int) (c : Catalog) (name : Text) (limit : Nat) :
    c.checkBy score name limit =
      if c.isAvailable then
        if c.contains name then .known
        else .unknown (c.suggest name limit)
          (((c.completeBy score name c.blocks.length).filter fun b => !(c.suggest name limit).contains b).take limit)
      else .unchecked := by
  cases c with
  | available blocks hne => rfl
  | unavailable reason => rfl

variable {c : Catalog} {name : Text} {limit : Nat}

theorem check_eq_unchecked_iff : c.check name limit = .unchecked ↔ c.isAvailable = false := by
  rw [check, checkBy_eq]
  cases c.isAvailable <;> cases c.contains name <;> simp

theorem check_eq_known_iff : c.check name limit = .known ↔ normalBlock name ∈ c.blocks := by
  rw [← contains_iff_mem, check, checkBy_eq]
  cases h : c.contains name with
  | false => cases c.isAvailable <;> simp
  | true =>
    have hmem := contains_iff_mem.1 h
    rw [c.isAvailable_iff.2 (List.ne_nil_of_mem hmem)]
    simp

theorem eq_of_check_unknown {suggestions completions : List Text}
    (h : c.check name limit = .unknown suggestions completions) :
    suggestions = c.suggest name limit ∧
      completions = ((c.complete name c.blocks.length).filter (fun b => !suggestions.contains b)).take limit := by
  rw [check, checkBy_eq] at h
  split at h
  · split at h
    · cases h
    · cases h
      exact ⟨rfl, rfl⟩
  · cases h

theorem suggest_ne_nil (havailable : c.isAvailable = true) (hlimit : 1 ≤ limit) : c.suggest name limit ≠ [] := by
  have hpos := List.length_pos_of_ne_nil (c.isAvailable_iff.1 havailable)
  have hlength := Ranking.length_nearest (normalBlock name) c.blocks limit
  rw [← List.length_pos_iff_ne_nil, suggest]
  omega

/-- **What a catalog keeps of names**: their normal forms, each once and where it stands first. -/
structure Keeps (c : Catalog) (names : List Text) : Prop where
  nodup : c.blocks.Nodup
  mem_iff : ∀ b, b ∈ c.blocks ↔ b ∈ formsOf names
  ordered : c.blocks.Pairwise fun a b => (formsOf names).idxOf a < (formsOf names).idxOf b
  contains_iff : ∀ x, c.contains x = true ↔ ∃ name ∈ names, normalBlock name ≠ [] ∧ normalBlock name = normalBlock x

/-- **The states of a catalog agree**: it is available exactly when it lists a block, and when there is no reason why it
is not; and what a check says follows from that and from whether the block is listed. -/
structure Coherent (c : Catalog) : Prop where
  listing : c.isAvailable = true ↔ c.blocks ≠ []
  reasonless : c.isAvailable = true ↔ c.reason? = none
  unchecked : ∀ x limit, c.check x limit = .unchecked ↔ c.isAvailable = false
  known : ∀ x limit, c.check x limit = .known ↔ c.isAvailable = true ∧ c.contains x = true
  unknown : ∀ x limit, c.isAvailable = true → c.contains x = false → ∃ suggestions completions,
    c.check x limit = .unknown suggestions completions ∧ (1 ≤ limit → suggestions ≠ [])

theorem keeps_of_blocks {names : List Text} (h : c.blocks = normalBlocks names) : c.Keeps names where
  nodup := h ▸ nodup_distinct _
  mem_iff b := h ▸ mem_distinct
  ordered := h ▸ pairwise_idxOf_distinct _
  contains_iff x := by
    rw [contains_iff_mem, h, mem_normalBlocks]
    constructor
    · rintro ⟨hne, name, hname, heq⟩
      exact ⟨name, hname, heq ▸ hne, heq⟩
    · rintro ⟨name, hname, hne, heq⟩
      exact ⟨heq ▸ hne, name, hname, heq⟩

theorem coherent (c : Catalog) : c.Coherent where
  listing := c.isAvailable_iff
  reasonless := c.isAvailable_iff_reason
  unchecked _ _ := check_eq_unchecked_iff
  known x limit := by
    rw [check_eq_known_iff, ← contains_iff_mem, c.isAvailable_iff]
    exact (and_iff_right_of_imp fun h => List.ne_nil_of_mem (contains_iff_mem.1 h)).symm
  unknown x limit havailable hunlisted := by
    have hcheck := checkBy_eq Ranking.Subsequence.score c x limit
    rw [havailable, hunlisted] at hcheck
    exact ⟨_, _, hcheck, suggest_ne_nil havailable⟩

theorem ofSource_insert (source : Text) {before : List Text} {name : Text}
    (h : normalBlock name = [] ∨ ∃ other ∈ before, normalBlock other = normalBlock name) (after : List Text) :
    ofSource source (.ok (before ++ name :: after)) = ofSource source (.ok (before ++ after)) := by
  unfold ofSource
  dsimp only
  rw [normalBlocks_insert h after]

/-- **When a loaded catalog is unavailable**: the source failed, or gave no name that has a normal form. -/
theorem isAvailable_ofSource_eq_false_iff (source : Text) (result : Except Error (List Text)) :
    (ofSource source result).isAvailable = false ↔
      (∃ e, result = .error e) ∨ ∀ name ∈ namesOf result, normalBlock name = [] := by
  rw [← Bool.not_eq_true, isAvailable_iff, not_not, blocks_ofSource, List.eq_nil_iff_forall_not_mem]
  constructor
  · intro h
    refine .inr fun name hname => ?_
    by_contra hne
    exact h _ (mem_normalBlocks.2 ⟨hne, name, hname, rfl⟩)
  · rintro (⟨e, rfl⟩ | h) b hb
    · obtain ⟨-, name, hname, -⟩ := mem_normalBlocks.1 hb
      cases hname
    · obtain ⟨hne, name, hname, rfl⟩ := mem_normalBlocks.1 hb
      exact hne (h name hname)

/-- **A loaded catalog is what its names come to.**  It keeps their normal forms, each once and where it stands first; so
names that add none may be put in anywhere behind.  It is unavailable exactly when the source fails or no name has a
normal form, and in this as in every catalog the states agree. -/
theorem load_keeps_forms (source : Text) (result : Except Error (List Text)) :
    (ofSource source result).Keeps (namesOf result) ∧
    (∀ before name after, (normalBlock name = [] ∨ ∃ other ∈ before, normalBlock other = normalBlock name) →
      ofSource source (.ok (before ++ name :: after)) = ofSource source (.ok (before ++ after))) ∧
    ((ofSource source result).isAvailable = false ↔
      (∃ e, result = .error e) ∨ ∀ name ∈ namesOf result, normalBlock name = []) ∧
    ∀ c : Catalog, c.Coherent :=
  ⟨keeps_of_blocks (blocks_ofSource source result), fun _ _ after h => ofSource_insert source h after,
    isAvailable_ofSource_eq_false_iff source result, coherent⟩

/-- A block that is named again and a blank name, between and behind others. -/
theorem load_keeps_forms_again :
    ofSource "memory" (.ok [("stone" : Text), "  ", "dirt", " minecraft:stone "]) =
        ofSource "memory" (.ok [("stone" : Text), "dirt"]) ∧
      ∃ suggestions completions, (ofSource "memory" (.ok [("stone" : Text), "dirt"])).check "ston" 1 =
        .unknown suggestions completions ∧ suggestions ≠ [] := by
  obtain ⟨-, hinsert, -, hcoherent⟩ := load_keeps_forms "memory" (.ok [("stone" : Text), "dirt"])
  have hblank := hinsert [("stone" : Text)] "  " [("dirt" : Text), " minecraft:stone "] (.inl (by decide))
  have hagain := hinsert [("stone" : Text), "dirt"] " minecraft:stone " [] (.inr ⟨"stone", by decide, by decide⟩)
  obtain ⟨suggestions, completions, hcheck, hsuggested⟩ :=
    (hcoherent (ofSource "memory" (.ok [("stone" : Text), "dirt"]))).unknown "ston" 1 (by decide +kernel)
      (by decide +kernel)
  exact ⟨hblank.trans hagain, suggestions, completions, hcheck, hsuggested (Nat.le_refl 1)⟩

end Catalog
end CommandComposer
