import CommandComposer.Proofs.Loading
/-!
# UnknownBlocks — what is offered for a block that is not listed

The suggestions are the entries nearest to the block, and the completions are the foremost of the entries that match it
and are not suggested: what is suggested is left out before the cut (`foremost_completions`).  So nothing is offered
twice, and a match is missing only where the limit is used up by better ones (`unknown_block_report`).
-/
namespace CommandComposer
namespace Catalog

open Ranking

/-- **A report that loses and repeats nothing**, for an arbitrary measure of what matches. -/
structure Report (measure : Text → Option Int) (blocks : List Text) (limit : Nat)
    (suggestions completions : List Text) : Prop where
  suggestions_nodup : suggestions.Nodup
  completions_nodup : completions.Nodup
  disjoint : suggestions.Disjoint completions
  suggestions_listed : suggestions ⊆ blocks
  completions_listed : completions ⊆ blocks
  suggestions_length : suggestions.length = min limit blocks.length
  completions_length : completions.length ≤ limit
  matching : ∀ a ∈ completions, (measure a).isSome = true
  ordered : completions.Pairwise (Better measure blocks)
  left_out : ∀ b ∈ blocks, (measure b).isSome = true → b ∉ suggestions → b ∉ completions →
    completions.length = limit ∧ ∀ a ∈ completions, Better measure blocks a b

variable {measure : Text → Option Int} {blocks : List Text}

/-- The entries that match and are not suggested. -/
def candidates (measure : Text → Option Int) (blocks suggestions : List Text) : List Text :=
  (blocks.filter fun b => (measure b).isSome).filter fun b => !suggestions.contains b

theorem mem_candidates {suggestions : List Text} {b : Text} :
    b ∈ candidates measure blocks suggestions ↔ (b ∈ blocks ∧ (measure b).isSome = true) ∧ b ∉ suggestions := by
  rw [candidates, List.mem_filter, List.mem_filter, Bool.not_eq_true', List.contains_eq_mem, decide_eq_false_iff_not]

theorem foremost_completions (hblocks : blocks.Nodup) (suggestions : List Text) (limit : Nat) :
    Foremost (Better measure blocks) (candidates measure blocks suggestions) limit
      (((bestMatches measure blocks blocks.length).filter fun b => !suggestions.contains b).take limit) :=
  foremost_take ((pairwise_bestMatches measure hblocks _).filter _) ((perm_bestMatches measure blocks).filter _) limit

theorem report_of_foremost (hblocks : blocks.Nodup) (query : Text) {limit : Nat} {completions : List Text}
    (h : Foremost (Better measure blocks) (candidates measure blocks (nearest query blocks limit)) limit completions) :
    Report measure blocks limit (nearest query blocks limit) completions where
  suggestions_nodup := nodup_nearest query hblocks limit
  completions_nodup := h.ordered.imp Better.ne
  disjoint a hs hc := (mem_candidates.1 (h.subperm.subset hc)).2 hs
  suggestions_listed a := mem_of_mem_nearest
  completions_listed a hc := (mem_candidates.1 (h.subperm.subset hc)).1.1
  suggestions_length := length_nearest query blocks limit
  completions_length := h.length ▸ Nat.min_le_left _ _
  matching a hc := (mem_candidates.1 (h.subperm.subset hc)).1.2
  ordered := h.ordered
  left_out b hb hmatch hnot hout := by
    have hleft : b ∈ candidates measure blocks (nearest query blocks limit) := mem_candidates.2 ⟨⟨hb, hmatch⟩, hnot⟩
    exact ⟨h.length_eq_limit hleft hout, fun a ha => h.left_out a ha b hleft hout⟩

/-- **A block that is not listed is answered with a full report**, whatever the measure of what matches. -/
theorem unknown_block_report (score : Text → Text → Option Int) {c : Catalog} (hmade : c.Made)
    (havailable : c.isAvailable = true) {name : Text} (hunlisted : c.contains name = false) (limit : Nat) :
    ∃ completions, c.checkBy score name limit = .unknown (c.suggest name limit) completions ∧
      Report (score (normalBlock name)) c.blocks limit (c.suggest name limit) completions := by
  have hcheck := checkBy_eq score c name limit
  rw [havailable, hunlisted] at hcheck
  exact ⟨_, hcheck, report_of_foremost hmade.nodup (normalBlock name) (foremost_completions hmade.nodup _ limit)⟩

/-- Two blocks match what is typed: one is suggested, and so the other is the completion. -/
theorem unknown_block_report_stone :
    let catalog := Catalog.ofNames [("stone" : Text), "dirt", "minecraft:stone", "stone_bricks"]
    catalog.isAvailable = true ∧ catalog.contains "ston" = false ∧
      ∃ completions, catalog.check "ston" 1 = .unknown (catalog.suggest "ston" 1) completions ∧
        Report (Subsequence.score "ston") catalog.blocks 1 (catalog.suggest "ston" 1) completions := by
  intro catalog
  have havailable : catalog.isAvailable = true := by decide +kernel
  have hunlisted : catalog.contains "ston" = false := by decide +kernel
  exact ⟨havailable, hunlisted, unknown_block_report Subsequence.score (.ofNames _) havailable hunlisted 1⟩

end Catalog
end CommandComposer
