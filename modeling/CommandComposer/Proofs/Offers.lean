import CommandComposer.Proofs.Composing
import CommandComposer.Proofs.Loading
/-!
# Offers — which of the offered blocks can be chosen

A catalog lists the normal forms of its names (`Catalog.mem_normalBlocks`), and all that it offers for a block that it
does not list is listed (`Catalog.Offers.mem_blocks`).  A block that is looked up is brought to normal form once more,
so an offer is known exactly when its own normal form is listed, and it is chosen as it stands exactly when it is its
own normal form (`offered_block_iff`).  A name that hides white space or a second namespace behind its namespace leaves
a block that is offered and cannot be chosen (`offered_block_refused`).
-/
namespace CommandComposer

namespace Catalog

variable {c : Catalog} {b : Text}

/-- **A block is offered** for some name that is not listed, with some limit. -/
def Offers (c : Catalog) (b : Text) : Prop :=
  ∃ name limit suggestions completions, c.check name limit = .unknown suggestions completions ∧
    (b ∈ suggestions ∨ b ∈ completions)

theorem Offers.mem_blocks (h : c.Offers b) : b ∈ c.blocks := by
  obtain ⟨name, limit, suggestions, completions, hcheck, hb⟩ := h
  obtain ⟨rfl, rfl⟩ := eq_of_check_unknown hcheck
  rcases hb with hb | hb
  · exact Ranking.mem_of_mem_nearest hb
  · exact Ranking.mem_of_mem_bestMatches (List.mem_filter.1 (List.mem_of_mem_take hb)).1

/-- A listed block whose normal form is not listed is offered for itself. -/
theorem offers_of_not_mem (hb : b ∈ c.blocks) (hn : normalBlock b ∉ c.blocks) : c.Offers b := by
  cases hcheck : c.check b c.blocks.length with
  | known => exact absurd (check_eq_known_iff.1 hcheck) hn
  | unchecked =>
    cases c with
    | unavailable reason => cases hb
    | available blocks hne =>
      unfold check checkBy at hcheck
      dsimp only at hcheck
      split at hcheck <;> cases hcheck
  | unknown suggestions completions =>
    refine ⟨b, c.blocks.length, suggestions, completions, hcheck, .inl ?_⟩
    rw [(eq_of_check_unknown hcheck).1]
    exact (Ranking.perm_nearest (normalBlock b) c.blocks).mem_iff.2 hb

end Catalog

namespace Session

/-- **A listed block is chosen as it stands** exactly when it is its own normal form. -/
theorem readBlock_eq_ok_self_iff {catalog : Catalog} {b : Text} (hb : b ∈ catalog.blocks)
    (hblank : b.allBlank = false) : readBlock catalog b.trim = .ok b ↔ normalBlock b = b := by
  constructor
  · intro h
    have hblock := (readBlock_eq_ok h).1
    rw [normalBlock_trim] at hblock
    exact hblock.symm
  · intro h
    have hknown : catalog.check b suggestionLimit = .known := Catalog.check_eq_known_iff.2 (h.symm ▸ hb)
    rw [readBlock, normalBlock_trim, h, hblank, hknown]
    rfl

/-- **When the offers of a catalog can be chosen.**  A listed block is its own normal form exactly when it opens with
neither white space nor the namespace; all are, exactly when no name hides either behind its namespace.  What is offered
is listed; it is known exactly when its normal form is listed, and an answer that is kept as it stands exactly when it
is its own normal form.  So all that is offered is known exactly when the listed blocks have listed normal forms. -/
theorem offered_block_iff (names : List Text) :
    let catalog := Catalog.ofNames names
    (∀ b ∈ catalog.blocks, normalBlock b = b ↔ b.OpensPlain ∧ ¬ blockNamespace <+: b) ∧
    ((∀ b ∈ catalog.blocks, normalBlock b = b) ↔
      ∀ name ∈ names, (normalBlock name).OpensPlain ∧ ¬ blockNamespace <+: normalBlock name) ∧
    (∀ b, catalog.Offers b →
      b ∈ catalog.blocks ∧ (∀ limit, catalog.check b limit = .known ↔ normalBlock b ∈ catalog.blocks) ∧
      (readBlock catalog b.trim = .ok b ↔ normalBlock b = b)) ∧
    ((∀ b, catalog.Offers b → ∀ limit, catalog.check b limit = .known) ↔
      ∀ b ∈ catalog.blocks, normalBlock b ∈ catalog.blocks) := by
  intro catalog
  have hlisted : ∀ {b}, b ∈ catalog.blocks ↔ b ≠ [] ∧ ∃ name ∈ names, normalBlock name = b := fun {b} => by
    rw [Catalog.blocks_ofNames, Catalog.mem_normalBlocks]
  have hends : ∀ b ∈ catalog.blocks, b.EndsPlain := by
    intro b hb
    obtain ⟨-, name, -, rfl⟩ := hlisted.1 hb
    exact endsPlain_normalBlock name
  refine ⟨fun b hb => normalBlock_eq_self_iff (hends b hb), ⟨fun h name hname => ?_, fun h b hb => ?_⟩, fun b hb => ?_,
    ⟨fun h b hb => ?_, fun h b hb limit => ?_⟩⟩
  · by_cases hne : normalBlock name = []
    · rw [hne]
      exact ⟨nofun, by decide⟩
    · have hself := h _ (hlisted.2 ⟨hne, name, hname, rfl⟩)
      exact (normalBlock_eq_self_iff (endsPlain_normalBlock name)).1 hself
  · obtain ⟨-, name, hname, rfl⟩ := hlisted.1 hb
    exact (normalBlock_eq_self_iff (endsPlain_normalBlock name)).2 (h name hname)
  · have hmem := hb.mem_blocks
    have hblank := (hends b hmem).allBlank_eq_false (hlisted.1 hmem).1
    exact ⟨hmem, fun limit => Catalog.check_eq_known_iff, readBlock_eq_ok_self_iff hmem hblank⟩
  · by_contra hn
    exact hn (Catalog.check_eq_known_iff.1 (h b (Catalog.offers_of_not_mem hb hn) 0))
  · exact Catalog.check_eq_known_iff.2 (h b hb.mem_blocks)

/-- A block that is offered for a part of its name, and can be chosen. -/
theorem offered_block_iff_stone :
    let catalog := Catalog.ofNames [" minecraft:stone ", "stone"]
    let block : Text := "stone"
    catalog.Offers block ∧ block ∈ catalog.blocks ∧ normalBlock block = block ∧
      catalog.check block 5 = .known ∧ readBlock catalog block.trim = .ok block := by
  intro catalog block
  obtain ⟨hself, -, hoffered, -⟩ := offered_block_iff [" minecraft:stone ", "stone"]
  have hcheck : catalog.check "ston" 5 = .unknown ["stone"] [] := by decide +kernel
  have hoffer : catalog.Offers block := ⟨_, _, _, _, hcheck, .inl List.mem_cons_self⟩
  obtain ⟨hmem, hknown, hchosen⟩ := hoffered block hoffer
  have hopens : block.OpensPlain := by
    intro c hc
    cases hc
    decide
  have hsame : normalBlock block = block := (hself block hmem).2 ⟨hopens, by decide⟩
  exact ⟨hoffer, hmem, hsame, (hknown 5).2 (hsame.symm ▸ hmem), hchosen.2 hsame⟩

/-- **A namespace given twice**: the listed block still carries one, so it is offered and is not known. -/
theorem offered_block_refused :
    let catalog := Catalog.ofNames ["minecraft:minecraft:stone"]
    let block : Text := "minecraft:stone"
    block ∈ catalog.blocks ∧ normalBlock block ≠ block ∧
      catalog.check "dirt" 5 = .unknown [block] [] ∧ catalog.check block 5 ≠ .known := by
  decide +kernel

end Session
end CommandComposer
