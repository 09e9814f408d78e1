import CommandComposer.Dialogue.Script
import CommandComposer.Proofs.Composing
/-!
# BlockReference — when a command names a block of its catalog

An answer is brought to normal form once for the command and once more to be looked up, and the two differ where the
namespace in front of a name hides white space or a second namespace.  So the normal form of what a command names is
always listed, but the name itself is listed only if it opens with neither, or happens to be listed as it stands
(`Named`, `block_reference_iff`).  `minecraft:minecraft:stone` is the smallest answer that goes wrong
(`block_reference_named_twice`).
-/
namespace CommandComposer
namespace Session

open Dialogue

/-- **The block of a draft** is the normal form of the last answer, behind the namespace, and ends the command. -/
theorem talk_compose_block {catalog : Catalog} {kind : Kind} {l : List Exchange} {d : Draft}
    (hkind : kind = .setblock ∨ kind = .fill) (h : (compose catalog kind).Talk l (.ok d)) :
    ∃ before question raw block, readBlock catalog raw.trim = .ok block ∧
      d.fields.get? "block" = some (blockNamespace ++ block) ∧
      (∃ head, d.serialize = .ok (head ++ " " ++ (blockNamespace ++ block))) ∧
      l = before ++ [.asked question (.ok raw), .heard (.echo "Block" (blockNamespace ++ block))] := by
  rcases hkind with rfl | rfl
  · obtain ⟨position, before, raw, block, hread, rfl, rfl⟩ := talk_compose_setblock h
    exact ⟨before, _, raw, block, hread, rfl, ⟨_, Draft.serialize_setblock _ _⟩, rfl⟩
  · obtain ⟨start, finish, before, raw, block, hread, rfl, rfl⟩ := talk_compose_fill h
    exact ⟨before, _, raw, block, hread, rfl, ⟨_, Draft.serialize_fill _ _ _⟩, rfl⟩

/-- A name that ends without white space and whose normal form is listed is listed itself, if it opens with neither
white space nor the namespace. -/
theorem mem_of_normalBlock_mem {blocks : List Text} {block : Text} (hend : block.EndsPlain)
    (hmem : normalBlock block ∈ blocks) (hplain : block.OpensPlain ∧ ¬ blockNamespace <+: block) : block ∈ blocks := by
  rwa [(normalBlock_eq_self_iff hend).2 hplain] at hmem

/-- **What a draft's block is**, when `raw` was answered last: the normal form of the answer, whose own normal form is
listed.  It names a listed block exactly when the normal form of the answer is listed as it stands, which it is if it
opens neither with white space nor with the namespace. -/
structure Named (blocks : List Text) (raw : Text) (d : Draft) : Prop where
  field : d.fields.get? "block" = some (blockNamespace ++ normalBlock raw)
  text : ∃ head, d.serialize = .ok (head ++ " " ++ (blockNamespace ++ normalBlock raw))
  known : normalBlock (normalBlock raw) ∈ blocks
  listed_iff : (∃ b ∈ blocks, d.fields.get? "block" = some (blockNamespace ++ b)) ↔ normalBlock raw ∈ blocks
  listed_of_plain : (normalBlock raw).OpensPlain → ¬ blockNamespace <+: normalBlock raw → normalBlock raw ∈ blocks

theorem named_of_talk {catalog : Catalog} (havail : catalog.isAvailable = true) {kind : Kind} {l : List Exchange}
    {d : Draft} (hkind : kind = .setblock ∨ kind = .fill) (h : (compose catalog kind).Talk l (.ok d)) :
    ∃ before question raw,
      l = before ++ [.asked question (.ok raw), .heard (.echo "Block" (blockNamespace ++ normalBlock raw))] ∧
      Named catalog.blocks raw d := by
  obtain ⟨before, question, raw, block, hread, hfield, htext, hl⟩ := talk_compose_block hkind h
  obtain ⟨rfl, -, hmem⟩ := readBlock_eq_ok hread
  rw [normalBlock_trim] at hfield htext hmem hl
  refine ⟨before, question, raw, hl, hfield, htext, hmem havail, ⟨?_, fun hlisted => ⟨_, hlisted, hfield⟩⟩, ?_⟩
  · rintro ⟨b, hb, heq⟩
    rw [hfield, Option.some.injEq, List.append_cancel_left_eq] at heq
    exact heq ▸ hb
  · intro hopens hnamespace
    exact mem_of_normalBlock_mem (endsPlain_normalBlock raw) (hmem havail) ⟨hopens, hnamespace⟩

/-- **When the block of a command is a block of its catalog**, for what is composed and for what a whole session gives,
whoever the partner is. -/
theorem block_reference_iff {σ : Type} (p : Partner σ) (names : List Text) (s : σ)
    (havail : (Catalog.ofNames names).isAvailable = true) :
    (∀ kind d, kind = .setblock ∨ kind = .fill → ((compose (.ofNames names) kind).run p s).1 = .ok d →
      ∃ before question raw,
        (compose (.ofNames names) kind).transcript p s =
          before ++ [.asked question (.ok raw), .heard (.echo "Block" (blockNamespace ++ normalBlock raw))] ∧
        Named (Catalog.ofNames names).blocks raw d) ∧
    ∀ cmd, ((command (.ofNames names)).run p s).1 = .ok cmd →
      ∃ (kind : Kind) (rest : List Exchange),
        (command (.ofNames names)).transcript p s = .asked kindMenu (.ok kind.name) :: rest ∧
        (kind = .setblock ∨ kind = .fill →
          ∃ before question raw d,
            rest = before ++ [.asked question (.ok raw), .heard (.echo "Block" (blockNamespace ++ normalBlock raw))] ∧
            d.serialize = .ok cmd ∧ Named (Catalog.ofNames names).blocks raw d) := by
  constructor
  · intro kind d hkind hrun
    have htalk := talk_transcript p (compose (.ofNames names) kind) s
    rw [hrun] at htalk
    exact named_of_talk havail hkind htalk
  · intro cmd hrun
    have htalk := talk_transcript p (command (.ofNames names)) s
    rw [hrun] at htalk
    obtain ⟨kind, d, l, hcompose, hserialize, hl⟩ := talk_command htalk
    refine ⟨kind, _, hl, fun hkind => ?_⟩
    obtain ⟨before, question, raw, rfl, hnamed⟩ := named_of_talk havail hkind hcompose
    exact ⟨.heard (.echo "Generate target" kind.name) :: before, question, raw, d, rfl, hserialize, hnamed⟩

def placed (reference : Text) : Draft := ((Draft.new .setblock).setField "position" "0 0 0").setField "block" reference

/-- A listed block, answered with white space around it and the namespace in front. -/
theorem block_reference_iff_stone :
    (Catalog.ofNames ["stone"]).isAvailable = true ∧
    ((compose (.ofNames ["stone"]) .setblock).run (Script.partner .checked)
      (Script.start ["0 0 0", " minecraft:stone "])).1 = .ok (placed "minecraft:stone") ∧
    ((command (.ofNames ["stone"])).run (Script.partner .checked)
      (Script.start ["setblock", "0 0 0", " minecraft:stone "])).1 = .ok "/setblock 0 0 0 minecraft:stone" ∧
    (∃ raw, Named (Catalog.ofNames ["stone"]).blocks raw (placed "minecraft:stone")) ∧
    ∃ (kind : Kind) (rest : List Exchange),
      (command (.ofNames ["stone"])).transcript (Script.partner .checked)
        (Script.start ["setblock", "0 0 0", " minecraft:stone "]) = .asked kindMenu (.ok kind.name) :: rest ∧
      (kind = .setblock ∨ kind = .fill →
        ∃ before question raw d,
          rest = before ++ [.asked question (.ok raw), .heard (.echo "Block" (blockNamespace ++ normalBlock raw))] ∧
          d.serialize = .ok "/setblock 0 0 0 minecraft:stone" ∧ Named (Catalog.ofNames ["stone"]).blocks raw d) := by
  have havail : (Catalog.ofNames ["stone"]).isAvailable = true := rfl
  obtain ⟨_, _, raw, -, hnamed⟩ := (block_reference_iff (Script.partner .checked) ["stone"]
    (Script.start ["0 0 0", " minecraft:stone "]) havail).1 .setblock _ (.inl rfl) rfl
  have hsession := (block_reference_iff (Script.partner .checked) ["stone"]
    (Script.start ["setblock", "0 0 0", " minecraft:stone "]) havail).2 "/setblock 0 0 0 minecraft:stone" rfl
  exact ⟨havail, rfl, rfl, ⟨raw, hnamed⟩, hsession⟩

/-- **A namespace given twice**: the block is accepted because its normal form is listed, and the command names one that
is not. -/
theorem block_reference_named_twice :
    (Catalog.ofNames ["stone"]).isAvailable = true ∧
    ((compose (.ofNames ["stone"]) .setblock).run (Script.partner .checked)
      (Script.start ["0 0 0", "minecraft:minecraft:stone"])).1 = .ok (placed "minecraft:minecraft:stone") ∧
    ¬ ∃ b ∈ (Catalog.ofNames ["stone"]).blocks,
      (placed "minecraft:minecraft:stone").fields.get? "block" = some (blockNamespace ++ b) := by
  refine ⟨rfl, rfl, ?_⟩
  rintro ⟨b, hb, heq⟩
  obtain rfl : b = "stone" := List.mem_singleton.1 hb
  revert heq
  decide

end Session
end CommandComposer
