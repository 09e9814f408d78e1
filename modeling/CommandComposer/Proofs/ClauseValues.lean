import CommandComposer.Proofs.Building
import CommandComposer.Proofs.Values
/-!
# ClauseValues — the clauses that a script can collect

Which values a key has, key by key (`Clause.Proper`).  Every clause that is built with a script is one of these
(`clause_values`): a clause joins the others with a value of its key's kind, and no round touches those that are there.
-/
namespace CommandComposer

def wordKeys : List Text := ["distance", "score", "tag", "team", "level", "advancements", "predicate"]

def countKeys : List Text := ["limit", "damage", "max_damage"]

/-- **A clause with a value of its key's.** -/
inductive Clause.Proper : Clause → Prop where
  | word (key value : Text) (hkey : key ∈ wordKeys) (hvalue : value.IsWord) : Proper ⟨key, value⟩
  | count (key value : Text) (hkey : key ∈ countKeys) (hvalue : Numeral.Canonical value) : Proper ⟨key, value⟩
  | stackSize (value : Text) (hvalue : Numeral.Canonical value)
      (hrange : 1 ≤ Numeral.value value ∧ Numeral.value value ≤ 99) : Proper ⟨"max_stack_size", value⟩
  | gamemode (value : Text) (hvalue : value ∈ (["survival", "creative", "adventure", "spectator"] : List Text)) :
      Proper ⟨"gamemode", value⟩
  | sort (value : Text) (hvalue : value ∈ (["nearest", "furthest", "random", "arbitrary"] : List Text)) :
      Proper ⟨"sort", value⟩
  | rarity (value : Text) (hvalue : value ∈ (["common", "uncommon", "rare", "epic"] : List Text)) :
      Proper ⟨"rarity", value⟩
  | glint (value : Text) (hvalue : value = "true" ∨ value = "false") : Proper ⟨"enchantment_glint_override", value⟩
  | name (key value name : Text) (hkey : key = "item_name" ∨ key = "custom_name")
      (hvalue : Quoted.decode? value = some name) (hname : name.IsWord) : Proper ⟨key, value⟩
  | lore (value : Text) (lines : List Text) (hvalue : Quoted.decodeList? value = some lines) (hne : lines ≠ [])
      (hlines : ∀ line ∈ lines, Lore.IsLine line) : Proper ⟨"lore", value⟩
  | food (a b c : Text) (ha : Food.IsPart a) (hb : Food.IsPart b) (hc : Food.IsPart c) :
      Proper ⟨"food", '{' :: "nutrition:" ++ a ++ ", saturation:" ++ b ++ ", can_always_eat:" ++ c ++ ['}']⟩
  | enchantments (es : List Enchantment) (hne : es ≠ []) (hes : ∀ e ∈ es, e.IsProper) :
      Proper ⟨"enchantments", '{' :: Text.join ", " (es.map fun e => e.name ++ ":" ++ e.level) ++ ['}']⟩

namespace Schema

open Dialogue

theorem proper_selectors : ∀ spec ∈ selectors.keys, ∀ v, spec.value.Takes v → Clause.Proper ⟨spec.key, v⟩ := by
  unfold selectors
  refine List.forall_mem_cons.2 ⟨fun v h => .word _ v (by decide) h, ?_⟩
  refine List.forall_mem_cons.2 ⟨fun v h => .word _ v (by decide) h, ?_⟩
  refine List.forall_mem_cons.2 ⟨fun v h => .word _ v (by decide) h, ?_⟩
  refine List.forall_mem_cons.2 ⟨fun v h => .word _ v (by decide) h, ?_⟩
  refine List.forall_mem_cons.2 ⟨fun v h => .count _ v (by decide) h, ?_⟩
  refine List.forall_mem_cons.2 ⟨fun v h => .word _ v (by decide) h, ?_⟩
  refine List.forall_mem_cons.2 ⟨fun v h => .gamemode v h, ?_⟩
  refine List.forall_mem_cons.2 ⟨fun v h => .word _ v (by decide) h, ?_⟩
  refine List.forall_mem_cons.2 ⟨fun v h => .word _ v (by decide) h, ?_⟩
  exact List.forall_mem_singleton.2 (fun v h => .sort v h)

theorem proper_components : ∀ spec ∈ components.keys, ∀ v, spec.value.Takes v → Clause.Proper ⟨spec.key, v⟩ := by
  unfold components
  refine List.forall_mem_cons.2 ⟨fun v ⟨name, hdecode, hname⟩ => .name _ v name (.inl rfl) hdecode hname, ?_⟩
  refine List.forall_mem_cons.2 ⟨fun v ⟨name, hdecode, hname⟩ => .name _ v name (.inr rfl) hdecode hname, ?_⟩
  refine List.forall_mem_cons.2 ⟨fun v ⟨lines, hdecode, hne, hlines⟩ => .lore v lines hdecode hne hlines, ?_⟩
  refine List.forall_mem_cons.2 ⟨fun v h => .count _ v (by decide) h, ?_⟩
  refine List.forall_mem_cons.2 ⟨fun v h => .glint v h, ?_⟩
  refine List.forall_mem_cons.2 ⟨fun _ ⟨es, hne, hes, hv⟩ => hv ▸ .enchantments es hne hes, ?_⟩
  refine List.forall_mem_cons.2 ⟨fun _ ⟨f, hv, ha, hb, hc⟩ => hv ▸ .food _ _ _ ha hb hc, ?_⟩
  refine List.forall_mem_cons.2 ⟨fun v h => .count _ v (by decide) h, ?_⟩
  refine List.forall_mem_cons.2 ⟨fun v h => .stackSize v h.1 h.2, ?_⟩
  exact List.forall_mem_singleton.2 (fun v h => .rarity v h)

/-- **A value of its kind is a value of its key**, key by key. -/
theorem proper_of_takes {schema : Schema} (hschema : schema = selectors ∨ schema = components) {spec : KeySpec}
    (hspec : spec ∈ schema.keys) {v : Text} (h : spec.value.Takes v) : Clause.Proper ⟨spec.key, v⟩ := by
  rcases hschema with rfl | rfl
  · exact proper_selectors spec hspec v h
  · exact proper_components spec hspec v h

/-- **Clauses are added with values of their kind**, by induction on how they are built. -/
theorem Built.takes {schema : Schema} {clauses : List Clause} {l : List Exchange} {r : Except Error (List Clause)}
    (h : Built schema clauses l r) (hfair : ∀ x ∈ l, x.Fair) {result : List Clause} (hr : r = .ok result) :
    ∀ c ∈ result, c ∈ clauses ∨ ∃ spec ∈ schema.keys, spec.key = c.key ∧ spec.value.Takes c.value := by
  induction h with
  | unanswered clauses e => cases hr
  | finished clauses =>
    cases hr
    exact fun c hc => .inl hc
  | foreign clauses pick hpick => cases hr
  | failed clauses spec talk e hspec hfree htalk => cases hr
  | cancelled clauses spec talk l r hspec hfree htalk _ ih =>
    exact ih (fun x hx => hfair x (by simp [hx])) hr
  | accepted clauses spec talk value l r hspec hfree htalk _ ih =>
    have htakes : spec.value.Takes value := ValueKind.takes_of_talk htalk (fun x hx => hfair x (by simp [hx]))
    intro c hc
    rcases ih (fun x hx => hfair x (by simp [hx])) hr c hc with hmem | hspec'
    · rcases List.mem_append.1 hmem with hmem | hmem
      · exact .inl hmem
      · rw [List.mem_singleton.1 hmem]
        exact .inr ⟨spec, hspec, rfl, htakes⟩
    · exact .inr hspec'

/-- **Every clause that is built with a script has a value of its key's**, in both schemas. -/
theorem clause_values {schema : Schema} (hschema : schema = selectors ∨ schema = components) (answers : List Text)
    {set : ClauseSet} (hrun : (schema.build.run (Script.partner .checked) (Script.start answers)).1 = .ok set) :
    ∀ c ∈ set.toList, c.Proper := by
  obtain ⟨htalk, hfair, -⟩ := Script.run_ok (Prod.ext hrun rfl)
  intro c hc
  rcases (built_of_talk htalk).takes hfair rfl c hc with hnone | ⟨spec, hspec, hkey, htakes⟩
  · cases hnone
  · have hproper := proper_of_takes hschema hspec htakes
    rwa [hkey] at hproper

/-- A name with marks in it, a lore with an empty line, and enchantments that are backed out of and asked for again. -/
theorem clause_values_sting :
    (components = selectors ∨ components = components) ∧
    ∃ set : ClauseSet, set.toList = [⟨"item_name", "\"\\\"Sting\\\"\""⟩, ⟨"lore", "[\"glows\",\"orcs\"]"⟩,
        ⟨"enchantments", "\x7bsharpness:5\x7d"⟩] ∧
      (components.build.run (Script.partner .checked) (Script.start
        ["item_name", " \"Sting\" ", "lore", "glows<br> <br>orcs", "enchantments", "x", "1", "y", "Back",
          "enchantments", "sharpness", "256", "005", "N", "OK"])).1 = .ok set ∧
      ∀ c ∈ set.toList, c.Proper := by
  have hschema : components = selectors ∨ components = components := .inr rfl
  have hrun : (components.build.run (Script.partner .checked) (Script.start
      ["item_name", " \"Sting\" ", "lore", "glows<br> <br>orcs", "enchantments", "x", "1", "y", "Back",
        "enchantments", "sharpness", "256", "005", "N", "OK"])).1 =
      .ok ⟨[⟨"item_name", "\"\\\"Sting\\\"\""⟩, ⟨"lore", "[\"glows\",\"orcs\"]"⟩,
        ⟨"enchantments", "\x7bsharpness:5\x7d"⟩], by decide⟩ := rfl
  exact ⟨hschema, _, rfl, hrun, clause_values hschema _ hrun⟩

end Schema
end CommandComposer
