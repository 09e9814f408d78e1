import CommandComposer.Dialogue.Script
import CommandComposer.Proofs.ClauseCollection
import CommandComposer.Proofs.Composing
import CommandComposer.Proofs.Numerals
/-!
# CommandForm — the grammar of the commands

Each kind has its commands (`Kind.Form`): what stands at each place, and what it looks like.  A session that succeeds
picks a kind and gives one of its commands (`command_form`), whatever the catalog is and however the partner answers.
-/
namespace CommandComposer

/-- **What may stand behind a target or an item**: nothing, or clauses in brackets, with distinct keys of the schema. -/
def Schema.Refinement (schema : Schema) (t : Text) : Prop :=
  t = [] ∨ ∃ clauses : List Clause, clauses ≠ [] ∧ (clauses.map Clause.key).Nodup ∧
    (∀ key ∈ clauses.map Clause.key, key ∈ schema.keyNames) ∧
    t = "[" ++ Text.join "," (clauses.map Clause.text) ++ "]"

/-- **The commands of a kind.** -/
inductive Kind.Form : Kind → Text → Prop where
  | give (target : Target) (selectors item components amount : Text)
      (hselectors : Schema.selectors.Refinement selectors) (hitem : item.Trimmed ∧ item.allBlank = false)
      (hcomponents : Schema.components.Refinement components) (hamount : Numeral.Canonical amount) :
      Form .give ("/give " ++ (target.token ++ selectors) ++ " " ++ (item ++ components) ++ " " ++ amount)
  | teleportTo (position : Position) : Form .teleport ("/teleport " ++ position.text)
  | teleportToTarget (name : Text) (hat : name.head? = some '@') (hlen : 1 < name.byteLength) :
      Form .teleport ("/teleport " ++ name)
  | setblock (position : Position) (block : Text) (hblock : block.EndsPlain ∧ block.allBlank = false) :
      Form .setblock ("/setblock " ++ position.text ++ " " ++ (blockNamespace ++ block))
  | fill (start finish : Position) (block : Text) (hblock : block.EndsPlain ∧ block.allBlank = false) :
      Form .fill ("/fill " ++ start.text ++ " " ++ finish.text ++ " " ++ (blockNamespace ++ block))
  | say (message : Text) (hmessage : message.Trimmed ∧ message.allBlank = false) : Form .say ("/say " ++ message)
  | execute (target command : Text) (htarget : target.Trimmed ∧ target.allBlank = false)
      (hcommand : command.Trimmed ∧ command.allBlank = false) :
      Form .execute ("/execute as " ++ target ++ " at @s run " ++ command)

namespace Session

open Dialogue

theorem canonical_of_readAmount {t amount : Text} (h : readAmount t = .ok amount) : Numeral.Canonical amount := by
  unfold readAmount at h
  split at h
  · cases h
    exact ⟨by decide, .inr (by decide)⟩
  · split at h
    · cases h
      exact Numeral.canonical_dropZeros ‹_›
    · cases h

theorem readDestination_eq_ok {t destination : Text} (h : readDestination t = .ok destination) :
    (∃ p : Position, destination = p.text) ∨ destination.head? = some '@' ∧ 1 < destination.byteLength := by
  rcases readDestination_eq_ok_iff.1 h with ⟨name, hne, rfl, rfl⟩ | ⟨p, -, rfl⟩
  · obtain ⟨c, name, rfl⟩ := List.exists_cons_of_ne_nil hne
    refine .inr ⟨rfl, ?_⟩
    have hpos := Char.utf8Size_pos c
    have hat : ('@' : Char).utf8Size = 1 := by decide
    simp only [Text.byteLength, List.foldr_cons]
    omega
  · exact .inl ⟨p, rfl⟩

/-- **The clauses that were built for a base** stand behind it, and are of the schema. -/
theorem refinement_of_askClauses {message : Text} {schema : Schema} (hplain : schema.Plain) {l : List Exchange}
    {clauses : Option ClauseSet} (h : (askClauses message schema).Talk l (.ok clauses)) (base : Text) :
    ∃ t, schema.Refinement t ∧ Draft.refined clauses base = base ++ t := by
  rcases talk_askClauses h with rfl | ⟨set, l', rfl, hbuild⟩
  · exact ⟨[], .inl rfl, (List.append_nil _).symm⟩
  · have hcollected := (Schema.built_of_talk hbuild).collected hplain List.nodup_nil
    have hset := hcollected.result _ rfl
    rw [List.nil_append] at hset
    cases hempty : set.isEmpty with
    | true => exact ⟨[], .inl rfl, (set.attachTo_of_isEmpty hempty base).trans (List.append_nil base).symm⟩
    | false =>
      have hne : set.toList ≠ [] := fun hnil => by simp [ClauseSet.isEmpty_iff.2 hnil] at hempty
      refine ⟨_, .inr ⟨set.toList, hne, set.distinct, hset ▸ hcollected.keys, rfl⟩, ?_⟩
      have hrefined : Draft.refined (some set) base = base ++ "[" ++ set.text ++ "]" :=
        set.attachTo_of_not_isEmpty hempty base
      rw [hrefined, ClauseSet.text, List.append_assoc, List.append_assoc, List.append_assoc]

/-- **A draft that was composed is serialised to a command of its kind.** -/
theorem form_of_talk_compose {catalog : Catalog} {kind : Kind} {l : List Exchange} {d : Draft} {cmd : Text}
    (h : (compose catalog kind).Talk l (.ok d)) (hcmd : d.serialize = .ok cmd) : kind.Form cmd := by
  cases kind with
  | give =>
    obtain ⟨target, clauses, components, item, amount, l₁, l₂, raw, hclauses, hitem, hblank, hcomponents, hamount,
      rfl⟩ := talk_compose_give h
    obtain ⟨t₁, ht₁, hrefined₁⟩ := refinement_of_askClauses Schema.plain_selectors hclauses target.token
    obtain ⟨t₂, ht₂, hrefined₂⟩ := refinement_of_askClauses Schema.plain_components hcomponents item
    rw [Draft.serialize_give, hrefined₁, hrefined₂] at hcmd
    cases hcmd
    exact .give target t₁ item t₂ amount ht₁ ⟨hitem, hblank⟩ ht₂ (canonical_of_readAmount hamount)
  | teleport =>
    obtain ⟨destination, raw, hread, rfl⟩ := talk_compose_teleport h
    rw [Draft.serialize_teleport] at hcmd
    cases hcmd
    rcases readDestination_eq_ok hread with ⟨p, rfl⟩ | ⟨hat, hlen⟩
    · exact .teleportTo p
    · exact .teleportToTarget destination hat hlen
  | setblock =>
    obtain ⟨position, before, raw, block, hread, rfl, -⟩ := talk_compose_setblock h
    rw [Draft.serialize_setblock] at hcmd
    cases hcmd
    obtain ⟨rfl, hblank, -⟩ := readBlock_eq_ok hread
    exact .setblock position _ ⟨endsPlain_normalBlock _, hblank⟩
  | fill =>
    obtain ⟨start, finish, before, raw, block, hread, rfl, -⟩ := talk_compose_fill h
    rw [Draft.serialize_fill] at hcmd
    cases hcmd
    obtain ⟨rfl, hblank, -⟩ := readBlock_eq_ok hread
    exact .fill start finish _ ⟨endsPlain_normalBlock _, hblank⟩
  | say =>
    obtain ⟨message, htrim, hblank, rfl⟩ := talk_compose_say h
    rw [Draft.serialize_say] at hcmd
    cases hcmd
    exact .say message ⟨htrim, hblank⟩
  | execute =>
    obtain ⟨target, command, htrim, hblank, htrim', hblank', rfl⟩ := talk_compose_execute h
    rw [Draft.serialize_execute] at hcmd
    cases hcmd
    exact .execute target command ⟨htrim, hblank⟩ ⟨htrim', hblank'⟩

/-- **Every successful session gives a command of the kind picked in it**, whatever the catalog is and whoever the
partner is. -/
theorem command_form {σ : Type} (p : Partner σ) (catalog : Catalog) (s : σ) (cmd : Text)
    (hrun : ((command catalog).run p s).1 = .ok cmd) :
    ∃ (kind : Kind) (rest : List Exchange),
      (command catalog).transcript p s = .asked kindMenu (.ok kind.name) :: rest ∧ kind.Form cmd := by
  have htalk := talk_transcript p (command catalog) s
  rw [hrun] at htalk
  obtain ⟨kind, d, l, hcompose, hserialize, hl⟩ := talk_command htalk
  exact ⟨kind, _, hl, form_of_talk_compose hcompose hserialize⟩

/-- A gift whose target is refined and whose amount has zeros in front, with a catalog that is not available. -/
theorem command_form_gift :
    ((command (.unavailable "none")).run (Script.partner .unchecked)
      (Script.start ["give", "@p", "y", "tag", "foo", "OK", " diamond ", "", "007"])).1 =
        .ok "/give @p[tag=foo] diamond 7" ∧
    ∃ (kind : Kind) (rest : List Exchange),
      (command (.unavailable "none")).transcript (Script.partner .unchecked)
          (Script.start ["give", "@p", "y", "tag", "foo", "OK", " diamond ", "", "007"]) =
        .asked kindMenu (.ok kind.name) :: rest ∧
      kind.Form "/give @p[tag=foo] diamond 7" :=
  ⟨rfl, command_form _ _ _ _ rfl⟩

end Session
end CommandComposer
