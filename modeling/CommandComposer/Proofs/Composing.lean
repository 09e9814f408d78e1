import CommandComposer.Proofs.Destinations
import CommandComposer.Proofs.Outcome
/-!
# Composing — what a composed draft holds, and what it is serialised to

A successful composition asks the questions of its kind in order, and its draft holds for each the value that the
reader made of the last answer (`talk_compose_setblock` and its siblings).  A draft that holds a value for each of its
kind's fields has a command (`serialize_setblock` and its siblings), so composing never ends without one.
-/
namespace CommandComposer

namespace Draft

theorem serialize_give (target : Target) (clauses components : Option ClauseSet) (item amount : Text) :
    ((({ Draft.new .give with target := some target, clauses := clauses, components := components } : Draft).setField
        "item" item).setField "amount" amount).serialize =
      .ok ("/give " ++ refined clauses target.token ++ " " ++ refined components item ++ " " ++ amount) := by
  have h : ((({ Draft.new .give with target := some target, clauses := clauses, components := components } :
      Draft).setField "item" item).setField "amount" amount).serialize =
        .ok (List.flatten
          [("/give " : Text), refined clauses target.token, " ", refined components item, " ", amount]) := by
    cases components <;> rfl
  rw [h]
  simp only [List.flatten_cons, List.flatten_nil, List.append_assoc, List.append_nil]

theorem serialize_teleport (destination : Text) :
    ((Draft.new .teleport).setField "destination" destination).serialize = .ok ("/teleport " ++ destination) := by
  have h : ((Draft.new .teleport).setField "destination" destination).serialize =
      .ok (List.flatten [("/teleport " : Text), destination]) := rfl
  rw [h]
  simp only [List.flatten_cons, List.flatten_nil, List.append_nil]

theorem serialize_setblock (position block : Text) :
    (((Draft.new .setblock).setField "position" position).setField "block" block).serialize =
      .ok ("/setblock " ++ position ++ " " ++ block) := by
  have h : (((Draft.new .setblock).setField "position" position).setField "block" block).serialize =
      .ok (List.flatten [("/setblock " : Text), position, " ", block]) := rfl
  rw [h]
  simp only [List.flatten_cons, List.flatten_nil, List.append_assoc, List.append_nil]

theorem serialize_fill (start finish block : Text) :
    ((((Draft.new .fill).setField "from" start).setField "to" finish).setField "block" block).serialize =
      .ok ("/fill " ++ start ++ " " ++ finish ++ " " ++ block) := by
  have h : ((((Draft.new .fill).setField "from" start).setField "to" finish).setField "block" block).serialize =
      .ok (List.flatten [("/fill " : Text), start, " ", finish, " ", block]) := rfl
  rw [h]
  simp only [List.flatten_cons, List.flatten_nil, List.append_assoc, List.append_nil]

theorem serialize_say (message : Text) :
    ((Draft.new .say).setField "message" message).serialize = .ok ("/say " ++ message) := by
  have h : ((Draft.new .say).setField "message" message).serialize =
      .ok (List.flatten [("/say " : Text), message]) := rfl
  rw [h]
  simp only [List.flatten_cons, List.flatten_nil, List.append_nil]

theorem serialize_execute (target command : Text) :
    (((Draft.new .execute).setField "target" target).setField "command" command).serialize =
      .ok ("/execute as " ++ target ++ " at @s run " ++ command) := by
  have h : (((Draft.new .execute).setField "target" target).setField "command" command).serialize =
      .ok (List.flatten [("/execute as " : Text), target, " at @s run ", command]) := rfl
  rw [h]
  simp only [List.flatten_cons, List.flatten_nil, List.append_assoc, List.append_nil]

end Draft

theorem Kind.name_of_read {name : Text} {kind : Kind} (h : Kind.read name = .ok kind) : name = kind.name := by
  unfold Kind.read at h
  split at h
  · rename_i k hk
    cases h
    have hname := List.find?_some hk
    exact (eq_of_beq hname).symm
  · cases h

theorem Catalog.mem_of_check {catalog : Catalog} {name : Text} {limit : Nat}
    (hu : ∀ suggestions completions, catalog.check name limit ≠ .unknown suggestions completions)
    (ha : catalog.isAvailable = true) : normalBlock name ∈ catalog.blocks := by
  cases catalog with
  | unavailable reason => cases ha
  | available blocks hne =>
    cases hc : (Catalog.available blocks hne).contains name with
    | true => simpa [Catalog.contains] using hc
    | false => exact absurd (if_neg (by simp [hc])) (hu _ _)

namespace Session

open Dialogue

theorem talk_askField {label message : Text} {reader : Reader Text} {l : List Exchange} {v : Text}
    (h : (askField label message reader).Talk l (.ok v)) :
    ∃ before raw, reader raw.trim = .ok v ∧
      l = before ++ [.asked (required message) (.ok raw), .heard (.echo label v)] := by
  obtain ⟨v', l₁, l₂, h₁, h₂, rfl⟩ := (talk_bind_ok _ _ _ _).1 h
  obtain ⟨rfl, heq⟩ := (talk_tell_done _ _ _ _).1 h₂
  cases heq
  obtain ⟨before, raw, hread, rfl⟩ := talk_askRequired h₁
  exact ⟨before, raw, hread, by simp⟩

theorem talk_askBlock {catalog : Catalog} {message : Text} {l : List Exchange} {reference : Text}
    (h : (askBlock catalog message).Talk l (.ok reference)) :
    ∃ before raw block, readBlock catalog raw.trim = .ok block ∧ reference = blockNamespace ++ block ∧
      l = before ++ [.asked (required message) (.ok raw), .heard (.echo "Block" reference)] := by
  obtain ⟨_, l₀, l₃, -, h₃, rfl⟩ := (talk_bind_ok _ _ _ _).1 h
  obtain ⟨block, l₁, l₂, h₁, h₂, rfl⟩ := (talk_bind_ok _ _ _ _).1 h₃
  obtain ⟨rfl, heq⟩ := (talk_tell_done _ _ _ _).1 h₂
  cases heq
  obtain ⟨before, raw, hread, rfl⟩ := talk_askRequired h₁
  exact ⟨l₀ ++ before, raw, block, hread, rfl, by simp⟩

/-- **What a block is accepted for**: it is not blank, and a catalog that is available lists its normal form. -/
theorem readBlock_eq_ok {catalog : Catalog} {t block : Text} (h : readBlock catalog t = .ok block) :
    block = normalBlock t ∧ block.allBlank = false ∧
      (catalog.isAvailable = true → normalBlock block ∈ catalog.blocks) := by
  unfold readBlock at h
  dsimp only at h
  split at h
  · cases h
  · rename_i hblank
    have hknown : (∀ suggestions completions, catalog.check (normalBlock t) suggestionLimit ≠
        .unknown suggestions completions) ∧ block = normalBlock t := by
      split at h
      · cases h
        exact ⟨fun _ _ => by simp_all, rfl⟩
      · cases h
        exact ⟨fun _ _ => by simp_all, rfl⟩
      · cases h
    obtain ⟨hu, rfl⟩ := hknown
    exact ⟨rfl, by simpa using hblank, Catalog.mem_of_check hu⟩

theorem talk_askPosition {label message : Text} {l : List Exchange} {v : Text}
    (h : (askPosition label message).Talk l (.ok v)) : ∃ p : Position, v = p.text := by
  obtain ⟨_, _, hread, -⟩ := talk_askField h
  obtain ⟨p, -, hv⟩ := readPosition_eq_ok_iff.1 hread
  exact ⟨p, hv⟩

theorem talk_askText {label message reason : Text} {l : List Exchange} {v : Text}
    (h : (askText label message reason).Talk l (.ok v)) : v.Trimmed ∧ v.allBlank = false := by
  obtain ⟨_, raw, hread, -⟩ := talk_askField h
  obtain ⟨rfl, hv⟩ := readIf_eq_ok hread
  exact ⟨Text.trimmed_trim raw, by simpa using hv⟩

theorem talk_askClauses {message : Text} {schema : Schema} {l : List Exchange} {clauses : Option ClauseSet}
    (h : (askClauses message schema).Talk l (.ok clauses)) :
    clauses = none ∨ ∃ set l', clauses = some set ∧ schema.build.Talk l' (.ok set) := by
  obtain ⟨wanted, l₁, l₂, -, h₂, -⟩ := (talk_bind_ok _ _ _ _).1 h
  cases wanted with
  | false =>
    cases h₂.2
    exact .inl rfl
  | true =>
    obtain ⟨set, l₃, l₄, h₃, ⟨-, heq⟩, -⟩ := (talk_bind_ok _ _ _ _).1 h₂
    cases heq
    exact .inr ⟨set, l₃, rfl, h₃⟩

theorem talk_compose_give {catalog : Catalog} {l : List Exchange} {d : Draft}
    (h : (compose catalog .give).Talk l (.ok d)) :
    ∃ target clauses components item amount l₁ l₂ raw,
      (askClauses "Want to further refine your target selector?" Schema.selectors).Talk l₁ (.ok clauses) ∧
      item.Trimmed ∧ item.allBlank = false ∧
      (askClauses "Want to add item components?" Schema.components).Talk l₂ (.ok components) ∧
      readAmount raw = .ok amount ∧
      d = (({ Draft.new .give with target := some target, clauses := clauses, components := components } :
        Draft).setField "item" item).setField "amount" amount := by
  obtain ⟨target, _, _, -, h, -⟩ := (talk_bind_ok _ _ _ _).1 h
  obtain ⟨clauses, l₁, _, hclauses, h, -⟩ := (talk_bind_ok _ _ _ _).1 h
  obtain ⟨item, _, _, hitem, h, -⟩ := (talk_bind_ok _ _ _ _).1 h
  obtain ⟨components, l₂, _, hcomponents, h, -⟩ := (talk_bind_ok _ _ _ _).1 h
  obtain ⟨amount, _, _, hamount, ⟨-, hd⟩, -⟩ := (talk_bind_ok _ _ _ _).1 h
  obtain ⟨_, raw, hread, -⟩ := talk_askField hamount
  obtain ⟨hitem, hblank⟩ := talk_askText hitem
  cases hd
  exact ⟨target, clauses, components, item, amount, l₁, l₂, raw.trim, hclauses, hitem, hblank, hcomponents, hread, rfl⟩

theorem talk_compose_teleport {catalog : Catalog} {l : List Exchange} {d : Draft}
    (h : (compose catalog .teleport).Talk l (.ok d)) :
    ∃ destination raw : Text, readDestination raw.trim = .ok destination ∧
      d = (Draft.new .teleport).setField "destination" destination := by
  obtain ⟨destination, _, _, hdestination, ⟨-, hd⟩, -⟩ := (talk_bind_ok _ _ _ _).1 h
  obtain ⟨_, raw, hread, -⟩ := talk_askField hdestination
  cases hd
  exact ⟨destination, raw, hread, rfl⟩

theorem talk_compose_setblock {catalog : Catalog} {l : List Exchange} {d : Draft}
    (h : (compose catalog .setblock).Talk l (.ok d)) :
    ∃ (position : Position) (before : List Exchange) (raw block : Text), readBlock catalog raw.trim = .ok block ∧
      d = ((Draft.new .setblock).setField "position" position.text).setField "block" (blockNamespace ++ block) ∧
      l = before ++ [.asked (required "Block (e.g., diamond_block)") (.ok raw),
        .heard (.echo "Block" (blockNamespace ++ block))] := by
  obtain ⟨_, l₁, _, hposition, h', rfl⟩ := (talk_bind_ok _ _ _ _).1 h
  obtain ⟨_, _, _, hblock, ⟨rfl, hd⟩, rfl⟩ := (talk_bind_ok _ _ _ _).1 h'
  obtain ⟨position, rfl⟩ := talk_askPosition hposition
  obtain ⟨before, raw, block, hread, rfl, rfl⟩ := talk_askBlock hblock
  cases hd
  exact ⟨position, l₁ ++ before, raw, block, hread, rfl, by simp⟩

theorem talk_compose_fill {catalog : Catalog} {l : List Exchange} {d : Draft}
    (h : (compose catalog .fill).Talk l (.ok d)) :
    ∃ (start finish : Position) (before : List Exchange) (raw block : Text), readBlock catalog raw.trim = .ok block ∧
      d = (((Draft.new .fill).setField "from" start.text).setField "to" finish.text).setField "block"
        (blockNamespace ++ block) ∧
      l = before ++ [.asked (required "Block (e.g., stone)") (.ok raw),
        .heard (.echo "Block" (blockNamespace ++ block))] := by
  obtain ⟨_, l₁, _, hstart, h', rfl⟩ := (talk_bind_ok _ _ _ _).1 h
  obtain ⟨_, l₂, _, hfinish, h'', rfl⟩ := (talk_bind_ok _ _ _ _).1 h'
  obtain ⟨_, _, _, hblock, ⟨rfl, hd⟩, rfl⟩ := (talk_bind_ok _ _ _ _).1 h''
  obtain ⟨start, rfl⟩ := talk_askPosition hstart
  obtain ⟨finish, rfl⟩ := talk_askPosition hfinish
  obtain ⟨before, raw, block, hread, rfl, rfl⟩ := talk_askBlock hblock
  cases hd
  exact ⟨start, finish, l₁ ++ (l₂ ++ before), raw, block, hread, rfl, by simp⟩

theorem talk_compose_say {catalog : Catalog} {l : List Exchange} {d : Draft}
    (h : (compose catalog .say).Talk l (.ok d)) :
    ∃ message : Text, message.Trimmed ∧ message.allBlank = false ∧
      d = (Draft.new .say).setField "message" message := by
  obtain ⟨message, _, _, hmessage, ⟨-, hd⟩, -⟩ := (talk_bind_ok _ _ _ _).1 h
  obtain ⟨htrim, hblank⟩ := talk_askText hmessage
  cases hd
  exact ⟨message, htrim, hblank, rfl⟩

theorem talk_compose_execute {catalog : Catalog} {l : List Exchange} {d : Draft}
    (h : (compose catalog .execute).Talk l (.ok d)) :
    ∃ target command : Text, target.Trimmed ∧ target.allBlank = false ∧ command.Trimmed ∧ command.allBlank = false ∧
      d = ((Draft.new .execute).setField "target" target).setField "command" command := by
  obtain ⟨target, _, _, htarget, h, -⟩ := (talk_bind_ok _ _ _ _).1 h
  obtain ⟨command, _, _, hcommand, ⟨-, hd⟩, -⟩ := (talk_bind_ok _ _ _ _).1 h
  obtain ⟨htrim, hblank⟩ := talk_askText htarget
  obtain ⟨htrim', hblank'⟩ := talk_askText hcommand
  cases hd
  exact ⟨target, command, htrim, hblank, htrim', hblank', rfl⟩

def kindMenu : Question := .menu "Select a command type:" (Kind.all.map fun k => .plain k.name)

theorem talk_selectKind {l : List Exchange} {kind : Kind} (h : selectKind.Talk l (.ok kind)) :
    l = [.asked kindMenu (.ok kind.name), .heard (.echo "Generate target" kind.name)] := by
  obtain ⟨picked, l₁, hpicked, rfl⟩ := (talk_ask_bind_ok _ _ _ _).1 h
  obtain ⟨kind', l₂, l₃, hread, htell, rfl⟩ := (talk_bind_ok _ _ _ _).1 hpicked
  obtain ⟨rfl, hkind⟩ := (talk_ofExcept _ _ _).1 hread
  obtain ⟨rfl, heq⟩ := (talk_tell_done _ _ _ _).1 htell
  cases heq
  rw [Kind.name_of_read hkind.symm]
  rfl

/-- **A command** opens with the pick of its kind, and is what the composed draft is serialised to. -/
theorem talk_command {catalog : Catalog} {l : List Exchange} {cmd : Text}
    (h : (command catalog).Talk l (.ok cmd)) :
    ∃ kind d l', (compose catalog kind).Talk l' (.ok d) ∧ d.serialize = .ok cmd ∧
      l = .asked kindMenu (.ok kind.name) :: .heard (.echo "Generate target" kind.name) :: l' := by
  obtain ⟨kind, l₁, l₂, hkind, hrest, rfl⟩ := (talk_bind_ok _ _ _ _).1 h
  obtain ⟨d, l₃, l₄, hd, hcmd, rfl⟩ := (talk_bind_ok _ _ _ _).1 hrest
  obtain ⟨rfl, hserialize⟩ := (talk_ofExcept _ _ _).1 hcmd
  exact ⟨kind, d, l₃, hd, hserialize.symm, by simp [talk_selectKind hkind]⟩

end Session
end CommandComposer
