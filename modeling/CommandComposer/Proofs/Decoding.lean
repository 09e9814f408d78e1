import CommandComposer.Dialogue.Script
import CommandComposer.Proofs.Composing
import CommandComposer.Proofs.Positions
/-!
# Decoding — a draft read back from its command

A command opens with its kind's word; behind it stands a destination or a message, or one or two positions of three
tokens each and a block (`Draft.decode?`).  No coordinate holds a space, so a position is read back whatever stands
behind it (`Position.take?_text`), and neither a block nor a message has to be told apart from anything.  So what was
composed is read back (`Session.exists_decoded`), and no two drafts have one command (`Session.commands_decode_uniquely`).
Gifts and `execute` are left out: an item may hold spaces, and a target the words behind it.
-/
namespace CommandComposer

/-- **The token in front**, up to the first space, and the text behind that. -/
def Text.token? : Text → Option (Text × Text)
  | [] => none
  | c :: t => if c = ' ' then some ([], t) else (token? t).map fun (word, rest) => (c :: word, rest)

theorem Text.token?_append : ∀ {word : Text} (rest : Text), ' ' ∉ word →
    token? (word ++ ' ' :: rest) = some (word, rest)
  | [], rest, _ => rfl
  | c :: word, rest, h => by
    have hc : c ≠ ' ' := fun hc => h (hc ▸ List.mem_cons_self)
    have hword : ' ' ∉ word := fun hmem => h (List.mem_cons_of_mem _ hmem)
    rw [List.cons_append, token?, if_neg hc, token?_append rest hword]
    rfl

theorem space_not_mem_of_isCoordinate {t : Text} (h : isCoordinate t = true) : ' ' ∉ t := fun hmem =>
  absurd ((isPlain_of_isCoordinate h).plain ' ' hmem) (by decide)

namespace Position

/-- **The position in front**, of three tokens, and the text behind it. -/
def take? (t : Text) : Option (Position × Text) := do
  let (x, t) ← t.token?
  let (y, t) ← t.token?
  let (z, t) ← t.token?
  if h : isCoordinate x ∧ isCoordinate y ∧ isCoordinate z then some (⟨x, y, z, h⟩, t) else none

/-- **A position is read back**, whatever stands behind it. -/
theorem take?_text (p : Position) (rest : Text) : take? (p.text ++ ' ' :: rest) = some (p, rest) := by
  obtain ⟨x, y, z, h⟩ := p
  have htext : (text ⟨x, y, z, h⟩ ++ ' ' :: rest) = x ++ ' ' :: (y ++ ' ' :: (z ++ ' ' :: rest)) := by
    simp [text_eq]
  have hx := Text.token?_append (y ++ ' ' :: (z ++ ' ' :: rest)) (space_not_mem_of_isCoordinate h.1)
  have hy := Text.token?_append (z ++ ' ' :: rest) (space_not_mem_of_isCoordinate h.2.1)
  have hz := Text.token?_append rest (space_not_mem_of_isCoordinate h.2.2)
  simp [take?, htext, hx, hy, hz, h]

end Position

namespace Draft

/-- **The draft of a command**, read from its text. -/
def decode? : Text → Option Draft
  | '/' :: t => do
    let (word, rest) ← Text.token? t
    match Kind.read word with
    | .ok .teleport => some ((Draft.new .teleport).setField "destination" rest)
    | .ok .setblock => do
      let (position, block) ← Position.take? rest
      some (((Draft.new .setblock).setField "position" position.text).setField "block" block)
    | .ok .fill => do
      let (start, rest) ← Position.take? rest
      let (finish, block) ← Position.take? rest
      some ((((Draft.new .fill).setField "from" start.text).setField "to" finish.text).setField "block" block)
    | .ok .say => some ((Draft.new .say).setField "message" rest)
    | _ => none
  | _ => none

theorem decode?_teleport (destination : Text) :
    decode? ("/teleport " ++ destination) = some ((Draft.new .teleport).setField "destination" destination) := rfl

theorem decode?_say (message : Text) :
    decode? ("/say " ++ message) = some ((Draft.new .say).setField "message" message) := rfl

theorem decode?_setblock (position : Position) (block : Text) :
    decode? ("/setblock " ++ position.text ++ " " ++ block) =
      some (((Draft.new .setblock).setField "position" position.text).setField "block" block) := by
  have hread : decode? ("/setblock " ++ (position.text ++ ' ' :: block)) =
      (Position.take? (position.text ++ ' ' :: block)).bind fun (position, block) =>
        some (((Draft.new .setblock).setField "position" position.text).setField "block" block) := rfl
  rw [Position.take?_text] at hread
  rw [List.append_assoc, List.append_assoc]
  exact hread

theorem decode?_fill (start finish : Position) (block : Text) :
    decode? ("/fill " ++ start.text ++ " " ++ finish.text ++ " " ++ block) =
      some ((((Draft.new .fill).setField "from" start.text).setField "to" finish.text).setField "block" block) := by
  have hread : decode? ("/fill " ++ (start.text ++ ' ' :: (finish.text ++ ' ' :: block))) =
      (Position.take? (start.text ++ ' ' :: (finish.text ++ ' ' :: block))).bind fun (start, rest) =>
        (Position.take? rest).bind fun (finish, block) =>
          some ((((Draft.new .fill).setField "from" start.text).setField "to" finish.text).setField "block" block) :=
    rfl
  rw [Position.take?_text, Option.bind_some] at hread
  dsimp only at hread
  rw [Position.take?_text] at hread
  rw [List.append_assoc, List.append_assoc, List.append_assoc, List.append_assoc]
  exact hread

end Draft

namespace Session

open Dialogue

/-- **The kinds whose commands are read back.** -/
def decodedKinds : List Kind := [.teleport, .setblock, .fill, .say]

/-- **A draft that was composed is read back from its command.** -/
theorem exists_decoded {catalog : Catalog} {kind : Kind} (hkind : kind ∈ decodedKinds) {l : List Exchange} {d : Draft}
    (h : (compose catalog kind).Talk l (.ok d)) : ∃ cmd, d.serialize = .ok cmd ∧ Draft.decode? cmd = some d := by
  cases kind with
  | give => exact absurd hkind (by decide)
  | execute => exact absurd hkind (by decide)
  | teleport =>
    obtain ⟨destination, -, -, rfl⟩ := talk_compose_teleport h
    exact ⟨_, Draft.serialize_teleport destination, Draft.decode?_teleport destination⟩
  | setblock =>
    obtain ⟨position, -, -, block, -, rfl, -⟩ := talk_compose_setblock h
    exact ⟨_, Draft.serialize_setblock _ _, Draft.decode?_setblock position _⟩
  | fill =>
    obtain ⟨start, finish, -, -, block, -, rfl, -⟩ := talk_compose_fill h
    exact ⟨_, Draft.serialize_fill _ _ _, Draft.decode?_fill start finish _⟩
  | say =>
    obtain ⟨message, -, -, rfl⟩ := talk_compose_say h
    exact ⟨_, Draft.serialize_say message, Draft.decode?_say message⟩

/-- **Commands decode uniquely.**  A draft that was composed is read back from its command, whatever its texts hold; so
two that were composed, with any catalogs and partners, and have one command are of one kind and have the same fields. -/
theorem commands_decode_uniquely {σ σ' : Type} (p : Partner σ) (p' : Partner σ') (catalog catalog' : Catalog) (s : σ)
    (s' : σ') (kind kind' : Kind) (hkind : kind ∈ decodedKinds) (hkind' : kind' ∈ decodedKinds) (d d' : Draft)
    (hrun : ((compose catalog kind).run p s).1 = .ok d) (hrun' : ((compose catalog' kind').run p' s').1 = .ok d') :
    (∃ cmd, d.serialize = .ok cmd ∧ Draft.decode? cmd = some d) ∧
    (d.serialize = d'.serialize → d.kind = d'.kind ∧ d.fields = d'.fields) := by
  have htalk := (compose catalog kind).talk_transcript p s
  have htalk' := (compose catalog' kind').talk_transcript p' s'
  rw [hrun] at htalk
  rw [hrun'] at htalk'
  obtain ⟨cmd, hcmd, hdecode⟩ := exists_decoded hkind htalk
  obtain ⟨cmd', hcmd', hdecode'⟩ := exists_decoded hkind' htalk'
  refine ⟨⟨cmd, hcmd, hdecode⟩, fun hsame => ?_⟩
  rw [hcmd, hcmd'] at hsame
  cases hsame
  have hd : d = d' := Option.some.inj (hdecode.symm.trans hdecode')
  exact ⟨congrArg Draft.kind hd, congrArg Draft.fields hd⟩

/-- A block with digits, spaces and a brace, typed with the namespace and without it. -/
theorem commands_decode_uniquely_braces :
    ∃ d d' : Draft,
      Kind.setblock ∈ decodedKinds ∧
      ((compose (.unavailable "none") .setblock).run (Script.partner .checked)
        (Script.start ["0  64 ~-1", "minecraft:1 2 3 {a} "])).1 = .ok d ∧
      ((compose (.unavailable "lost") .setblock).run (Script.partner .unchecked)
        (Script.start ["0 64 0 0", " 0 64\t~-1", "1 2 3 {a}"])).1 = .ok d' ∧
      d.serialize = d'.serialize ∧ d.kind = d'.kind ∧ d.fields = d'.fields ∧
      ∃ cmd, d.serialize = .ok cmd ∧ Draft.decode? cmd = some d := by
  have hkind : Kind.setblock ∈ decodedKinds := by decide
  obtain ⟨hdecoded, hsame⟩ := commands_decode_uniquely (Script.partner .checked) (Script.partner .unchecked)
    (.unavailable "none") (.unavailable "lost") (Script.start ["0  64 ~-1", "minecraft:1 2 3 {a} "])
    (Script.start ["0 64 0 0", " 0 64\t~-1", "1 2 3 {a}"]) .setblock .setblock hkind hkind _ _ rfl rfl
  exact ⟨_, _, hkind, rfl, rfl, rfl, (hsame rfl).1, (hsame rfl).2, hdecoded⟩

end Session
end CommandComposer
