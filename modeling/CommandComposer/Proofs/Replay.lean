import CommandComposer.Proofs.Composing
import CommandComposer.Proofs.Positions
import CommandComposer.Proofs.ScriptRun
/-!
# Replay — what was accepted is accepted again

The value that a reader gives is read as itself: a text that is not blank, a destination, a position in normal form, and
a block with the namespace in front of it (`readDestination_again`, `readBlock_again`).  So the fields of a composed
draft are answers that compose it, each taken the first time it is given (`takes_compose`), and a session that is
answered with them gives the command of the session that they come from (`Session.replay_same_command`).  Gifts are
left out: what their menus were answered with is not a field.
-/
namespace CommandComposer

/-- **The values of a draft's fields**, in the order in which its template names them and a session asks for them. -/
def Draft.answers (d : Draft) : List Text := d.kind.template.keys.filterMap d.fields.get?

/-- An exchange in which nothing is refused: an answer is one of those offered, and no reason is told. -/
structure Exchange.Smooth (x : Exchange) : Prop where
  fair : x.Fair
  welcome : ∀ reason, x ≠ .heard (.message .error reason)

/-- No error is shown where nothing is refused, however often notices are heard. -/
theorem Script.no_errors_of_smooth {l : List Exchange} (h : ∀ x ∈ l, x.Smooth) (answers : List Text) (noticed : Bool) :
    messages ⟨answers, (heardOnce noticed l).map Exchange.event⟩ .error = [] := by
  rw [messages, List.filterMap_eq_nil_iff]
  intro e he
  obtain ⟨x, hx, rfl⟩ := List.mem_map.1 he
  have hwelcome := (h x (mem_of_mem_heardOnce hx)).welcome
  rcases x with ⟨q, reply⟩ | ⟨tone, text⟩ | ⟨label, value⟩ | text
  · rfl
  · cases tone with
    | error => exact absurd rfl (hwelcome text)
    | _ => rfl
  · rfl
  · rfl

namespace Dialogue

variable {α β : Type}

/-- **A dialogue takes answers as they come**, to a result: one of its talks has these replies, and in it nothing is
refused. -/
def Takes (d : Dialogue α) (answers : List Text) (a : α) : Prop :=
  ∃ l, d.Talk l (.ok a) ∧ (∀ x ∈ l, x.Smooth) ∧ replies l = answers

theorem takes_done (a : α) : (done a).Takes [] a := ⟨[], ⟨rfl, rfl⟩, nofun, rfl⟩

theorem takes_bind {d : Dialogue α} {next : α → Dialogue β} {answers answers' : List Text} {a : α} {b : β}
    (hd : d.Takes answers a) (hn : (next a).Takes answers' b) : (d >>= next).Takes (answers ++ answers') b := by
  obtain ⟨l, htalk, hsmooth, rfl⟩ := hd
  obtain ⟨l', htalk', hsmooth', rfl⟩ := hn
  exact ⟨l ++ l', (talk_bind_ok _ _ _ _).2 ⟨a, l, l', htalk, htalk', rfl⟩,
    List.forall_mem_append.2 ⟨hsmooth, hsmooth'⟩, replies_append l l'⟩

theorem takes_ask {q : Question} {a : Text} (h : Script.offered q a = true) : (ask q).Takes [a] a :=
  ⟨[.asked q (.ok a)], rfl, List.forall_mem_singleton.2 ⟨h, nofun⟩, rfl⟩

theorem takes_tell {m : Remark} (h : ∀ reason, Exchange.heard m ≠ .heard (.message .error reason)) :
    (tell m).Takes [] () :=
  ⟨[.heard m], ⟨rfl, rfl⟩, List.forall_mem_singleton.2 ⟨trivial, h⟩, rfl⟩

theorem takes_echo (label value : Text) (a : α) : (tell (.echo label value) >>= fun _ => done a).Takes [] a :=
  takes_bind (takes_tell (m := .echo label value) nofun) (takes_done a)

theorem takes_askRequired {message : Text} {reader : Reader α} {raw : Text} {a : α} (h : reader raw.trim = .ok a) :
    (askRequired message reader).Takes [raw] a := by
  refine ⟨[.asked (required message) (.ok raw)], .finished () raw [] a ?_, ?_, rfl⟩
  · dsimp only
    rw [h]
    exact ⟨rfl, rfl⟩
  · exact List.forall_mem_singleton.2 ⟨rfl, nofun⟩

theorem run_bind_ok {σ : Type} {p : Partner σ} {d : Dialogue α} {next : α → Dialogue β} {s : σ} {b : β}
    (h : ((d >>= next).run p s).1 = .ok b) : ∃ a t, d.run p s = (.ok a, t) ∧ ((next a).run p t).1 = .ok b := by
  rw [run_bind] at h
  split at h
  · cases h
  · exact ⟨_, _, ‹_›, h⟩

end Dialogue

namespace Session

open Dialogue

theorem readIf_again {reason v : Text} (htrim : v.Trimmed) (hblank : v.allBlank = false) :
    readIf (fun t => !t.allBlank) reason v.trim = .ok v := by
  rw [htrim.trim_eq, readIf, hblank]
  rfl

theorem readPosition_again (reason : Text) (p : Position) : readPosition reason p.text.trim = .ok p.text := by
  rw [readPosition, p.trimmed_text.trim_eq, p.read?_text]

/-- **A destination is read as itself**, as no white space stands around it. -/
theorem readDestination_again {raw destination : Text} (h : readDestination raw.trim = .ok destination) :
    readDestination destination.trim = .ok destination := by
  have htrim : destination.trim = destination := by
    rcases readDestination_eq_ok_iff.1 h with ⟨-, -, -, rfl⟩ | ⟨p, -, rfl⟩
    · exact Text.trim_trim raw
    · exact p.trimmed_text.trim_eq
  rw [htrim]
  exact readDestination_eq_self h

theorem normalBlock_reference {block : Text} (hend : block.EndsPlain) (hblank : block.allBlank = false) :
    normalBlock (blockNamespace ++ block).trim = block := by
  have hne : block ≠ [] := by
    rintro rfl
    cases hblank
  have htrim : (blockNamespace ++ block).Trimmed := by
    refine ⟨fun c hc => ?_, fun c hc => hend c ?_⟩
    · cases hc
      decide
    · rwa [List.getLast?_append_of_ne_nil _ hne] at hc
  have hhead : blockNamespace.isPrefixOf (blockNamespace ++ block) = true :=
    List.isPrefixOf_iff_prefix.2 (List.prefix_append _ _)
  rw [normalBlock_trim, normalBlock, htrim.trim_eq, dropHead, if_pos hhead, List.drop_left]

/-- **A block is read as itself** from its reference: the namespace in front of it is the one that is dropped, whatever
the block opens with. -/
theorem readBlock_again {catalog : Catalog} {t block : Text} (h : readBlock catalog t = .ok block) :
    readBlock catalog (blockNamespace ++ block).trim = .ok block := by
  obtain ⟨hblock, hblank, -⟩ := readBlock_eq_ok h
  have hend : block.EndsPlain := hblock ▸ endsPlain_normalBlock t
  have hsame : normalBlock (blockNamespace ++ block).trim = normalBlock t := by
    rw [normalBlock_reference hend hblank, hblock]
  rw [← h]
  unfold readBlock
  rw [hsame]

theorem takes_askField {label message : Text} {reader : Reader Text} {v : Text} (h : reader v.trim = .ok v) :
    (askField label message reader).Takes [v] v :=
  takes_bind (takes_askRequired h) (takes_echo label v v)

theorem takes_askBlock {catalog : Catalog} {message block : Text}
    (h : readBlock catalog (blockNamespace ++ block).trim = .ok block) :
    (askBlock catalog message).Takes [blockNamespace ++ block] (blockNamespace ++ block) := by
  have hnotice : (noticeIfUnavailable catalog).Takes [] () := by
    unfold noticeIfUnavailable
    split
    · rename_i reason _
      exact takes_tell (m := .notice (unavailableNotice reason)) nofun
    · exact takes_done ()
  exact takes_bind hnotice (takes_bind (takes_askRequired h) (takes_echo _ _ _))

/-- **The fields of a draft compose it**, each taken the first time it is given. -/
theorem takes_compose {catalog : Catalog} {kind : Kind} (hkind : kind ≠ .give) {l : List Exchange} {d : Draft}
    (h : (compose catalog kind).Talk l (.ok d)) : (compose catalog kind).Takes d.answers d := by
  cases kind with
  | give => exact absurd rfl hkind
  | teleport =>
    obtain ⟨destination, raw, hread, rfl⟩ := talk_compose_teleport h
    exact takes_bind (takes_askField (readDestination_again hread)) (takes_done _)
  | setblock =>
    obtain ⟨position, -, raw, block, hread, rfl, -⟩ := talk_compose_setblock h
    exact takes_bind (takes_askField (readPosition_again _ position))
      (takes_bind (takes_askBlock (readBlock_again hread)) (takes_done _))
  | fill =>
    obtain ⟨start, finish, -, raw, block, hread, rfl, -⟩ := talk_compose_fill h
    exact takes_bind (takes_askField (readPosition_again _ start))
      (takes_bind (takes_askField (readPosition_again _ finish))
        (takes_bind (takes_askBlock (readBlock_again hread)) (takes_done _)))
  | say =>
    obtain ⟨message, htrim, hblank, rfl⟩ := talk_compose_say h
    exact takes_bind (takes_askField (readIf_again htrim hblank)) (takes_done _)
  | execute =>
    obtain ⟨target, command, htrim, hblank, htrim', hblank', rfl⟩ := talk_compose_execute h
    exact takes_bind (takes_askField (readIf_again htrim hblank))
      (takes_bind (takes_askField (readIf_again htrim' hblank')) (takes_done _))

theorem takes_selectKind (kind : Kind) : selectKind.Takes [kind.name] kind := by
  have hoffered : Script.offered kindMenu kind.name = true := by cases kind <;> rfl
  have hread : Kind.read kind.name = .ok kind := by cases kind <;> rfl
  refine takes_bind (takes_ask hoffered) ?_
  rw [hread]
  exact takes_bind (takes_done kind) (takes_echo _ _ kind)

/-- **The fields of a command give the command.**  Of a session that gives one, other than a gift, whoever the partner
is: the name of its kind and the fields of its draft, given to a new session with a script, give the same command, use
up all these answers, and none of them is refused. -/
theorem replay_same_command {σ : Type} (p : Partner σ) (catalog : Catalog) (s : σ) (cmd : Text)
    (hrun : ((command catalog).run p s).1 = .ok cmd) :
    ∃ kind d t, selectKind.run p s = (.ok kind, t) ∧ ((compose catalog kind).run p t).1 = .ok d ∧
      d.serialize = .ok cmd ∧
      (kind ≠ .give →
        ∃ left,
          composeWith (Script.partner .checked) catalog (Script.start (kind.name :: d.answers)) = (.ok cmd, left) ∧
            left.answers = [] ∧ left.messages .error = []) := by
  obtain ⟨kind, t, hkind, hrest⟩ := run_bind_ok hrun
  obtain ⟨d, u, hd, hcmd⟩ := run_bind_ok hrest
  have hcompose := (compose catalog kind).talk_transcript p t
  rw [hd] at hcompose
  have hserialize : d.serialize = .ok cmd := by
    cases hs : d.serialize with
    | ok text => rw [hs] at hcmd; exact hcmd
    | error e => rw [hs] at hcmd; cases hcmd
  refine ⟨kind, d, t, hkind, congrArg Prod.fst hd, hserialize, fun hgive => ?_⟩
  have hdone : (ofExcept d.serialize).Takes [] cmd := by
    rw [hserialize]
    exact takes_done cmd
  have htakes : (command catalog).Takes ([kind.name] ++ (d.answers ++ [])) cmd :=
    takes_bind (takes_selectKind kind) (takes_bind (takes_compose hgive hcompose) hdone)
  obtain ⟨l, htalk, hsmooth, hreplies⟩ := htakes
  have hreplay := composeWith_of_talk [] htalk (fun x hx => (hsmooth x hx).fair)
  rw [hreplies, List.append_nil, List.append_nil] at hreplay
  exact ⟨_, hreplay, rfl, Script.no_errors_of_smooth hsmooth [] false⟩

/-- A position out of its normal form, after one that is refused, and a block with the namespace given twice. -/
theorem replay_same_command_named_twice :
    ((command (.ofNames ["stone"])).run (Script.partner .unchecked)
      (Script.start ["setblock", "here", " 0\t64  ~-1 ", "minecraft:minecraft:stone "])).1 =
        .ok "/setblock 0 64 ~-1 minecraft:minecraft:stone" ∧
    ∃ left, composeWith (Script.partner .checked) (.ofNames ["stone"])
        (Script.start ["setblock", "0 64 ~-1", "minecraft:minecraft:stone"]) =
          (.ok "/setblock 0 64 ~-1 minecraft:minecraft:stone", left) ∧
      left.answers = [] ∧ left.messages .error = [] := by
  have hrun : ((command (.ofNames ["stone"])).run (Script.partner .unchecked)
      (Script.start ["setblock", "here", " 0\t64  ~-1 ", "minecraft:minecraft:stone "])).1 =
        .ok "/setblock 0 64 ~-1 minecraft:minecraft:stone" := rfl
  obtain ⟨kind, d, t, hkind, hd, -, hreplay⟩ := replay_same_command _ _ _ _ hrun
  cases hkind
  cases hd
  exact ⟨hrun, hreplay nofun⟩

end Session
end CommandComposer
