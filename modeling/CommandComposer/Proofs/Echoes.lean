import Mathlib.Data.List.Nodup
import CommandComposer.Dialogue.Script
import CommandComposer.Proofs.Composing
import CommandComposer.Proofs.Utterances
/-!
# Echoes — the command read back from the messages

Each field of a command is echoed once, under its label, and so are the refinements of a target and of an item, if they
were asked for.  What else is echoed is said under other labels, and no label has a colon in it, so what a message shows
under a label is the value that was echoed under it, whatever the value looks like (`shownUnder_infos`).  The messages
of a successful session therefore tell its command: its kind's template, with the values that they show
(`Session.command_shown`).
-/
namespace CommandComposer

theorem Text.prefix_join (separator part : Text) : ∀ parts : List Text, part <+: join separator (part :: parts)
  | [] => ⟨[], by rw [join, List.intercalate_singleton, List.append_nil]⟩
  | _ :: _ => ⟨_, by rw [join, List.intercalate_cons_cons, List.append_assoc]⟩

/-- **Clauses are never written as no clauses are**: there is an equals sign in them. -/
theorem ClauseSet.text_ne_none {set : ClauseSet} (h : set.isEmpty = false) : set.text ≠ "(none)" := by
  obtain ⟨_ | ⟨c, cs⟩, hdistinct⟩ := set
  · cases h
  · obtain ⟨rest, hrest⟩ := Text.prefix_join "," c.text (cs.map Clause.text)
    have hmem : '=' ∈ (⟨c :: cs, hdistinct⟩ : ClauseSet).text := by
      rw [text, List.map_cons, ← hrest]
      simp [Clause.text]
    exact fun heq => absurd (heq ▸ hmem) (by decide)

/-- The text of an exchange that is an info message. -/
def Exchange.info? : Exchange → Option Text
  | .heard remark => if remark.asMessage.1 = .info then some remark.asMessage.2 else none
  | .asked _ _ => none

/-- **The info messages of a talk.** -/
def infos (l : List Exchange) : List Text := l.filterMap Exchange.info?

/-- **What messages show under a label.** -/
def shownUnder (messages : List Text) (label : Text) : List Text :=
  messages.filterMap (fun message => (label ++ ": ").isPrefixOf? message)

/-- **A field of a command**: the key of its value in the template, the label under which it is echoed, and the label
under which its refinements are, if it can have some. -/
structure Field where
  key : Text
  label : Text
  refinement : Option Text
deriving DecidableEq, Repr

/-- The label under which the kind is echoed. -/
def Kind.label : Text := "Generate target"

def Kind.fields : Kind → List Field
  | .give => [⟨"selector", "Target", some "All selectors"⟩, ⟨"item", "Item name", some "All components"⟩,
      ⟨"amount", "Item amount", none⟩]
  | .teleport => [⟨"destination", "Destination", none⟩]
  | .setblock => [⟨"position", "Position", none⟩, ⟨"block", "Block", none⟩]
  | .fill => [⟨"from", "From position", none⟩, ⟨"to", "To position", none⟩, ⟨"block", "Block", none⟩]
  | .say => [⟨"message", "Message", none⟩]
  | .execute => [⟨"target", "Target", none⟩, ⟨"command", "Command", none⟩]

/-- Refinements in brackets, if there are any. -/
def bracketed : Option Text → Text
  | some summary => if summary = "(none)" then [] else "[" ++ summary ++ "]"
  | none => []

section Shown

variable (shown : Text → List Text)

/-- **The value of a field as it is shown**, with its refinements. -/
def Field.value? (field : Field) : Option Text :=
  match field.refinement with
  | none => (shown field.label).head?
  | some label => (shown field.label).head?.map (· ++ bracketed (shown label).head?)

def Kind.valuesShown (kind : Kind) : Values :=
  kind.fields.filterMap (fun field => (field.value? shown).map (field.key, ·))

/-- **The command that is shown**: the template of the kind that is shown, with the values that are. -/
def commandShown : Option Text := do
  let name ← (shown Kind.label).head?
  let kind ← (Kind.read name).toOption
  (kind.template.render (kind.valuesShown shown)).toOption

/-- **Every field is shown once**, and its refinements at most once. -/
structure Kind.ShownOnce (kind : Kind) : Prop where
  kind_shown : shown Kind.label = [kind.name]
  field_shown : ∀ field ∈ kind.fields, (shown field.label).length = 1
  refinement_shown : ∀ field ∈ kind.fields, ∀ label ∈ field.refinement, (shown label).length ≤ 1

end Shown

namespace Kind

/-- The labels under which the fields of a command are echoed, in order. -/
def labels (kind : Kind) : List Text := kind.fields.flatMap (fun field => field.label :: field.refinement.toList)

variable {kind : Kind} {field : Field} (h : field ∈ kind.fields)

include h

theorem label_mem_labels : field.label ∈ kind.labels := List.mem_flatMap.2 ⟨field, h, List.mem_cons_self⟩

theorem refinement_mem_labels {label : Text} (hlabel : label ∈ field.refinement) : label ∈ kind.labels :=
  List.mem_flatMap.2 ⟨field, h, List.mem_cons_of_mem _ (Option.mem_toList.2 hlabel)⟩

omit h

theorem nodup_labels (kind : Kind) : (label :: kind.labels).Nodup := by
  cases kind <;> decide

end Kind

namespace Session

/-- The labels that a command is read back from. -/
def fieldLabels : List Text := Kind.label :: Kind.all.flatMap Kind.labels

theorem mem_fieldLabels {kind : Kind} {label : Text} (h : label ∈ kind.labels) : label ∈ fieldLabels :=
  List.mem_cons_of_mem _ (List.mem_flatMap.2 ⟨kind, kind.mem_all, h⟩)

theorem fieldLabels_subset : fieldLabels ⊆ labels := by
  decide

theorem colon_not_mem_labels : ∀ label ∈ labels, ':' ∉ label := by
  decide

end Session

section Agree

variable {shown shown' : Text → List Text} (h : ∀ label ∈ Session.fieldLabels, shown label = shown' label)

include h

theorem Kind.valuesShown_congr (kind : Kind) : kind.valuesShown shown = kind.valuesShown shown' := by
  refine List.filterMap_congr (fun field hfield => ?_)
  unfold Field.value?
  rw [h _ (Session.mem_fieldLabels (Kind.label_mem_labels hfield))]
  split
  · rfl
  · rename_i label hlabel
    rw [h label (Session.mem_fieldLabels (Kind.refinement_mem_labels hfield hlabel))]

theorem commandShown_congr : commandShown shown = commandShown shown' := by
  simp only [commandShown, h _ List.mem_cons_self, Kind.valuesShown_congr h]

theorem Kind.ShownOnce.congr {kind : Kind} (hshown : kind.ShownOnce shown') : kind.ShownOnce shown where
  kind_shown := (h _ List.mem_cons_self).trans hshown.kind_shown
  field_shown field hfield := by
    rw [h _ (Session.mem_fieldLabels (Kind.label_mem_labels hfield))]
    exact hshown.field_shown field hfield
  refinement_shown field hfield label hlabel := by
    rw [h _ (Session.mem_fieldLabels (Kind.refinement_mem_labels hfield hlabel))]
    exact hshown.refinement_shown field hfield label hlabel

end Agree

/-- The value of an echo under the label of a field, with its label. -/
def Exchange.fieldEcho? : Exchange → Option (Text × Text)
  | .heard (.echo label value) => if Session.fieldLabels.contains label then some (label, value) else none
  | _ => none

/-- **What is echoed for the fields of a command**, in order. -/
def fieldEchoes (l : List Exchange) : List (Text × Text) := l.filterMap Exchange.fieldEcho?

def valuesUnder (echoes : List (Text × Text)) (label : Text) : List Text :=
  echoes.filterMap (fun e => if e.1 = label then some e.2 else none)

/-- **A message shows its value under its own label only**, by recursion on the two labels. -/
theorem isPrefixOf?_echo (value : Text) : ∀ {label label' : Text}, ':' ∉ label → ':' ∉ label' →
    (label ++ ": ").isPrefixOf? (label' ++ ": " ++ value) = if label' = label then some value else none
  | [], [], _, _ => by simp [List.isPrefixOf?]
  | [], c :: label', _, h' => by
    have hc : ':' ≠ c := fun heq => h' (heq ▸ List.mem_cons_self)
    simp [List.isPrefixOf?, hc]
  | c :: label, [], h, _ => by
    have hc : c ≠ ':' := fun heq => h (heq ▸ List.mem_cons_self)
    simp [List.isPrefixOf?, hc]
  | c :: label, c' :: label', h, h' => by
    have ih := isPrefixOf?_echo value (mt (List.mem_cons_of_mem c) h) (mt (List.mem_cons_of_mem c') h')
    simp only [List.cons_append, List.isPrefixOf?, ih]
    by_cases hc : c = c'
    · simp [hc]
    · simp [hc, Ne.symm hc]

theorem valuesUnder_cons_self (label value : Text) (echoes : List (Text × Text)) :
    valuesUnder ((label, value) :: echoes) label = value :: valuesUnder echoes label := by
  simp [valuesUnder]

theorem length_valuesUnder (label : Text) : ∀ echoes : List (Text × Text),
    (valuesUnder echoes label).length = (echoes.map Prod.fst).count label
  | [] => rfl
  | (label', value) :: echoes => by
    have ih := length_valuesUnder label echoes
    rw [valuesUnder] at ih ⊢
    by_cases heq : label' = label
    · simp [heq, ih]
    · simp [heq, ih]

/-- **Echoes that are for the fields of a command**, each of them in its turn, show them once. -/
theorem Kind.ShownOnce.of_echoes {kind : Kind} {echoes : List (Text × Text)}
    (hall : (kind.fields.map Field.label).Sublist (echoes.map Prod.fst))
    (honly : (echoes.map Prod.fst).Sublist kind.labels) :
    kind.ShownOnce (valuesUnder ((Kind.label, kind.name) :: echoes)) := by
  have hnodup : (((Kind.label, kind.name) :: echoes).map Prod.fst).Nodup :=
    kind.nodup_labels.sublist (honly.cons_cons _)
  have hlength : ∀ label, (valuesUnder ((Kind.label, kind.name) :: echoes) label).length ≤ 1 := fun label => by
    rw [length_valuesUnder]
    exact List.nodup_iff_count_le_one.1 hnodup label
  refine ⟨?_, fun field hfield => ?_, fun field hfield label hlabel => hlength label⟩
  · have hrest := hlength Kind.label
    rw [valuesUnder_cons_self, List.length_cons] at hrest
    rw [valuesUnder_cons_self, List.eq_nil_of_length_eq_zero (Nat.le_zero.1 (Nat.le_of_succ_le_succ hrest))]
  · rw [length_valuesUnder]
    exact List.count_eq_one_of_mem hnodup
      (List.mem_cons_of_mem _ (hall.subset (List.mem_map_of_mem hfield)))

theorem fieldEchoes_append (l l' : List Exchange) : fieldEchoes (l ++ l') = fieldEchoes l ++ fieldEchoes l' :=
  List.filterMap_append

section Said

variable {labels : List Text} {reason? : Option Text} {l : List Exchange}

/-- **What the messages of a session show for a field** is what was echoed for it. -/
theorem shownUnder_infos (h : ∀ x ∈ l, Utterance Session.labels reason? x) :
    ∀ label ∈ Session.fieldLabels, shownUnder (infos l) label = valuesUnder (fieldEchoes l) label := by
  intro label hlabel
  rw [shownUnder, infos, valuesUnder, fieldEchoes, List.filterMap_filterMap, List.filterMap_filterMap]
  refine List.filterMap_congr (fun x hx => ?_)
  cases h x hx with
  | echo label' value hlabel' =>
    have hcolon := Session.colon_not_mem_labels label (Session.fieldLabels_subset hlabel)
    have hmessage : (Exchange.heard (.echo label' value)).info? = some (label' ++ ": " ++ value) := rfl
    rw [hmessage, Option.bind_some, isPrefixOf?_echo value hcolon (Session.colon_not_mem_labels label' hlabel'),
      Exchange.fieldEcho?]
    split
    · rename_i heq
      rw [if_pos (List.contains_iff_mem.2 (heq ▸ hlabel)), Option.bind_some, if_pos heq]
    · rename_i hne
      split
      · rw [Option.bind_some, if_neg hne]
      · rfl
  | _ => rfl

theorem fieldEchoes_of_other (h : ∀ x ∈ l, Utterance labels reason? x)
    (hother : ∀ label ∈ labels, label ∉ Session.fieldLabels) : fieldEchoes l = [] := by
  refine List.filterMap_eq_nil_iff.2 (fun x hx => ?_)
  cases h x hx with
  | echo label value hlabel => exact if_neg (mt List.contains_iff_mem.1 (hother label hlabel))
  | _ => rfl

theorem fieldEchoes_echo {label : Text} (h : label ∈ Session.fieldLabels) (value : Text) :
    fieldEchoes [.heard (.echo label value)] = [(label, value)] := by
  rw [fieldEchoes, List.filterMap_cons, Exchange.fieldEcho?, if_pos (List.contains_iff_mem.2 h)]
  rfl

end Said

namespace Session

open Dialogue

theorem fieldEchoes_askRequired {α : Type} {message : Text} {reader : Reader α} {l : List Exchange}
    {r : Except Error α} (h : (askRequired message reader).Talk l r) : fieldEchoes l = [] := by
  have hsaid : ∀ x ∈ l, Utterance [] none x := Utterance.says_askRequired message reader l r h
  exact fieldEchoes_of_other hsaid nofun

theorem fieldEchoes_askField {label message : Text} {reader : Reader Text} {l : List Exchange} {v : Text}
    (hlabel : label ∈ fieldLabels) (h : (askField label message reader).Talk l (.ok v)) :
    fieldEchoes l = [(label, v)] := by
  obtain ⟨_, l₁, l₂, h₁, h₂, rfl⟩ := (talk_bind_ok _ _ _ _).1 h
  obtain ⟨rfl, heq⟩ := (talk_tell_done _ _ _ _).1 h₂
  cases heq
  rw [fieldEchoes_append, fieldEchoes_askRequired h₁, fieldEchoes_echo hlabel, List.nil_append]

theorem fieldEchoes_askBlock {catalog : Catalog} {message : Text} {l : List Exchange} {reference : Text}
    (h : (askBlock catalog message).Talk l (.ok reference)) : fieldEchoes l = [(("Block" : Text), reference)] := by
  obtain ⟨_, l₀, l₃, h₀, h₃, rfl⟩ := (talk_bind_ok _ _ _ _).1 h
  obtain ⟨block, l₁, l₂, h₁, h₂, rfl⟩ := (talk_bind_ok _ _ _ _).1 h₃
  obtain ⟨rfl, heq⟩ := (talk_tell_done _ _ _ _).1 h₂
  cases heq
  have hnotice : ∀ x ∈ l₀, Utterance [] catalog.reason? x := Utterance.says_noticeIfUnavailable catalog l₀ _ h₀
  rw [fieldEchoes_append, fieldEchoes_of_other hnotice nofun, fieldEchoes_append, fieldEchoes_askRequired h₁,
    fieldEchoes_echo (by decide), List.nil_append, List.nil_append]

theorem fieldEchoes_pick {α : Type} {label message : Text} {choices : List Choice} {read : Text → Except Error α}
    {text : α → Text} {l : List Exchange} {a : α} (hlabel : label ∈ fieldLabels)
    (h : (do
      let picked ← ask (.menu message choices)
      let a ← ofExcept (read picked)
      tell (.echo label (text a))
      return a : Dialogue α).Talk l (.ok a)) : fieldEchoes l = [(label, text a)] := by
  obtain ⟨picked, l₁, h₁, rfl⟩ := (talk_ask_bind_ok _ _ _ _).1 h
  obtain ⟨_, l₂, l₃, h₂, h₃, rfl⟩ := (talk_bind_ok _ _ _ _).1 h₁
  obtain ⟨rfl, -⟩ := (talk_ofExcept _ _ _).1 h₂
  obtain ⟨rfl, heq⟩ := (talk_tell_done _ _ _ _).1 h₃
  cases heq
  exact fieldEchoes_echo hlabel _

/-- What is echoed when refinements have been collected, if they were. -/
def refinementEchoes (schema : Schema) (clauses : Option ClauseSet) : List (Text × Text) :=
  clauses.toList.map (fun set => (schema.closingLabel, Schema.summary set))

/-- **Refinements are echoed** when they have been collected; what a round echoes is for no field. -/
theorem fieldEchoes_askClauses {message : Text} {schema : Schema} {l : List Exchange} {clauses : Option ClauseSet}
    (hclosing : schema.closingLabel ∈ fieldLabels) (hround : ∀ label ∈ schema.roundLabels, label ∉ fieldLabels)
    (h : (askClauses message schema).Talk l (.ok clauses)) : fieldEchoes l = refinementEchoes schema clauses := by
  obtain ⟨wanted, l₁, l₂, h₁, h₂, rfl⟩ := (talk_bind_ok _ _ _ _).1 h
  rw [fieldEchoes_append, fieldEchoes_askRequired h₁, List.nil_append]
  cases wanted with
  | false =>
    obtain ⟨rfl, heq⟩ := h₂
    cases heq
    rfl
  | true =>
    obtain ⟨_, l₃, _, h₃, ⟨rfl, heq⟩, rfl⟩ := (talk_bind_ok _ _ _ _).1 h₂
    cases heq
    obtain ⟨set, l₄, l₅, h₄, h₅, rfl⟩ := (talk_bind_ok _ _ _ _).1 h₃
    obtain ⟨rfl, heq⟩ := (talk_tell_done _ _ _ _).1 h₅
    cases heq
    have hsaid : ∀ x ∈ l₄, Utterance schema.roundLabels none x := Utterance.says_rounds_of_builder schema _ l₄ _ h₄
    rw [List.append_nil, fieldEchoes_append, fieldEchoes_of_other hsaid hround, List.nil_append]
    exact fieldEchoes_echo hclosing _

/-- **What is refined** is what stands in front of its refinements, as they are echoed. -/
theorem refined_eq (schema : Schema) (clauses : Option ClauseSet) (base : Text) :
    Draft.refined clauses base = base ++ bracketed ((refinementEchoes schema clauses).map Prod.snd).head? := by
  rcases clauses with _ | set
  · exact (List.append_nil base).symm
  · cases hempty : set.isEmpty with
    | true =>
      have hsummary : Schema.summary set = "(none)" := if_pos hempty
      calc Draft.refined (some set) base = base := set.attachTo_of_isEmpty hempty base
        _ = base ++ bracketed (some (Schema.summary set)) := by rw [hsummary, bracketed, if_pos rfl, List.append_nil]
    | false =>
      have hsummary : Schema.summary set = set.text := if_neg (by simp [hempty])
      calc Draft.refined (some set) base = base ++ "[" ++ set.text ++ "]" := set.attachTo_of_not_isEmpty hempty base
        _ = base ++ ("[" ++ set.text ++ "]") := by rw [List.append_assoc, List.append_assoc, List.append_assoc]
        _ = base ++ bracketed (some (Schema.summary set)) := by
          rw [hsummary, bracketed, if_neg (ClauseSet.text_ne_none hempty)]

theorem labels_of_refinementEchoes (schema : Schema) (clauses : Option ClauseSet) :
    ((refinementEchoes schema clauses).map Prod.fst).Sublist [schema.closingLabel] := by
  cases clauses with
  | none => exact List.nil_sublist _
  | some set => exact List.Sublist.refl _

/-- What is echoed for the fields of a gift. -/
def giftEchoes (target : Target) (clauses : Option ClauseSet) (item : Text) (components : Option ClauseSet)
    (amount : Text) : List (Text × Text) :=
  [(("Target" : Text), target.token)] ++ (refinementEchoes Schema.selectors clauses ++
    ([(("Item name" : Text), item)] ++ (refinementEchoes Schema.components components ++
      [(("Item amount" : Text), amount)])))

theorem fieldEchoes_composeGive {l : List Exchange} {d : Draft} (h : composeGive.Talk l (.ok d)) :
    ∃ target clauses item components amount, fieldEchoes l = giftEchoes target clauses item components amount ∧
      d = (({ Draft.new .give with target := some target, clauses := clauses, components := components } :
        Draft).setField "item" item).setField "amount" amount := by
  obtain ⟨target, l₁, _, htarget, h₂, rfl⟩ := (talk_bind_ok _ _ _ _).1 h
  obtain ⟨clauses, l₂, _, hclauses, h₃, rfl⟩ := (talk_bind_ok _ _ _ _).1 h₂
  obtain ⟨item, l₃, _, hitem, h₄, rfl⟩ := (talk_bind_ok _ _ _ _).1 h₃
  obtain ⟨components, l₄, _, hcomponents, h₅, rfl⟩ := (talk_bind_ok _ _ _ _).1 h₄
  obtain ⟨amount, l₅, _, hamount, ⟨rfl, hd⟩, rfl⟩ := (talk_bind_ok _ _ _ _).1 h₅
  cases hd
  refine ⟨target, clauses, item, components, amount, ?_, rfl⟩
  rw [List.append_nil, fieldEchoes_append, fieldEchoes_append, fieldEchoes_append, fieldEchoes_append,
    fieldEchoes_pick (by decide) htarget, fieldEchoes_askClauses (by decide) (by decide) hclauses,
    fieldEchoes_askField (by decide) hitem, fieldEchoes_askClauses (by decide) (by decide) hcomponents,
    fieldEchoes_askField (by decide) hamount]
  rfl

section Gift

variable (target : Target) (clauses : Option ClauseSet) (item : Text) (components : Option ClauseSet) (amount : Text)

theorem shownOnce_gift :
    Kind.give.ShownOnce (valuesUnder ((Kind.label, Kind.give.name) ::
      giftEchoes target clauses item components amount)) := by
  refine .of_echoes ?_ ?_
  · simp only [giftEchoes, List.map_append]
    show ([("Target" : Text)] ++ ([] ++ ([("Item name" : Text)] ++ ([] ++ [("Item amount" : Text)])))).Sublist _
    exact (List.Sublist.refl _).append ((List.nil_sublist _).append
      ((List.Sublist.refl _).append ((List.nil_sublist _).append (List.Sublist.refl _))))
  · simp only [giftEchoes, List.map_append]
    exact (List.Sublist.refl _).append ((labels_of_refinementEchoes _ clauses).append
      ((List.Sublist.refl _).append ((labels_of_refinementEchoes _ components).append (List.Sublist.refl _))))

theorem commandShown_gift :
    commandShown (valuesUnder ((Kind.label, Kind.give.name) :: giftEchoes target clauses item components amount)) =
      some ("/give " ++ Draft.refined clauses target.token ++ " " ++ Draft.refined components item ++ " " ++
        amount) := by
  have h : commandShown (valuesUnder ((Kind.label, Kind.give.name) ::
      giftEchoes target clauses item components amount)) =
        some (List.flatten [("/give " : Text),
          target.token ++ bracketed ((refinementEchoes Schema.selectors clauses).map Prod.snd).head?, " ",
          item ++ bracketed ((refinementEchoes Schema.components components).map Prod.snd).head?, " ", amount]) := by
    cases clauses <;> cases components <;> rfl
  rw [h, ← refined_eq, ← refined_eq]
  simp only [List.flatten_cons, List.flatten_nil, List.append_assoc, List.append_nil]

end Gift

/-- **What is echoed for the fields of a command** shows each of them once, and the command that is composed. -/
theorem shown_of_talk_compose {catalog : Catalog} {kind : Kind} {l : List Exchange} {d : Draft}
    (h : (compose catalog kind).Talk l (.ok d)) :
    kind.ShownOnce (valuesUnder ((Kind.label, kind.name) :: fieldEchoes l)) ∧
      commandShown (valuesUnder ((Kind.label, kind.name) :: fieldEchoes l)) = d.serialize.toOption := by
  cases kind with
  | give =>
    obtain ⟨target, clauses, item, components, amount, hl, rfl⟩ := fieldEchoes_composeGive h
    rw [hl, Draft.serialize_give, commandShown_gift]
    exact ⟨shownOnce_gift target clauses item components amount, rfl⟩
  | teleport =>
    obtain ⟨destination, l₁, _, hdestination, ⟨rfl, hd⟩, rfl⟩ := (talk_bind_ok _ _ _ _).1 h
    cases hd
    rw [List.append_nil, fieldEchoes_askField (by decide) hdestination]
    exact ⟨.of_echoes (List.Sublist.refl _) (List.Sublist.refl _), rfl⟩
  | setblock =>
    obtain ⟨position, l₁, _, hposition, h₂, rfl⟩ := (talk_bind_ok _ _ _ _).1 h
    obtain ⟨block, l₂, _, hblock, ⟨rfl, hd⟩, rfl⟩ := (talk_bind_ok _ _ _ _).1 h₂
    cases hd
    rw [List.append_nil, fieldEchoes_append, fieldEchoes_askField (by decide) hposition, fieldEchoes_askBlock hblock]
    exact ⟨.of_echoes (List.Sublist.refl _) (List.Sublist.refl _), rfl⟩
  | fill =>
    obtain ⟨start, l₁, _, hstart, h₂, rfl⟩ := (talk_bind_ok _ _ _ _).1 h
    obtain ⟨finish, l₂, _, hfinish, h₃, rfl⟩ := (talk_bind_ok _ _ _ _).1 h₂
    obtain ⟨block, l₃, _, hblock, ⟨rfl, hd⟩, rfl⟩ := (talk_bind_ok _ _ _ _).1 h₃
    cases hd
    rw [List.append_nil, fieldEchoes_append, fieldEchoes_append, fieldEchoes_askField (by decide) hstart,
      fieldEchoes_askField (by decide) hfinish, fieldEchoes_askBlock hblock]
    exact ⟨.of_echoes (List.Sublist.refl _) (List.Sublist.refl _), rfl⟩
  | say =>
    obtain ⟨message, l₁, _, hmessage, ⟨rfl, hd⟩, rfl⟩ := (talk_bind_ok _ _ _ _).1 h
    cases hd
    rw [List.append_nil, fieldEchoes_askField (by decide) hmessage]
    exact ⟨.of_echoes (List.Sublist.refl _) (List.Sublist.refl _), rfl⟩
  | execute =>
    obtain ⟨target, l₁, _, htarget, h₂, rfl⟩ := (talk_bind_ok _ _ _ _).1 h
    obtain ⟨command, l₂, _, hcommand, ⟨rfl, hd⟩, rfl⟩ := (talk_bind_ok _ _ _ _).1 h₂
    cases hd
    rw [List.append_nil, fieldEchoes_append, fieldEchoes_askField (by decide) htarget,
      fieldEchoes_askField (by decide) hcommand]
    exact ⟨.of_echoes (List.Sublist.refl _) (List.Sublist.refl _), rfl⟩

/-- **What was echoed is what is generated.**  The info messages of a successful session show its kind once, each of the
kind's fields once and their refinements at most once; and its command is the template of the kind that they show, with
the values that they show for its fields. -/
theorem command_shown {σ : Type} (p : Partner σ) (catalog : Catalog) (s : σ) (cmd : Text)
    (hrun : ((command catalog).run p s).1 = .ok cmd) :
    (∃ kind : Kind, kind.ShownOnce (shownUnder (infos ((command catalog).transcript p s)))) ∧
      commandShown (shownUnder (infos ((command catalog).transcript p s))) = some cmd := by
  have htalk := talk_transcript p (command catalog) s
  rw [hrun] at htalk
  have hagree := shownUnder_infos (Utterance.says_command catalog _ _ htalk)
  obtain ⟨kind, d, l, hcompose, hserialize, hl⟩ := talk_command htalk
  have hechoes : fieldEchoes ((command catalog).transcript p s) = (Kind.label, kind.name) :: fieldEchoes l := by
    rw [hl]
    rfl
  obtain ⟨honce, hcommand⟩ := shown_of_talk_compose hcompose
  rw [← hechoes] at honce hcommand
  refine ⟨⟨kind, honce.congr hagree⟩, ?_⟩
  rw [commandShown_congr hagree, hcommand, hserialize]
  rfl

/-- A gift whose target is refined and whose item is not, although that is asked for. -/
theorem command_shown_gift :
    ((command (.unavailable "none")).run (Script.partner .unchecked)
      (Script.start ["give", "@p", "y", "tag", "foo", "OK", " diamond ", "y", "OK", "007"])).1 =
        .ok "/give @p[tag=foo] diamond 7" ∧
    commandShown (shownUnder (infos ((command (.unavailable "none")).transcript (Script.partner .unchecked)
      (Script.start ["give", "@p", "y", "tag", "foo", "OK", " diamond ", "y", "OK", "007"])))) =
        some "/give @p[tag=foo] diamond 7" := by
  have hrun : ((command (.unavailable "none")).run (Script.partner .unchecked)
      (Script.start ["give", "@p", "y", "tag", "foo", "OK", " diamond ", "y", "OK", "007"])).1 =
        .ok "/give @p[tag=foo] diamond 7" := rfl
  obtain ⟨-, hcommand⟩ := command_shown (Script.partner .unchecked) (.unavailable "none") _ _ hrun
  exact ⟨hrun, hcommand⟩

end Session
end CommandComposer
