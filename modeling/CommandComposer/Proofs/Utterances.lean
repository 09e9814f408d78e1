import CommandComposer.Proofs.Building
import CommandComposer.Session
/-!
# Utterances — all that is said in a session

A session asks for lines and offers menus that are never empty; it says why it refuses an answer and that a key is
cancelled, echoes values under its labels, and gives the notice that blocks are not checked (`Utterance`).  A dialogue
says no more than its parts do, so this is so in every talk, whoever the partner is (`Utterance.says_command`).
-/
namespace CommandComposer

/-- The labels under which a builder echoes values before it ends. -/
def Schema.roundLabels (schema : Schema) : List Text :=
  ("Additional " ++ schema.noun) :: "Enchantment" :: schema.keyNames

/-- The label under which a builder echoes its clauses. -/
def Schema.closingLabel (schema : Schema) : Text := "All " ++ schema.noun ++ "s"

/-- The labels under which a session echoes values. -/
def Session.labels : List Text :=
  (["Generate target", "Target", "Item name", "Item amount", "Destination", "Position", "From position", "To position",
    "Block", "Message", "Command"] : List Text) ++
    (Schema.selectors.closingLabel :: Schema.selectors.roundLabels ++
      Schema.components.closingLabel :: Schema.components.roundLabels)

/-- **What may be said**, where values are echoed under some labels and a notice has a reason, if there is one. -/
inductive Utterance (labels : List Text) (reason? : Option Text) : Exchange → Prop where
  | line (text : Text) (reply : Except Error Text) : Utterance labels reason? (.asked (.line text) reply)
  | menu (message : Text) (choices : List Choice) (reply : Except Error Text) (hne : choices ≠ []) :
      Utterance labels reason? (.asked (.menu message choices) reply)
  | refusal (reason : Text) : Utterance labels reason? (.heard (.message .error reason))
  | cancelled (schema : Schema) : Utterance labels reason? (.heard schema.cancelRemark)
  | echo (label value : Text) (hlabel : label ∈ labels) : Utterance labels reason? (.heard (.echo label value))
  | notice (reason : Text) (hreason : reason? = some reason) :
      Utterance labels reason? (.heard (.notice (Session.unavailableNotice reason)))

/-- An exchange that is not a menu without entries. -/
def Exchange.Offers : Exchange → Prop
  | .asked (.menu _ choices) _ => choices ≠ []
  | _ => True

namespace Utterance

open Dialogue

variable {labels : List Text} {reason? : Option Text} {α : Type}

theorem offers {x : Exchange} (h : Utterance labels reason? x) : x.Offers := by
  cases h with
  | menu message choices reply hne => exact hne
  | _ => trivial

theorem mono {x : Exchange} (h : Utterance labels none x) {labels' : List Text} (hlabels : labels ⊆ labels') :
    Utterance labels' reason? x := by
  cases h with
  | line text reply => exact .line text reply
  | menu message choices reply hne => exact .menu message choices reply hne
  | refusal reason => exact .refusal reason
  | cancelled schema => exact .cancelled schema
  | echo label value hlabel => exact .echo label value (hlabels hlabel)
  | notice reason hreason => cases hreason

theorem says_mono {d : Dialogue α} (h : d.Says (Utterance labels none)) {labels' : List Text}
    (hlabels : labels ⊆ labels') : d.Says (Utterance labels' reason?) :=
  fun l r htalk x hx => (h l r htalk x hx).mono hlabels

theorem says_ofExcept (x : Except Error α) : (ofExcept x).Says (Utterance labels reason?) := by
  cases x with
  | ok a => exact says_done a
  | error e => exact says_fail e

theorem says_refuse {β γ : Type} (state : β) (reason : Text) :
    (refuse state reason : Dialogue (Turn β γ)).Says (Utterance labels reason?) :=
  Dialogue.says_refuse (.refusal reason)

theorem says_askRequired (message : Text) (reader : Reader α) :
    (askRequired message reader).Says (Utterance labels reason?) :=
  Dialogue.says_askRequired (.line _) .refusal

theorem says_askEscapable (message : Text) (reader : Reader α) :
    (askEscapable message reader).Says (Utterance labels reason?) :=
  Dialogue.says_askEscapable (.line _) .refusal

theorem says_echo {label : Text} (hlabel : label ∈ labels) (value : Text) :
    (tell (.echo label value)).Says (Utterance labels reason?) := says_tell (.echo label value hlabel)

theorem says_enchantments (hlabel : ("Enchantment" : Text) ∈ labels) :
    Enchantment.collect.Says (Utterance labels reason?) := by
  refine says_rounds (fun _ => .line _) (fun collected raw => ?_)
  split
  · exact says_done _
  · split
    · refine says_bind (says_askRequired _ _) (fun level => says_bind (says_echo hlabel _) (fun _ => ?_))
      exact says_bind (says_ask (fun reply => .menu _ _ reply (List.cons_ne_nil _ _))) (fun _ => says_done _)
    · exact says_refuse _ _

/-- **Asking for a value** echoes nothing but enchantments. -/
theorem says_collect (hlabel : ("Enchantment" : Text) ∈ labels) (noun : Text) (kind : ValueKind) :
    (kind.collect noun).Says (Utterance labels reason?) := by
  cases kind with
  | choice prompt options =>
    have hne : options.map ValueKind.optionChoice ++ [Choice.described backWord ("Go back to " ++ noun ++ " selection")]
        ≠ [] := List.append_ne_nil_of_right_ne_nil _ (List.cons_ne_nil _ _)
    exact says_bind (says_ask (fun reply => .menu _ _ reply hne)) (fun _ => says_done _)
  | enchantments => exact says_enchantments hlabel
  | _ => exact says_askEscapable _ _

/-- **A builder's rounds** echo the picked keys, what is collected for them, and the keys' values. -/
theorem says_round (schema : Schema) (collected : ClauseSet) (pick : Text) :
    (schema.round collected pick).Says (Utterance schema.roundLabels reason?) := by
  have hvalue : ∀ kind : ValueKind, (kind.collect schema.noun).Says (Utterance schema.roundLabels reason?) :=
    says_collect (List.mem_cons_of_mem _ List.mem_cons_self) schema.noun
  unfold Schema.round
  split
  · exact says_done _
  · split
    · exact says_fail _
    · rename_i spec hsome
      have hkey : spec.key ∈ schema.roundLabels :=
        List.mem_cons_of_mem _ (List.mem_cons_of_mem _ (List.mem_map_of_mem (Schema.picked?_eq_some hsome).1))
      refine says_bind (says_echo List.mem_cons_self _) (fun _ => says_bind (hvalue _) (fun answer => ?_))
      cases answer with
      | value value => exact says_bind (says_echo hkey _) (fun _ => says_done _)
      | back => exact says_bind (says_tell (.cancelled schema)) (fun _ => says_done _)

theorem says_rounds_of_builder (schema : Schema) (collected : ClauseSet) :
    (rounds schema.question schema.round collected).Says (Utterance schema.roundLabels reason?) :=
  says_rounds
    (fun _ reply => .menu _ _ reply (List.append_ne_nil_of_right_ne_nil _ (List.cons_ne_nil _ _)))
    (says_round schema)

theorem says_build (schema : Schema) (hlabels : schema.closingLabel :: schema.roundLabels ⊆ labels) :
    schema.build.Says (Utterance labels reason?) := by
  refine says_bind ?_ (fun set => says_bind (says_echo (hlabels List.mem_cons_self) _) (fun _ => says_done _))
  exact says_mono (says_rounds_of_builder schema _) (fun _ h => hlabels (List.mem_cons_of_mem _ h))

theorem says_askField {label : Text} (hlabel : label ∈ labels) (message : Text) (reader : Reader Text) :
    (Session.askField label message reader).Says (Utterance labels reason?) :=
  says_bind (says_askRequired _ _) (fun _ => says_bind (says_echo hlabel _) (fun _ => says_done _))

theorem says_askClauses (message : Text) (schema : Schema)
    (hlabels : schema.closingLabel :: schema.roundLabels ⊆ labels) :
    (Session.askClauses message schema).Says (Utterance labels reason?) := by
  refine says_bind (says_askRequired _ _) (fun wanted => ?_)
  cases wanted with
  | false => exact says_done _
  | true => exact says_bind (says_build schema hlabels) (fun _ => says_done _)

theorem says_pick {label : Text} (hlabel : label ∈ labels) (message : Text) {choices : List Choice} (hne : choices ≠ [])
    (read : Text → Except Error α) (text : α → Text) :
    (do
      let picked ← ask (.menu message choices)
      let a ← ofExcept (read picked)
      tell (.echo label (text a))
      return a : Dialogue α).Says (Utterance labels reason?) :=
  says_bind (says_ask (fun reply => .menu _ _ reply hne)) (fun _ =>
    says_bind (says_ofExcept _) (fun _ => says_bind (says_echo hlabel _) (fun _ => says_done _)))

theorem says_noticeIfUnavailable (catalog : Catalog) :
    (Session.noticeIfUnavailable catalog).Says (Utterance labels catalog.reason?) := by
  unfold Session.noticeIfUnavailable
  split
  · rename_i reason hreason
    exact says_tell (.notice reason hreason)
  · exact says_done _

theorem says_askBlock (catalog : Catalog) (message : Text) (hlabel : ("Block" : Text) ∈ labels) :
    (Session.askBlock catalog message).Says (Utterance labels catalog.reason?) := by
  refine says_bind (says_noticeIfUnavailable catalog) (fun _ => says_bind (says_askRequired _ _) (fun block => ?_))
  exact says_bind (says_echo hlabel _) (fun _ => says_done _)

theorem mem_labels {i : Nat} {label : Text} (h : Session.labels[i]? = some label) : label ∈ Session.labels :=
  List.mem_of_getElem? h

theorem labels_of_selectors : Schema.selectors.closingLabel :: Schema.selectors.roundLabels ⊆ Session.labels :=
  fun _ h => List.mem_append_right _ (List.mem_append_left _ h)

theorem labels_of_components : Schema.components.closingLabel :: Schema.components.roundLabels ⊆ Session.labels :=
  fun _ h => List.mem_append_right _ (List.mem_append_right _ h)

/-- Only where a block is placed may a notice be given. -/
theorem says_compose_of_no_block (catalog : Catalog) {kind : Kind} (hsetblock : kind ≠ .setblock)
    (hfill : kind ≠ .fill) : (Session.compose catalog kind).Says (Utterance Session.labels reason?) := by
  cases kind with
  | give =>
    refine says_bind (says_pick (mem_labels (i := 1) rfl) _ (by decide) _ _) (fun target => ?_)
    refine says_bind (says_askClauses _ _ labels_of_selectors) (fun clauses => ?_)
    refine says_bind (says_askField (mem_labels (i := 2) rfl) _ _) (fun item => ?_)
    refine says_bind (says_askClauses _ _ labels_of_components) (fun components => ?_)
    exact says_bind (says_askField (mem_labels (i := 3) rfl) _ _) (fun amount => says_done _)
  | teleport => exact says_bind (says_askField (mem_labels (i := 4) rfl) _ _) (fun _ => says_done _)
  | setblock => exact absurd rfl hsetblock
  | fill => exact absurd rfl hfill
  | say => exact says_bind (says_askField (mem_labels (i := 9) rfl) _ _) (fun _ => says_done _)
  | execute =>
    refine says_bind (says_askField (mem_labels (i := 1) rfl) _ _) (fun target => ?_)
    exact says_bind (says_askField (mem_labels (i := 10) rfl) _ _) (fun command => says_done _)

theorem says_compose (catalog : Catalog) (kind : Kind) :
    (Session.compose catalog kind).Says (Utterance Session.labels catalog.reason?) := by
  cases kind with
  | setblock =>
    refine says_bind (says_askField (mem_labels (i := 5) rfl) _ _) (fun position => ?_)
    exact says_bind (says_askBlock catalog _ (mem_labels (i := 8) rfl)) (fun block => says_done _)
  | fill =>
    refine says_bind (says_askField (mem_labels (i := 6) rfl) _ _) (fun start => ?_)
    refine says_bind (says_askField (mem_labels (i := 7) rfl) _ _) (fun finish => ?_)
    exact says_bind (says_askBlock catalog _ (mem_labels (i := 8) rfl)) (fun block => says_done _)
  | _ => exact says_compose_of_no_block catalog nofun nofun

theorem says_selectKind : Session.selectKind.Says (Utterance Session.labels reason?) :=
  says_pick (mem_labels (i := 0) rfl) _ (by decide) _ _

/-- **All that is said in a session.** -/
theorem says_command (catalog : Catalog) :
    (Session.command catalog).Says (Utterance Session.labels catalog.reason?) :=
  says_bind says_selectKind (fun kind => says_bind (says_compose catalog kind) (fun _ => says_ofExcept _))

end Utterance
end CommandComposer
