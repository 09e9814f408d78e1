import CommandComposer.Create
import CommandComposer.Delivery.Desk
import CommandComposer.Proofs.Calls
import CommandComposer.Proofs.ClipboardTools
import CommandComposer.Proofs.Display
import CommandComposer.Proofs.TerminalScript
/-!
# Handover — what becomes of a session's command

A desktop may keep a journal of what it is asked for, and a partner one of what is said; neither makes a difference
(`create_eq_account`).  By these journals, each step of handing a command over adds its errands, and for each of them
that fails one warning (`Delivery.Adds`): a confirmation that cannot be read adds none (`Delivery.deliver_unconfirmed`),
and one that can be read adds those that were asked for (`Delivery.deliver_confirmed`).  A session that fails adds none
either, and at a terminal the confirmation is the line behind those that the session has read
(`Session.hands_over_or_touches_nothing`).  What is said there is shown, and so is every failure
(`Session.failures_are_shown`).
-/
namespace CommandComposer

variable {σ δ : Type}

/-- The warning that is said, if it is one. -/
def Exchange.warning? : Exchange → Option Remark
  | .heard r => if r.asMessage.1 = .warning then some r else none
  | _ => none

theorem Exchange.eq_heard_of_warning? {x : Exchange} {r : Remark} (h : x.warning? = some r) : x = .heard r := by
  cases x with
  | asked question reply => cases h
  | heard r' =>
    simp only [Exchange.warning?] at h
    split at h
    · cases h
      rfl
    · cases h

namespace Delivery

variable {p : Partner σ} {d : Desktop δ} {o : Options} {command : Text} {s u w : Recorded σ} {t v x : Journal δ}

/-- **What a step of handing over adds to the journals**: its errands, and what is said to the partner, with a warning
for each errand that failed. -/
structure Adds (p : Partner σ) (s u : Recorded σ) (t v : Journal δ) (errands : List Errand) : Prop where
  asked : v.errands = t.errands ++ errands
  warned : ∃ said, u.talk = s.talk ++ said ∧ p.Gives s.partner said u.partner ∧
    said.filterMap Exchange.warning? = errands.filterMap Errand.warning?

theorem Adds.append {errands errands' : List Errand} (h : Adds p s u t v errands) (h' : Adds p u w v x errands') :
    Adds p s w t x (errands ++ errands') := by
  obtain ⟨hasked, said, hsaid, hgives, hwarned⟩ := h
  obtain ⟨hasked', said', hsaid', hgives', hwarned'⟩ := h'
  refine ⟨by rw [hasked', hasked, List.append_assoc], said ++ said', ?_, ?_, ?_⟩
  · rw [hsaid', hsaid, List.append_assoc]
  · exact (p.gives_append said said' _ _).2 ⟨_, hgives, hgives'⟩
  · rw [List.filterMap_append, List.filterMap_append, hwarned, hwarned']

theorem adds_shown (p : Partner σ) (command : Text) (s : Recorded σ) (t : Journal δ) :
    Adds p s (p.recorded.hear (shown command) s) t t [] :=
  ⟨(List.append_nil _).symm, _, rfl, rfl, rfl⟩

theorem adds_answer (p : Partner σ) (q : Question) (s : Recorded σ) (t : Journal δ) :
    Adds p s (p.recorded.answer q s).2 t t [] :=
  ⟨(List.append_nil _).symm, _, rfl, ⟨rfl, rfl⟩, rfl⟩

theorem adds_copyStep (p : Partner σ) (d : Desktop δ) (command : Text) (s : Recorded σ) (t : Journal δ) :
    ∃ u v, copyStep p.recorded d.journaled command s t = (succeeded (d.copy command t.desktop).1, u, v) ∧
      Adds p s u t v [.copy command (d.copy command t.desktop).1] ∧ v.desktop = (d.copy command t.desktop).2 := by
  refine ⟨_, _, rfl, ⟨rfl, _, rfl, rfl, ?_⟩, rfl⟩
  dsimp only [Desktop.journaled]
  cases (d.copy command t.desktop).1 <;> rfl

/-- What the desktop is asked to announce, unless it is to be silent. -/
def announcements (d : Desktop δ) (o : Options) (copied : Bool) (command : Text) (t : δ) : List Errand :=
  if o.silent then []
  else [.notify title (announcement copied command) (d.notify title (announcement copied command) t).1]

theorem adds_afterConfirmation (p : Partner σ) (d : Desktop δ) (o : Options) (copied : Bool) (command : Text)
    (s : Recorded σ) (t : Journal δ) :
    ∃ u v, afterConfirmation p.recorded d.journaled o copied command s t =
      (.ok ⟨copied, !o.silent && succeeded (d.notify title (announcement copied command) t.desktop).1⟩, u, v) ∧
      Adds p s u t v (announcements d o copied command t.desktop) := by
  unfold afterConfirmation notifyStep announcements
  cases o.silent with
  | true => exact ⟨s, t, rfl, (List.append_nil _).symm, [], (List.append_nil _).symm, rfl, rfl⟩
  | false =>
    dsimp only [Desktop.journaled]
    cases d.notify title (announcement copied command) t.desktop with
    | mk outcome after =>
      cases outcome with
      | ok _ => exact ⟨_, _, rfl, rfl, [], (List.append_nil _).symm, rfl, rfl⟩
      | error e => exact ⟨_, _, rfl, rfl, _, rfl, rfl, rfl⟩

theorem confirm_error {s : σ} {e : Error} (h : (p.answer confirmation s).1 = .error e) (he : e ≠ .inputClosed) :
    confirm p s = (.error e, (p.answer confirmation s).2) := by
  unfold confirm
  generalize p.answer confirmation s = reply at h ⊢
  obtain ⟨reply, u⟩ := reply
  obtain rfl : reply = .error e := h
  cases e with
  | inputClosed => exact absurd rfl he
  | _ => rfl

theorem confirm_ok {s : σ} (h : ∀ e, (p.answer confirmation s).1 = .error e → e = .inputClosed) :
    confirm p s = (.ok (), (p.answer confirmation s).2) := by
  unfold confirm
  generalize p.answer confirmation s = reply at h ⊢
  obtain ⟨reply | e, u⟩ := reply
  · obtain rfl := h _ rfl
    rfl
  · rfl

/-- **A confirmation that cannot be read** ends the handing over, and leaves the desktop alone. -/
theorem deliver_unconfirmed (hcopy : o.copy = true) {e : Error} (he : e ≠ .inputClosed)
    (h : (p.answer confirmation (p.hear (shown command) s.partner)).1 = .error e) (d : Desktop δ) (t : Journal δ) :
    ∃ u, deliver p.recorded d.journaled o command s t = (.error e, u, t) ∧ Adds p s u t t [] := by
  have hconfirm : confirm p.recorded (p.recorded.hear (shown command) s) = (.error e, _) := confirm_error h he
  refine ⟨_, ?_, (adds_shown p command s t).append (adds_answer p confirmation _ t)⟩
  unfold deliver
  rw [if_pos hcopy]
  dsimp only
  rw [hconfirm]

/-- **A command is handed over** when it is confirmed, or is not to be copied: it is copied if it is to be, and announced
unless that is to be silent. -/
theorem deliver_confirmed
    (h : o.copy = true → ∀ e, (p.answer confirmation (p.hear (shown command) s.partner)).1 = .error e →
      e = .inputClosed) (d : Desktop δ) (t : Journal δ) :
    let copied := o.copy && succeeded (d.copy command t.desktop).1
    let after := if o.copy then (d.copy command t.desktop).2 else t.desktop
    ∃ u v, deliver p.recorded d.journaled o command s t =
      (.ok ⟨copied, !o.silent && succeeded (d.notify title (announcement copied command) after).1⟩, u, v) ∧
      Adds p s u t v ((if o.copy then [.copy command (d.copy command t.desktop).1] else []) ++
        announcements d o copied command after) := by
  have hshown := adds_shown p command s t
  unfold deliver
  cases hcopy : o.copy with
  | false =>
    obtain ⟨u, v, hrest, hadds⟩ := adds_afterConfirmation p d o false command (p.recorded.hear (shown command) s) t
    exact ⟨u, v, hrest, hshown.append hadds⟩
  | true =>
    have hconfirm : confirm p.recorded (p.recorded.hear (shown command) s) = (.ok (), _) := confirm_ok (h hcopy)
    have hasked := adds_answer p confirmation (p.recorded.hear (shown command) s) t
    obtain ⟨u, v, hstep, hcopied, hdesktop⟩ := adds_copyStep p d command
      (p.recorded.answer confirmation (p.recorded.hear (shown command) s)).2 t
    obtain ⟨u', v', hrest, hannounced⟩ :=
      adds_afterConfirmation p d o (succeeded (d.copy command t.desktop).1) command u v
    rw [hdesktop] at hrest hannounced
    refine ⟨u', v', ?_, (hshown.append hasked).append (hcopied.append hannounced)⟩
    dsimp only
    rw [hconfirm]
    dsimp only
    rw [hstep]
    exact hrest

theorem exists_adds (p : Partner σ) (d : Desktop δ) (o : Options) (command : Text) (s : Recorded σ) (t : Journal δ) :
    ∃ r u v errands, deliver p.recorded d.journaled o command s t = (r, u, v) ∧ Adds p s u t v errands := by
  by_cases hconfirmed : o.copy = true →
      ∀ e, (p.answer confirmation (p.hear (shown command) s.partner)).1 = .error e → e = .inputClosed
  · obtain ⟨u, v, hdeliver, hadds⟩ := deliver_confirmed hconfirmed d t
    exact ⟨_, u, v, _, hdeliver, hadds⟩
  · simp only [not_forall] at hconfirmed
    obtain ⟨hcopy, e, he, hne⟩ := hconfirmed
    obtain ⟨u, hdeliver, hadds⟩ := deliver_unconfirmed hcopy hne he d t
    exact ⟨_, u, t, _, hdeliver, hadds⟩

theorem afterConfirmation_journaled (p : Partner σ) (d : Desktop δ) (o : Options) (copied : Bool) (command : Text)
    (s : Recorded σ) (t : Journal δ) :
    let r := afterConfirmation p.recorded d.journaled o copied command s t
    afterConfirmation p d o copied command s.partner t.desktop = (r.1, r.2.1.partner, r.2.2.desktop) := by
  unfold afterConfirmation notifyStep
  cases o.silent with
  | true => rfl
  | false =>
    dsimp only [Desktop.journaled]
    cases d.notify title (announcement copied command) t.desktop with
    | mk outcome after => cases outcome <;> rfl

/-- **Handing over goes the same way** with the journals as without. -/
theorem deliver_journaled (p : Partner σ) (d : Desktop δ) (o : Options) (command : Text) (s : Recorded σ)
    (t : Journal δ) :
    let r := deliver p.recorded d.journaled o command s t
    deliver p d o command s.partner t.desktop = (r.1, r.2.1.partner, r.2.2.desktop) := by
  unfold deliver
  cases o.copy with
  | false => exact afterConfirmation_journaled p d o false command (p.recorded.hear (shown command) s) t
  | true =>
    let shownTo := p.recorded.hear (shown command) s
    have hconfirm : confirm p shownTo.partner =
        ((confirm p.recorded shownTo).1, (confirm p.recorded shownTo).2.partner) := by
      unfold confirm
      dsimp only [Partner.recorded]
      cases p.answer confirmation shownTo.partner with
      | mk reply u =>
        rcases reply with e | a
        · cases e <;> rfl
        · rfl
    have hshown : p.hear (shown command) s.partner = shownTo.partner := rfl
    dsimp only
    rw [hshown, hconfirm]
    cases confirm p.recorded shownTo with
    | mk reply u =>
      cases reply with
      | error e => rfl
      | ok _ =>
        exact afterConfirmation_journaled p d o _ command (copyStep p.recorded d.journaled command u t).2.1
          (copyStep p.recorded d.journaled command u t).2.2

end Delivery

/-- **A session goes the same way** with its talk taken down as without, and the talk is the one that its partner
gives. -/
theorem composeWith_recorded (p : Partner σ) (catalog : Catalog) (s : σ) :
    ∃ said, composeWith p.recorded catalog ⟨s, []⟩ =
      ((composeWith p catalog s).1, ⟨(composeWith p catalog s).2, said⟩) ∧
      p.Gives s said (composeWith p catalog s).2 := by
  have htalk := (Session.command catalog).talk_transcript p.recorded.attending ⟨⟨s, []⟩, false⟩
  have hgives := (Session.command catalog).gives_transcript p.recorded.attending ⟨⟨s, []⟩, false⟩
  obtain ⟨hrecorded, hnoticed⟩ := (Partner.gives_attending_iff _ _ _ _).1 hgives
  obtain ⟨hheard, hsaid⟩ := (Partner.gives_recorded_iff _ _ _ _).1 hrecorded
  have hrun := Dialogue.run_eq_of_talk p.attending _ _ _ ⟨s, false⟩ ⟨_, _⟩ htalk
    ((Partner.gives_attending_iff _ _ _ _).2 ⟨hheard, hnoticed⟩)
  refine ⟨((Session.command catalog).run p.recorded.attending ⟨⟨s, []⟩, false⟩).2.partner.talk, ?_, ?_⟩
  · unfold composeWith
    rw [hrun]
  · unfold composeWith
    rw [hrun, hsaid]
    exact hheard

/-- **What making and handing over a command comes to**, with all that the desktop was asked for, and all that was said
once the session had ended. -/
structure Account (σ δ : Type) where
  result : Except Error Delivery.Report
  partner : σ
  desktop : δ
  errands : List Errand
  said : List Exchange

/-- **The account that the journals give.** -/
def account (around : Surroundings) (o : CreateOptions) (p : Partner σ) (d : Desktop δ) (s : σ) (t : δ) :
    Account σ δ :=
  let session := composeWith p.recorded (o.catalog around) ⟨s, []⟩
  let r := create around o p.recorded d.journaled ⟨s, []⟩ ⟨t, []⟩
  ⟨r.1, r.2.1.partner, r.2.2.desktop, r.2.2.errands, r.2.1.talk.drop session.2.talk.length⟩

section Account

variable (around : Surroundings) (o : CreateOptions) (p : Partner σ) (d : Desktop δ) (s : σ) (t : δ)

/-- **An account is one of what happens** without journals. -/
theorem create_eq_account :
    create around o p d s t =
      ((account around o p d s t).result, (account around o p d s t).partner, (account around o p d s t).desktop) := by
  obtain ⟨said, hsession, -⟩ := composeWith_recorded p (o.catalog around) s
  unfold account create
  rw [hsession]
  cases composeWith p (o.catalog around) s with
  | mk result u =>
    cases result with
    | error e => rfl
    | ok command => exact Delivery.deliver_journaled p d o.delivery command ⟨u, said⟩ ⟨t, []⟩

theorem account_of_error {e : Error} {u : σ} (h : composeWith p (o.catalog around) s = (.error e, u)) :
    account around o p d s t = ⟨.error e, u, t, [], []⟩ := by
  obtain ⟨said, hsession, -⟩ := composeWith_recorded p (o.catalog around) s
  unfold account create
  rw [hsession, h]
  exact congrArg (Account.mk _ _ _ _) (List.drop_length ..)

theorem account_of_ok {command : Text} {u : σ} (h : composeWith p (o.catalog around) s = (.ok command, u)) :
    ∃ said, ∀ (r : Except Error Delivery.Report) (v : Recorded σ) (w : Journal δ) (errands : List Errand),
      Delivery.deliver p.recorded d.journaled o.delivery command ⟨u, said⟩ ⟨t, []⟩ = (r, v, w) →
      Delivery.Adds p ⟨u, said⟩ v ⟨t, []⟩ w errands →
      let a := account around o p d s t
      a.result = r ∧ a.desktop = w.desktop ∧ a.errands = errands ∧ p.Gives u a.said a.partner ∧
        a.said.filterMap Exchange.warning? = errands.filterMap Errand.warning? := by
  obtain ⟨said, hsession, -⟩ := composeWith_recorded p (o.catalog around) s
  refine ⟨said, fun r v w errands hdeliver hadds => ?_⟩
  obtain ⟨hasked, after, hafter, hgives, hwarned⟩ := hadds
  have hcreate : create around o p.recorded d.journaled ⟨s, []⟩ ⟨t, []⟩ = (r, v, w) := by
    unfold create
    rw [hsession, h]
    exact hdeliver
  have hsaid : v.talk.drop said.length = after := by rw [hafter, List.drop_left]
  unfold account
  rw [hcreate, hsession]
  dsimp only
  rw [hsaid]
  exact ⟨rfl, rfl, hasked, hgives, hwarned⟩

/-- **What is said once a session has ended** is said to its partner, with a warning for each errand that failed. -/
theorem gives_said :
    let a := account around o p d s t
    p.Gives (composeWith p (o.catalog around) s).2 a.said a.partner ∧
      a.said.filterMap Exchange.warning? = a.errands.filterMap Errand.warning? := by
  cases hsession : composeWith p (o.catalog around) s with
  | mk result u =>
    cases result with
    | error e =>
      rw [account_of_error around o p d s t hsession]
      exact ⟨rfl, rfl⟩
    | ok command =>
      obtain ⟨said, haccount⟩ := account_of_ok around o p d s t hsession
      obtain ⟨r, v, w, errands, hdeliver, hadds⟩ :=
        Delivery.exists_adds p d o.delivery command ⟨u, said⟩ ⟨t, []⟩
      obtain ⟨-, -, herrands, hgives, hwarned⟩ := haccount r v w errands hdeliver hadds
      exact ⟨hgives, hwarned.trans (congrArg _ herrands.symm)⟩

theorem account_of_unconfirmed {command : Text} {u : σ} (h : composeWith p (o.catalog around) s = (.ok command, u))
    (hcopy : o.shouldCopy = true) {e : Error} (he : e ≠ .inputClosed)
    (hreply : (p.answer Delivery.confirmation (p.hear (Delivery.shown command) u)).1 = .error e) :
    let a := account around o p d s t
    a.result = .error e ∧ a.errands = [] ∧ a.desktop = t := by
  obtain ⟨said, haccount⟩ := account_of_ok around o p d s t h
  obtain ⟨v, hdeliver, hadds⟩ :=
    Delivery.deliver_unconfirmed (o := o.delivery) (s := ⟨u, said⟩) hcopy he hreply d ⟨t, []⟩
  obtain ⟨hresult, hdesktop, herrands, -⟩ := haccount _ v _ _ hdeliver hadds
  exact ⟨hresult, herrands, hdesktop⟩

theorem account_of_confirmed {command : Text} {u : σ} (h : composeWith p (o.catalog around) s = (.ok command, u))
    (hreply : o.shouldCopy = true →
      ∀ e, (p.answer Delivery.confirmation (p.hear (Delivery.shown command) u)).1 = .error e → e = .inputClosed) :
    let a := account around o p d s t
    let copied := o.shouldCopy && Delivery.succeeded (d.copy command t).1
    let after := if o.shouldCopy then (d.copy command t).2 else t
    a.result = .ok ⟨copied,
      !o.silent && Delivery.succeeded (d.notify Delivery.title (Delivery.announcement copied command) after).1⟩ ∧
    a.errands = (if o.shouldCopy then [.copy command (d.copy command t).1] else []) ++
      Delivery.announcements d o.delivery copied command after := by
  obtain ⟨said, haccount⟩ := account_of_ok around o p d s t h
  obtain ⟨v, w, hdeliver, hadds⟩ :=
    Delivery.deliver_confirmed (o := o.delivery) (s := ⟨u, said⟩) hreply d ⟨t, []⟩
  obtain ⟨hresult, -, herrands, -⟩ := haccount _ v w _ hdeliver hadds
  exact ⟨hresult, herrands⟩

/-- **Copied means taken by a tool**: a confirmed command is reported as copied just if it was to be copied and one of
the clipboard's tools took it. -/
theorem copied_iff_tool_takes {command : Text} {u : σ} (h : composeWith p (o.catalog around) s = (.ok command, u))
    (hreply : o.shouldCopy = true →
      ∀ e, (p.answer Delivery.confirmation (p.hear (Delivery.shown command) u)).1 = .error e → e = .inputClosed)
    (ending : Tool → Ending) :
    ∃ report, (create around o p (Tools.desktop ending) s ()).1 = .ok report ∧
      (report.copied = true ↔ o.shouldCopy = true ∧ ∃ tool ∈ Tools.clipboard, ending tool = .exited true true) := by
  rw [create_eq_account]
  obtain ⟨hresult, -⟩ := account_of_confirmed around o p (Tools.desktop ending) s () h hreply
  refine ⟨_, hresult, ?_⟩
  rw [Bool.and_eq_true, ← Tools.copy_eq_ok_iff command ()]
  refine and_congr_right (fun _ => ?_)
  cases ((Tools.desktop ending).copy command ()).1 with
  | ok _ => exact iff_of_true rfl rfl
  | error e => exact iff_of_false nofun nofun

end Account

namespace Terminal

/-- **A session leaves a terminal that works** as one that works. -/
theorem exists_left_composeWith (catalog : Catalog) (input : List UInt8) :
    ∃ left output, (composeWith partner catalog (start input)).2 = ⟨left, output, none⟩ := by
  have hgives := (Session.command catalog).gives_transcript partner.attending ⟨start input, false⟩
  obtain ⟨left, shown, -, hleft⟩ := displays_of_gives ((Partner.gives_attending_iff _ _ _ _).1 hgives).1
  exact ⟨left, _, hleft⟩

/-- **What is read for a confirmation** is the next line. -/
theorem answer_confirmation (input : List UInt8) (output : Text) (r : Remark) :
    (answer Delivery.confirmation (hear r ⟨input, output, none⟩)).1 = (readLine input).1 := by
  rw [hear_works]
  rfl

end Terminal

namespace Session

open Delivery (succeeded)

/-- **A command is handed over, or nothing is touched.**  A session at a terminal that fails ends all with its error,
and the desktop is asked for nothing; so does a confirmation, read from the line behind those of the session, that
cannot be read, unless the input has ended.  Otherwise the desktop is asked to copy the command, if it is to be copied,
and then to announce it, unless it is to be silent; the report says of both whether they were done.  There is a warning
for each of the two that failed, and no other. -/
theorem hands_over_or_touches_nothing (around : Surroundings) (o : CreateOptions) (input : List UInt8) (d : Desktop δ)
    (t : δ) :
    let session := composeWith Terminal.partner ((Catalog.Source.resolve around o.blocksPath).load around)
      (Terminal.start input)
    let reading := (Terminal.readLine session.2.input).1
    let a := account around o Terminal.partner d (Terminal.start input) t
    create around o Terminal.partner d (Terminal.start input) t = (a.result, a.partner, a.desktop) ∧
    a.said.filterMap Exchange.warning? = a.errands.filterMap Errand.warning? ∧
    (∀ e, session.1 = .error e → a.result = .error e ∧ a.errands = [] ∧ a.desktop = t) ∧
    ∀ command, session.1 = .ok command →
      (∀ e, o.shouldCopy = true → reading = .error e → e ≠ .inputClosed →
        a.result = .error e ∧ a.errands = [] ∧ a.desktop = t) ∧
      ((o.shouldCopy = true → ∀ e, reading = .error e → e = .inputClosed) →
        let copied := o.shouldCopy && succeeded (d.copy command t).1
        let after := if o.shouldCopy then (d.copy command t).2 else t
        let message := (if copied then "Command copied to clipboard: " else "Command generated: ") ++ command
        a.result = .ok ⟨copied, !o.silent && succeeded (d.notify "mccmd" message after).1⟩ ∧
        a.errands = (if o.shouldCopy then [.copy command (d.copy command t).1] else []) ++
          if o.silent then [] else [.notify "mccmd" message (d.notify "mccmd" message after).1]) := by
  let catalog := (Catalog.Source.resolve around o.blocksPath).load around
  obtain ⟨left, output, hleft⟩ := Terminal.exists_left_composeWith catalog input
  dsimp only
  cases hsession : composeWith Terminal.partner catalog (Terminal.start input) with
  | mk result u =>
    rw [hsession] at hleft
    obtain rfl : u = ⟨left, output, none⟩ := hleft
    refine ⟨create_eq_account around o Terminal.partner d _ t, (gives_said around o Terminal.partner d _ t).2, ?_⟩
    cases result with
    | error e =>
      rw [account_of_error around o Terminal.partner d _ t hsession]
      refine ⟨?_, nofun⟩
      rintro e' he
      cases he
      exact ⟨rfl, rfl, rfl⟩
    | ok command =>
      -- the terminal still works, so the confirmation is shown and read from what the session has left
      have hread : (Terminal.partner.answer Delivery.confirmation
          (Terminal.partner.hear (Delivery.shown command) ⟨left, output, none⟩)).1 = (Terminal.readLine left).1 :=
        Terminal.answer_confirmation left output _
      by_cases hconfirmed : o.shouldCopy = true → ∀ e, (Terminal.readLine left).1 = .error e → e = .inputClosed
      · obtain ⟨hresult, herrands⟩ := account_of_confirmed around o Terminal.partner d _ t hsession
          (fun hcopy e he => hconfirmed hcopy e (hread.symm.trans he))
        refine ⟨nofun, ?_⟩
        rintro command' hcommand
        cases hcommand
        exact ⟨fun e hcopy he hne => absurd (hconfirmed hcopy e he) hne, fun _ => ⟨hresult, herrands⟩⟩
      · simp only [not_forall] at hconfirmed
        obtain ⟨hcopy, e, he, hne⟩ := hconfirmed
        have hnothing := account_of_unconfirmed around o Terminal.partner d _ t hsession hcopy hne (hread.trans he)
        refine ⟨nofun, ?_⟩
        rintro command' hcommand
        cases hcommand
        refine ⟨fun e' _ he' _ => ?_, fun hconfirmed => absurd (hconfirmed hcopy e he) hne⟩
        cases he.symm.trans he'
        exact hnothing

/-- A message at a terminal whose clipboard has no tool: the input ends before the confirmation, or goes on with a line
that is no text. -/
theorem hands_over_or_touches_nothing_message :
    let around : Surroundings := ⟨"/home/steve", fun _ => .error .notFound⟩
    let session (input : List UInt8) :=
      composeWith Terminal.partner ((Catalog.Source.resolve around none).load around) (Terminal.start input)
    let handed (input : List UInt8) :=
      account around {} Terminal.partner (Desk.desktop (some (.noClipboard ["xclip"])) none) (Terminal.start input)
        Desk.empty
    (session [53, 10, 104, 105, 10]).1 = .ok "/say hi" ∧
    (Terminal.readLine (session [53, 10, 104, 105, 10]).2.input).1 = .error .inputClosed ∧
    (handed [53, 10, 104, 105, 10]).result = .ok ⟨false, true⟩ ∧
    (handed [53, 10, 104, 105, 10]).errands = [.copy "/say hi" (.error (.noClipboard ["xclip"])),
      .notify "mccmd" "Command generated: /say hi" (.ok ())] ∧
    (session [53, 10, 104, 105, 10, 255, 10]).1 = .ok "/say hi" ∧
    (Terminal.readLine (session [53, 10, 104, 105, 10, 255, 10]).2.input).1 = .error (.stream .notText) ∧
    (handed [53, 10, 104, 105, 10, 255, 10]).result = .error (.stream .notText) ∧
    (handed [53, 10, 104, 105, 10, 255, 10]).errands = [] := by
  intro around session handed
  have hsession : (session [53, 10, 104, 105, 10]).1 = .ok "/say hi" := by decide +kernel
  have hclosed : (Terminal.readLine (session [53, 10, 104, 105, 10]).2.input).1 = .error .inputClosed := by
    decide +kernel
  have hunreadSession : (session [53, 10, 104, 105, 10, 255, 10]).1 = .ok "/say hi" := by decide +kernel
  have hunread : (Terminal.readLine (session [53, 10, 104, 105, 10, 255, 10]).2.input).1 =
      .error (.stream .notText) := by decide +kernel
  obtain ⟨-, -, -, hhanded⟩ := hands_over_or_touches_nothing around {} [53, 10, 104, 105, 10]
    (Desk.desktop (some (.noClipboard ["xclip"])) none) Desk.empty
  obtain ⟨-, -, -, hunreadHanded⟩ := hands_over_or_touches_nothing around {} [53, 10, 104, 105, 10, 255, 10]
    (Desk.desktop (some (.noClipboard ["xclip"])) none) Desk.empty
  obtain ⟨hresult, herrands⟩ :=
    (hhanded "/say hi" hsession).2 (fun _ e he => (Except.error.inj (hclosed.symm.trans he)).symm)
  obtain ⟨hunreadResult, hunreadErrands, -⟩ := (hunreadHanded "/say hi" hunreadSession).1 _ rfl hunread nofun
  exact ⟨hsession, hclosed, hresult, herrands, hunreadSession, hunread, hunreadResult, hunreadErrands⟩

/-- **All that is said in a session is shown**, each exchange in turn, and nothing else. -/
theorem session_is_shown (catalog : Catalog) (input : List UInt8) :
    let session := composeWith Terminal.partner.recorded catalog ⟨Terminal.start input, []⟩
    Terminal.Displays session.2.talk session.2.partner.output := by
  obtain ⟨said, hsession, hgives⟩ := composeWith_recorded Terminal.partner catalog (Terminal.start input)
  obtain ⟨left, shown, hdisplays, hleft⟩ := Terminal.displays_of_gives hgives
  rw [hsession]
  dsimp only
  rw [hleft]
  exact hdisplays

/-- **What goes wrong is shown.**  Behind the session a terminal shows all that is said once it has ended; a copy that
failed and a notification that failed are each a line of it, with the reason. -/
theorem failures_are_shown (around : Surroundings) (o : CreateOptions) (input : List UInt8) (d : Desktop δ) (t : δ) :
    let session := composeWith Terminal.partner (o.catalog around) (Terminal.start input)
    let a := account around o Terminal.partner d (Terminal.start input) t
    let warning (t : Text) : Text := "\x1b[38;5;11m" ++ t ++ "\x1b[0m\n"
    ∃ shown, a.partner.output = session.2.output ++ shown ∧ Terminal.Displays a.said shown ∧
      (∀ text e, .copy text (.error e) ∈ a.errands →
        warning ("✗ Failed to copy command to clipboard (" ++ e.message ++ ")") <:+: shown) ∧
      ∀ title message e, .notify title message (.error e) ∈ a.errands →
        warning ("✗ Failed to send notification (" ++ e.message ++ ")") <:+: shown := by
  intro session a warning
  obtain ⟨hgives, hwarned⟩ := gives_said around o Terminal.partner d (Terminal.start input) t
  obtain ⟨left, output, hsession⟩ := Terminal.exists_left_composeWith (o.catalog around) input
  rw [hsession] at hgives
  obtain ⟨left', shown, hdisplays, hleft⟩ := Terminal.displays_of_gives hgives
  have hline : ∀ errand ∈ a.errands, ∀ r, errand.warning? = some r → Terminal.remarkShown r <:+: shown := by
    intro errand hmem r hr
    have hsaid : r ∈ a.said.filterMap Exchange.warning? := hwarned ▸ List.mem_filterMap.2 ⟨errand, hmem, hr⟩
    obtain ⟨x, hx, hheard⟩ := List.mem_filterMap.1 hsaid
    obtain rfl := Exchange.eq_heard_of_warning? hheard
    exact hdisplays.infix_of_heard hx
  have hleft : a.partner = ⟨left', output ++ shown, none⟩ := hleft
  have hsession : session.2 = ⟨left, output, none⟩ := hsession
  refine ⟨shown, by rw [hleft, hsession], hdisplays, fun text e hmem => ?_, fun title message e hmem => ?_⟩
  · exact hline _ hmem _ rfl
  · exact hline _ hmem _ rfl

end Session
end CommandComposer
