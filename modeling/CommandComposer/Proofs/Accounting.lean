import CommandComposer.Proofs.Failures
/-!
# Accounting — what becomes of a script's answers

A script that replies takes one answer for each question, or has its input closed if there is none left
(`Script.serves_taken`, `Script.serves_closed`).  So in a talk that it serves there is one question for each answer taken
and one for each time its input was closed (`Script.exists_taken`).  The input is closed at most once in a call, at its
last question, and exactly if the call fails for that (`Dialogue.countP_closed`), so the questions of a call are counted
(`Session.log_accounts`), and by induction those of all the calls on a session (`Session.every_answer_used_once`).
-/
namespace CommandComposer

def Event.isQuestion : Event → Bool
  | .asked _ => true
  | .heard .. => false

/-- A question that found the input closed. -/
def Exchange.isClosed : Exchange → Bool
  | .asked _ (.error .inputClosed) => true
  | _ => false

def endsClosed {α : Type} : Except Error α → Bool
  | .error .inputClosed => true
  | _ => false

theorem endsClosed_iff {α : Type} {r : Except Error α} : endsClosed r = true ↔ r = .error .inputClosed := by
  cases r with
  | ok a => simp [endsClosed]
  | error e => cases e <;> simp [endsClosed]

theorem countP_isQuestion_heardOnce : ∀ (l : List Exchange) (noticed : Bool),
    ((heardOnce noticed l).map Exchange.event).countP Event.isQuestion =
      (l.map Exchange.event).countP Event.isQuestion
  | [], _ => rfl
  | .asked q reply :: l, noticed => by
    rw [heardOnce_asked, List.map_cons, List.map_cons, List.countP_cons, List.countP_cons,
      countP_isQuestion_heardOnce l noticed]
  | .heard r :: l, noticed => by
    have hheard : ∀ l : List Exchange, ((Exchange.heard r :: l).map Exchange.event).countP Event.isQuestion =
        (l.map Exchange.event).countP Event.isQuestion :=
      fun l => List.countP_cons_of_neg (by simp [Exchange.event, Event.isQuestion])
    rw [heardOnce, hheard]
    split
    · exact countP_isQuestion_heardOnce l noticed
    · rw [hheard, countP_isQuestion_heardOnce l _]

namespace Script

/-- What a script replies to a question with the answer it takes for it. -/
def Manner.verdict (m : Manner) (q : Question) (a : Text) : Except Error Text :=
  match m with
  | .checked => if offered q a then .ok a else .error (.unknownChoice a)
  | .unchecked => .ok a
  | .broken fault => .error (.stream fault)

theorem Manner.verdict_ne_closed (m : Manner) (q : Question) (a : Text) : m.verdict q a ≠ .error .inputClosed := by
  cases m with
  | checked =>
    rw [verdict]
    split <;> simp
  | _ => simp [verdict]

variable {m : Manner} {q : Question} {reply reply' : Except Error Text} {l : List Exchange} {answers left : List Text}

theorem serves_taken (hm : ∀ fault, m ≠ .broken fault) (hq : (Exchange.asked q reply').Offers) (a : Text) :
    Serves m (a :: answers) (.asked q reply :: l) left ↔ reply = m.verdict q a ∧ Serves m answers l left := by
  have hanswer : answer m q (start (a :: answers)) = (m.verdict q a, ⟨answers, [.asked q]⟩) := by
    cases m with
    | checked =>
      have hnext : next true q ⟨a :: answers, [.asked q]⟩ = (Manner.checked.verdict q a, ⟨answers, [.asked q]⟩) := by
        by_cases hoffered : offered q a = true <;> simp [next, Manner.verdict, hoffered]
      rcases q with ⟨message, _ | ⟨c, choices⟩⟩ | text
      · exact absurd rfl hq
      · exact hnext
      · exact hnext
    | unchecked => rfl
    | broken fault => exact absurd rfl (hm fault)
  rw [Serves, hanswer]

theorem serves_closed (hm : ∀ fault, m ≠ .broken fault) (hq : (Exchange.asked q reply').Offers) :
    Serves m [] (.asked q reply :: l) left ↔ reply = .error .inputClosed ∧ Serves m [] l left := by
  have hanswer : answer m q (start []) = (.error .inputClosed, ⟨[], [.asked q]⟩) := by
    cases m with
    | checked =>
      rcases q with ⟨message, _ | ⟨c, choices⟩⟩ | text
      · exact absurd rfl hq
      · rfl
      · rfl
    | unchecked => rfl
    | broken fault => exact absurd rfl (hm fault)
  rw [Serves, hanswer]

/-- **The answers a talk takes**, one for each of its questions but those that found the input closed; by induction on
the talk. -/
theorem exists_taken (hm : ∀ fault, m ≠ .broken fault) : ∀ {l : List Exchange} {answers left : List Text},
    (∀ x ∈ l, x.Offers) → Serves m answers l left →
      ∃ taken, answers = taken ++ left ∧
        (l.map Exchange.event).countP Event.isQuestion = taken.length + l.countP Exchange.isClosed ∧
        (l.any Exchange.isClosed = true → left = [])
  | [], answers, left, _, h => by
    obtain rfl : left = answers := h
    exact ⟨[], rfl, rfl, fun h => absurd h (by simp)⟩
  | .heard r :: l, answers, left, hl, h => by
    obtain ⟨taken, rfl, hcount, hclosed⟩ := exists_taken hm (List.forall_mem_cons.1 hl).2 h
    refine ⟨taken, rfl, ?_, by simpa [Exchange.isClosed] using hclosed⟩
    simpa [Exchange.event, Event.isQuestion, Exchange.isClosed] using hcount
  | .asked q reply :: l, [], left, hl, h => by
    obtain ⟨hq, hrest⟩ := List.forall_mem_cons.1 hl
    obtain ⟨rfl, hserves⟩ := (serves_closed hm hq).1 h
    -- no answer is left for what follows either
    obtain ⟨taken, htaken, hcount, -⟩ := exists_taken hm hrest hserves
    obtain ⟨rfl, rfl⟩ := List.append_eq_nil_iff.1 htaken.symm
    refine ⟨[], rfl, ?_, fun _ => rfl⟩
    rw [List.map_cons, List.countP_cons_of_pos rfl, List.countP_cons_of_pos rfl, hcount, Nat.add_assoc]
  | .asked q reply :: l, a :: answers, left, hl, h => by
    obtain ⟨hq, hrest⟩ := List.forall_mem_cons.1 hl
    obtain ⟨hreply, hserves⟩ := (serves_taken hm hq a).1 h
    obtain ⟨taken, rfl, hcount, hclosed⟩ := exists_taken hm hrest hserves
    have hopen : (Exchange.asked q reply).isClosed = false := by
      rw [Bool.eq_false_iff]
      intro hc
      unfold Exchange.isClosed at hc
      split at hc
      · rename_i heq
        cases heq
        exact m.verdict_ne_closed q a hreply.symm
      · cases hc
    refine ⟨a :: taken, rfl, ?_, by simpa [hopen] using hclosed⟩
    rw [List.map_cons, List.countP_cons_of_pos rfl, List.countP_cons_of_neg (by simp [hopen]), hcount,
      List.length_cons]
    omega

theorem lines_add_menus (s : Script) : s.lines.length + s.menus.length = s.events.countP Event.isQuestion := by
  obtain ⟨answers, events⟩ := s
  induction events with
  | nil => rfl
  | cons e events ih =>
    unfold lines menus at ih ⊢
    rcases e with ⟨⟨message, choices⟩ | text⟩ | _
    · rw [List.countP_cons_of_pos rfl, ← ih]
      simp only [List.filterMap_cons, List.length_cons]
      omega
    · rw [List.countP_cons_of_pos rfl, ← ih]
      simp only [List.filterMap_cons, List.length_cons]
      omega
    · simpa [Event.isQuestion] using ih

end Script

namespace Dialogue

variable {α : Type}

/-- **The input is closed at the last question**, if the dialogue fails for that, and else at none. -/
theorem countP_closed {d : Dialogue α} (hd : d.Raises (· ≠ .inputClosed)) {l : List Exchange} {r : Except Error α}
    (h : d.Talk l r) : l.countP Exchange.isClosed = if endsClosed r then 1 else 0 := by
  have hanswered : ∀ {l : List Exchange}, (∀ x ∈ l, x.Answered) → l.countP Exchange.isClosed = 0 := by
    intro l hl
    refine List.countP_eq_zero.2 (fun x hx hclosed => ?_)
    unfold Exchange.isClosed at hclosed
    split at hclosed
    · exact hl _ hx
    · cases hclosed
  rcases closes_of_talk d l r h with hl | ⟨before, q, e, hbefore, rfl, rfl⟩
  · -- every question was answered, so an error is one that the dialogue raises
    rw [hanswered hl, if_neg]
    intro hr
    rw [endsClosed_iff.1 hr] at h
    rcases hd l _ h with ⟨q, hq⟩ | hne
    · exact hl _ hq
    · exact hne rfl
  · rw [List.countP_append, hanswered hbefore, Nat.zero_add, List.countP_singleton]
    cases e <;> rfl

end Dialogue

theorem Template.render_error {values : Values} {template : Template} {e : Error}
    (h : render values template = .error e) : ∃ key, e = .missingValue key := by
  rw [render_eq] at h
  split at h
  · rename_i key _
    cases h
    exact ⟨key, rfl⟩
  · cases h

namespace Session

open Dialogue

theorem raises_selectKind : selectKind.Raises (· ≠ .inputClosed) := by
  refine raises_bind (raises_ask _) (fun picked => raises_bind (raises_ofExcept (fun e h => ?_)) (fun kind => ?_))
  · unfold Kind.read at h
    split at h
    · cases h
    · cases h
      simp
  · exact raises_bind (raises_tell _) (fun _ => raises_done _)

theorem raises_command (catalog : Catalog) : (command catalog).Raises (· ≠ .inputClosed) := by
  refine raises_bind raises_selectKind (fun kind => ?_)
  refine raises_bind (raises_compose (by simp) catalog kind) (fun draft => raises_ofExcept (fun e h => ?_))
  obtain ⟨key, rfl⟩ := Template.render_error h
  simp

theorem raises_call (catalog : Catalog) (call : Call) : (call.dialogue catalog).Raises (· ≠ .inputClosed) := by
  cases call with
  | run => exact raises_bind (raises_command catalog) (fun _ => raises_done _)
  | selectKind => exact raises_bind raises_selectKind (fun _ => raises_done _)
  | compose kind => exact raises_bind (raises_compose (by simp) catalog kind) (fun _ => raises_done _)

variable {m : Script.Manner}

/-- **The account of one call**: a question for each answer it takes, and one more if it finds the input closed, which
it does only when no answer is left. -/
theorem log_accounts (hm : ∀ fault, m ≠ .broken fault) (catalog : Catalog) (call : Call) (s : Attending Script) :
    ∃ taken, s.partner.answers = taken ++ (call.log m catalog s).left ∧
      (call.log m catalog s).events.countP Event.isQuestion =
        taken.length + (if endsClosed (call.log m catalog s).result then 1 else 0) ∧
      ((call.log m catalog s).result = .error .inputClosed → (call.log m catalog s).left = []) := by
  obtain ⟨l, htalk, -, hserves⟩ := Script.exists_served_talk m (offers_call catalog call) s
  obtain ⟨taken, htaken, hcount, hclosed⟩ := Script.exists_taken hm (offers_call catalog call l _ htalk) hserves
  have hends := countP_closed (raises_call catalog call) htalk
  have hevents : (call.log m catalog s).events = (heardOnce s.noticed l).map Exchange.event := by
    rw [Call.log, Script.run_of_serves m (offers_call catalog call) s htalk hserves]
    exact List.drop_left
  refine ⟨taken, htaken, ?_, fun hresult => hclosed ?_⟩
  · rw [hevents, countP_isQuestion_heardOnce, hcount, hends]
    rfl
  · have hone : l.countP Exchange.isClosed = 1 := hends.trans (if_pos (endsClosed_iff.2 hresult))
    obtain ⟨x, hx, hxclosed⟩ := List.countP_pos_iff.1 (hone ▸ Nat.one_pos)
    exact List.any_eq_true.2 ⟨x, hx, hxclosed⟩

/-- **The account of the calls on a session**, by induction on the calls. -/
theorem logs_account (hm : ∀ fault, m ≠ .broken fault) (catalog : Catalog) : ∀ (calls : List Call) (s : Attending Script),
    ∃ taken, s.partner.answers = taken ++ (makeAll (Script.partner m) catalog calls s).2.partner.answers ∧
      ((logs m catalog calls s).flatMap Log.events).countP Event.isQuestion =
        taken.length + (makeAll (Script.partner m) catalog calls s).1.countP endsClosed
  | [], s => ⟨[], rfl, rfl⟩
  | call :: calls, s => by
    obtain ⟨first, hfirst, hcount, -⟩ := log_accounts hm catalog call s
    obtain ⟨rest, hrest, hcounts⟩ :=
      logs_account hm catalog calls ((call.dialogue catalog).run (Script.partner m).attending s).2
    refine ⟨first ++ rest, ?_, ?_⟩
    · rw [makeAll, List.append_assoc, ← hrest]
      exact hfirst
    · rw [logs, List.flatMap_cons, List.countP_append, hcount, hcounts, makeAll, List.countP_cons, List.length_append]
      rw [Nat.add_add_add_comm]
      exact congrArg _ (Nat.add_comm _ _)

/-- **Every answer is used once, and every call ends.**  Over any calls on a session, the questions recorded are as many
as the answers taken and the calls that found the input closed.  A call finds it closed only when no answer is left, so
it asks at most one question more than there were answers; and its talk, where no bound is put on any rounds, has an end
and is that of its run. -/
theorem every_answer_used_once (m : Script.Manner) (hm : ∀ fault, m ≠ .broken fault) (catalog : Catalog) :
    (∀ (calls : List Call) (answers : List Text),
      let made := makeAll (Script.partner m) catalog calls ⟨Script.start answers, false⟩
      ∃ taken, answers = taken ++ made.2.partner.answers ∧
        made.2.partner.lines.length + made.2.partner.menus.length = taken.length + made.1.countP endsClosed) ∧
    ∀ (call : Call) (s : Attending Script),
      let log := call.log m catalog s
      (log.result = .error .inputClosed → log.left = []) ∧
      log.events.countP Event.isQuestion ≤ s.partner.answers.length + 1 ∧
      ∃ l, (call.dialogue catalog).Talk l log.result ∧
        (Script.partner m).attending.Gives s l ((call.dialogue catalog).run (Script.partner m).attending s).2 := by
  refine ⟨fun calls answers => ?_, fun call s => ?_⟩
  · obtain ⟨taken, htaken, hcount⟩ := logs_account hm catalog calls ⟨Script.start answers, false⟩
    obtain ⟨-, -, hevents⟩ := logs_eq m catalog calls ⟨Script.start answers, false⟩
    refine ⟨taken, htaken, ?_⟩
    rw [Script.lines_add_menus, hevents, List.countP_append, hcount]
    exact Nat.zero_add _
  · obtain ⟨taken, htaken, hcount, hclosed⟩ := log_accounts hm catalog call s
    obtain ⟨l, htalk, hgives, -⟩ := Script.exists_served_talk m (offers_call catalog call) s
    refine ⟨hclosed, ?_, l, htalk, hgives⟩
    have hlength := congrArg List.length htaken
    rw [List.length_append] at hlength
    rw [hcount]
    split <;> omega

/-- A message after a blank answer, then a gift and a pick of a kind that both find the input closed. -/
theorem every_answer_used_once_closed_twice :
    (∀ fault, Script.Manner.checked ≠ .broken fault) ∧
    let made := makeAll (Script.partner .checked) (.unavailable "none") [.run, .run, .selectKind]
      ⟨Script.start ["say", "", "hi", "give"], false⟩
    made.2.partner.lines.length = 2 ∧ made.2.partner.menus.length = 4 ∧ made.1.countP endsClosed = 2 ∧
    ∃ taken, (["say", "", "hi", "give"] : List Text) = taken ++ made.2.partner.answers ∧
      made.2.partner.lines.length + made.2.partner.menus.length = taken.length + made.1.countP endsClosed := by
  have hm : ∀ fault, Script.Manner.checked ≠ .broken fault := nofun
  exact ⟨hm, rfl, rfl, rfl, (every_answer_used_once .checked hm (.unavailable "none")).1 _ _⟩

end Session
end CommandComposer
