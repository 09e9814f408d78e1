import CommandComposer.Proofs.ScriptRun
import CommandComposer.Proofs.Utterances
/-!
# Calls — several calls on one session

A session may be asked for a kind, for a draft or for a whole command, again and again, also after a call that failed
(`Session.makeAll`).  What is said in it are the talks of its calls, one behind the other, without the notices after the
first (`Session.sessionTalk_eq`).  How a script answers depends on what is left of its answers alone (`Script.Serves`),
so a call on a session that was used before has the result that it has on a new one, leaves the same answers and says
the same but for the notice (`Session.calls_independent`).
-/
namespace CommandComposer

variable {σ : Type}

/-- **A recorded partner gives a talk** exactly when the partner gives it and the record grows by it. -/
theorem Partner.gives_recorded_iff (p : Partner σ) : ∀ (l : List Exchange) (s t : Recorded σ),
    p.recorded.Gives s l t ↔ p.Gives s.partner l t.partner ∧ t.talk = s.talk ++ l
  | [], ⟨s, talk⟩, ⟨t, talk'⟩ => by simp [Partner.Gives]
  | .asked q reply :: l, s, t => by
    rw [Partner.Gives, p.gives_recorded_iff l, Partner.Gives, and_assoc]
    refine and_congr_right (fun hreply => and_congr_right (fun _ => ?_))
    rw [hreply]
    simp [Partner.recorded]
  | .heard r :: l, s, t => by
    rw [Partner.Gives, p.gives_recorded_iff l, Partner.Gives]
    simp [Partner.recorded]

/-- An event that warns of a catalog that is not available. -/
def Event.warnsUnavailable : Event → Bool
  | .heard .warning text => ("Block catalog unavailable (" : Text).isPrefixOf text
  | _ => false

def Exchange.warnsUnavailable (x : Exchange) : Bool := x.event.warnsUnavailable

theorem Utterance.warnsUnavailable_eq {labels : List Text} {reason? : Option Text} {x : Exchange}
    (h : Utterance labels reason? x) : x.warnsUnavailable = x.isNotice := by
  cases h with
  | notice reason hreason =>
    have hprefix : ("Block catalog unavailable (" : Text) <+: Session.unavailableNotice reason :=
      ⟨_, (List.append_assoc _ _ _).symm⟩
    simp only [Exchange.warnsUnavailable, Exchange.event, Remark.asMessage, Event.warnsUnavailable, Exchange.isNotice,
      List.isPrefixOf_iff_prefix.2 hprefix]
  | _ => rfl

theorem Utterance.isNotice_eq_false {labels : List Text} {x : Exchange} (h : Utterance labels none x) :
    x.isNotice = false := by
  cases h with
  | notice reason hreason => cases hreason
  | _ => rfl

theorem filter_heardOnce : ∀ (l : List Exchange) (noticed : Bool),
    (heardOnce noticed l).filter (fun x => !x.isNotice) = l.filter (fun x => !x.isNotice)
  | [], _ => rfl
  | x :: l, noticed => by
    rw [heardOnce]
    split
    · rename_i h
      rw [filter_heardOnce l noticed, List.filter_cons_of_neg (by simpa using (Bool.and_eq_true_iff.1 h).2)]
    · rw [List.filter_cons, List.filter_cons, filter_heardOnce l]

namespace Script

/-- **Answers serve a talk** and leave some of them: they are what the script replies from, and nothing else is. -/
def Serves (m : Manner) : List Text → List Exchange → List Text → Prop
  | answers, [], left => left = answers
  | answers, .asked q reply :: l, left =>
    reply = (answer m q (start answers)).1 ∧ Serves m (answer m q (start answers)).2.answers l left
  | answers, .heard _ :: l, left => Serves m answers l left

/-- The record does not matter to an answer, and grows by the question, if that is no menu without entries. -/
theorem answer_eq (m : Manner) {q : Question} {reply : Except Error Text} (hq : (Exchange.asked q reply).Offers)
    (s : Script) :
    answer m q s =
      ((answer m q (start s.answers)).1, ⟨(answer m q (start s.answers)).2.answers, s.events ++ [.asked q]⟩) := by
  obtain ⟨answers, events⟩ := s
  rcases q with ⟨message, _ | ⟨c, choices⟩⟩ | text
  · exact absurd rfl hq
  · cases m <;> cases answers <;> rfl
  · cases m <;> cases answers <;> rfl

/-- **What a script gives**: its answers serve the talk, and all of it is recorded. -/
theorem gives_iff_serves (m : Manner) : ∀ {l : List Exchange} {s t : Script}, (∀ x ∈ l, x.Offers) →
    ((partner m).Gives s l t ↔ Serves m s.answers l t.answers ∧ t.events = s.events ++ l.map Exchange.event)
  | [], ⟨answers, events⟩, ⟨answers', events'⟩, _ => by simp [Partner.Gives, Serves]
  | .asked q reply :: l, s, t, h => by
    obtain ⟨hq, hl⟩ := List.forall_mem_cons.1 h
    have hanswer : (partner m).answer q s = _ := answer_eq m hq s
    rw [Partner.Gives, hanswer, gives_iff_serves m hl, Serves, and_assoc, List.append_assoc]
    rfl
  | .heard r :: l, s, t, h => by
    obtain ⟨-, hl⟩ := List.forall_mem_cons.1 h
    rw [Partner.Gives, gives_iff_serves m hl, Serves, List.map_cons, List.append_cons]
    rfl

theorem serves_heardOnce (m : Manner) : ∀ {l : List Exchange} {noticed : Bool} {answers left : List Text},
    Serves m answers (heardOnce noticed l) left ↔ Serves m answers l left
  | [], _, _, _ => Iff.rfl
  | .asked q reply :: l, noticed, answers, left => by
    rw [heardOnce_asked, Serves, Serves, serves_heardOnce m]
  | .heard r :: l, noticed, answers, left => by
    rw [heardOnce]
    split
    · exact serves_heardOnce m
    · exact serves_heardOnce m

variable {α : Type} {d : Dialogue α}

/-- **A script's answers serve the talk of its run.** -/
theorem exists_served_talk (m : Manner) (hd : d.Says Exchange.Offers) (s : Attending Script) :
    ∃ l, d.Talk l (d.run (partner m).attending s).1 ∧ (partner m).attending.Gives s l (d.run (partner m).attending s).2 ∧
      Serves m s.partner.answers l (d.run (partner m).attending s).2.partner.answers := by
  have htalk := d.talk_transcript (partner m).attending s
  have hgives := d.gives_transcript (partner m).attending s
  have hoffers : ∀ x ∈ heardOnce s.noticed (d.transcript (partner m).attending s), x.Offers :=
    fun x hx => hd _ _ htalk x (mem_of_mem_heardOnce hx)
  obtain ⟨hserves, -⟩ := (gives_iff_serves m hoffers).1 ((Partner.gives_attending_iff _ _ _ _).1 hgives).1
  exact ⟨_, htalk, hgives, (serves_heardOnce m).1 hserves⟩

/-- **A talk that a script's answers serve is its run**, and what is heard of it is recorded. -/
theorem run_of_serves (m : Manner) (hd : d.Says Exchange.Offers) {l : List Exchange} {r : Except Error α}
    (s : Attending Script) {left : List Text} (htalk : d.Talk l r) (hserves : Serves m s.partner.answers l left) :
    d.run (partner m).attending s =
      (r, ⟨⟨left, s.partner.events ++ (heardOnce s.noticed l).map Exchange.event⟩,
        s.noticed || l.any Exchange.isNotice⟩) := by
  have hoffers : ∀ x ∈ heardOnce s.noticed l, x.Offers := fun x hx => hd l r htalk x (mem_of_mem_heardOnce hx)
  refine Dialogue.run_eq_of_talk _ _ _ _ _ _ htalk ?_
  exact (Partner.gives_attending_iff _ _ _ _).2
    ⟨(gives_iff_serves m hoffers).2 ⟨(serves_heardOnce m).2 hserves, rfl⟩, rfl⟩

end Script

namespace Session

open Dialogue

/-- **What a session may be asked for.** -/
inductive Call where
  | run
  | selectKind
  | compose (kind : Kind)
deriving DecidableEq, Repr

/-- What a call gives. -/
inductive Outcome where
  | command (text : Text)
  | kind (kind : Kind)
  | draft (draft : Draft)

def Call.dialogue (catalog : Catalog) : Call → Dialogue Outcome
  | .run => do return .command (← Session.command catalog)
  | .selectKind => do return .kind (← Session.selectKind)
  | .compose kind => do return .draft (← Session.compose catalog kind)

theorem says_call (catalog : Catalog) (call : Call) :
    (call.dialogue catalog).Says (Utterance labels catalog.reason?) := by
  cases call with
  | run => exact says_bind (Utterance.says_command catalog) (fun _ => says_done _)
  | selectKind => exact says_bind Utterance.says_selectKind (fun _ => says_done _)
  | compose kind => exact says_bind (Utterance.says_compose catalog kind) (fun _ => says_done _)

theorem offers_call (catalog : Catalog) (call : Call) : (call.dialogue catalog).Says Exchange.Offers :=
  fun l r htalk x hx => (says_call catalog call l r htalk x hx).offers

/-- **Calls on one session**, one after the other, with their results; one that fails does not end the session. -/
def makeAll (p : Partner σ) (catalog : Catalog) :
    List Call → Attending σ → List (Except Error Outcome) × Attending σ
  | [], s => ([], s)
  | call :: calls, s =>
    let first := (call.dialogue catalog).run p.attending s
    let rest := makeAll p catalog calls first.2
    (first.1 :: rest.1, rest.2)

/-- **The talks of calls**: one of each, one behind the other. -/
inductive Talks (catalog : Catalog) : List Call → List Exchange → List (Except Error Outcome) → Prop where
  | nil : Talks catalog [] [] []
  | cons {call : Call} {calls : List Call} {l l' : List Exchange} {r : Except Error Outcome}
      {rs : List (Except Error Outcome)} (h : (call.dialogue catalog).Talk l r) (h' : Talks catalog calls l' rs) :
      Talks catalog (call :: calls) (l ++ l') (r :: rs)

theorem Talks.said {catalog : Catalog} {calls : List Call} {l : List Exchange} {rs : List (Except Error Outcome)}
    (h : Talks catalog calls l rs) : ∀ x ∈ l, Utterance labels catalog.reason? x := by
  induction h with
  | nil => exact nofun
  | cons h _ ih => exact List.forall_mem_append.2 ⟨says_call catalog _ _ _ h, ih⟩

theorem talks_makeAll (p : Partner σ) (catalog : Catalog) : ∀ (calls : List Call) (s : Attending σ),
    ∃ l, Talks catalog calls l (makeAll p catalog calls s).1 ∧
      p.attending.Gives s l (makeAll p catalog calls s).2
  | [], s => ⟨[], .nil, rfl⟩
  | call :: calls, s => by
    have htalk := (call.dialogue catalog).talk_transcript p.attending s
    have hgives := (call.dialogue catalog).gives_transcript p.attending s
    obtain ⟨l', htalks, hgives'⟩ := talks_makeAll p catalog calls ((call.dialogue catalog).run p.attending s).2
    exact ⟨_, .cons htalk htalks, (Partner.gives_append _ _ _ _ _).2 ⟨_, hgives, hgives'⟩⟩

/-- **All that passes between a session and its partner**, over all the calls on it. -/
def sessionTalk (p : Partner σ) (catalog : Catalog) (calls : List Call) (s : σ) : List Exchange :=
  (makeAll p.recorded catalog calls ⟨⟨s, []⟩, false⟩).2.partner.talk

/-- **What is said in a session** are the talks of its calls, without the notices after the first. -/
theorem sessionTalk_eq (p : Partner σ) (catalog : Catalog) (calls : List Call) (s : σ) :
    ∃ l rs, Talks catalog calls l rs ∧ sessionTalk p catalog calls s = heardOnce false l := by
  obtain ⟨l, htalks, hgives⟩ := talks_makeAll p.recorded catalog calls ⟨⟨s, []⟩, false⟩
  obtain ⟨hrecorded, -⟩ := (Partner.gives_attending_iff _ _ _ _).1 hgives
  obtain ⟨-, htalk⟩ := (Partner.gives_recorded_iff _ _ _ _).1 hrecorded
  exact ⟨l, _, htalks, htalk⟩

/-- **A call with a script** has one talk and one result for all sessions whose partner has the same answers left. -/
theorem exists_run (m : Script.Manner) (catalog : Catalog) (call : Call) (answers : List Text) :
    ∃ l r left, (∀ x ∈ l, Utterance labels catalog.reason? x) ∧ ∀ s : Attending Script, s.partner.answers = answers →
      (call.dialogue catalog).run (Script.partner m).attending s =
        (r, ⟨⟨left, s.partner.events ++ (heardOnce s.noticed l).map Exchange.event⟩,
          s.noticed || l.any Exchange.isNotice⟩) := by
  obtain ⟨l, htalk, -, hserves⟩ := Script.exists_served_talk m (offers_call catalog call) ⟨Script.start answers, false⟩
  generalize (call.dialogue catalog).run (Script.partner m).attending ⟨Script.start answers, false⟩ = result
    at htalk hserves
  refine ⟨l, result.1, result.2.partner.answers, says_call catalog call l _ htalk, fun s hs => ?_⟩
  subst hs
  exact Script.run_of_serves m (offers_call catalog call) s htalk hserves

/-- **What a call with a script comes to**: its result, the answers that it leaves, and what it adds to the record. -/
structure Log where
  result : Except Error Outcome
  left : List Text
  events : List Event

def Call.log (m : Script.Manner) (catalog : Catalog) (call : Call) (s : Attending Script) : Log :=
  let r := (call.dialogue catalog).run (Script.partner m).attending s
  ⟨r.1, r.2.partner.answers, r.2.partner.events.drop s.partner.events.length⟩

/-- What the calls on one session come to. -/
def logs (m : Script.Manner) (catalog : Catalog) : List Call → Attending Script → List Log
  | [], _ => []
  | call :: calls, s =>
    call.log m catalog s :: logs m catalog calls ((call.dialogue catalog).run (Script.partner m).attending s).2

/-- What the calls come to on a new session each, with the answers that the call before has left. -/
def freshLogs (m : Script.Manner) (catalog : Catalog) : List Call → List Text → List Log
  | [], _ => []
  | call :: calls, answers =>
    let log := call.log m catalog ⟨Script.start answers, false⟩
    log :: freshLogs m catalog calls log.left

/-- The log without the warning of a catalog that is not available. -/
def Log.unwarned (log : Log) : Log := { log with events := log.events.filter fun e => !e.warnsUnavailable }

/-- What is said but for the notice does not depend on whether the notice was heard before. -/
theorem filter_events_heardOnce {l : List Exchange} {reason? : Option Text}
    (h : ∀ x ∈ l, Utterance labels reason? x) (noticed : Bool) :
    ((heardOnce noticed l).map Exchange.event).filter (fun e => !e.warnsUnavailable) =
      (l.filter fun x => !x.isNotice).map Exchange.event := by
  rw [List.filter_map, ← filter_heardOnce l noticed]
  refine congrArg (List.map Exchange.event) (List.filter_congr (fun x hx => ?_))
  rw [← (h x (mem_of_mem_heardOnce hx)).warnsUnavailable_eq]
  rfl

/-- **A call's log** but for the warning depends on the answers alone, and leaves the session with those it names. -/
theorem log_eq (m : Script.Manner) (catalog : Catalog) (call : Call) (s : Attending Script) :
    (call.log m catalog s).unwarned = (call.log m catalog ⟨Script.start s.partner.answers, false⟩).unwarned ∧
    ((call.dialogue catalog).run (Script.partner m).attending s).2.partner =
      ⟨(call.log m catalog ⟨Script.start s.partner.answers, false⟩).left,
        s.partner.events ++ (call.log m catalog s).events⟩ := by
  obtain ⟨l, r, left, hsaid, hrun⟩ := exists_run m catalog call s.partner.answers
  have hused := hrun s rfl
  have hnew := hrun ⟨Script.start s.partner.answers, false⟩ rfl
  unfold Call.log Log.unwarned
  rw [hused, hnew]
  simp only [List.drop_left, Script.start, List.length_nil, List.nil_append, List.drop_zero,
    filter_events_heardOnce hsaid, and_self]

/-- **Logs of calls on one session**, by induction on the calls: what is kept is that the answers left are the same. -/
theorem logs_eq (m : Script.Manner) (catalog : Catalog) : ∀ (calls : List Call) (s : Attending Script),
    (logs m catalog calls s).map Log.unwarned = (freshLogs m catalog calls s.partner.answers).map Log.unwarned ∧
    (logs m catalog calls s).map Log.result = (makeAll (Script.partner m) catalog calls s).1 ∧
    (makeAll (Script.partner m) catalog calls s).2.partner.events =
      s.partner.events ++ (logs m catalog calls s).flatMap Log.events
  | [], s => ⟨rfl, rfl, (List.append_nil _).symm⟩
  | call :: calls, s => by
    obtain ⟨hlog, hleft⟩ := log_eq m catalog call s
    obtain ⟨hlogs, hresults, hevents⟩ :=
      logs_eq m catalog calls ((call.dialogue catalog).run (Script.partner m).attending s).2
    rw [hleft] at hlogs hevents
    refine ⟨?_, congrArg (_ :: ·) hresults, ?_⟩
    · rw [logs, freshLogs, List.map_cons, List.map_cons, hlog, hlogs]
    · rw [makeAll, hevents, logs, List.flatMap_cons, List.append_assoc]

/-- **Calls on one session do not influence each other.**  What each of them comes to, but for the warning of a catalog
that is not available, is what it comes to on a new session with the answers that are left; and this is all that the
calls result in and all that is recorded. -/
theorem calls_independent (m : Script.Manner) (catalog : Catalog) (calls : List Call) (answers : List Text) :
    (logs m catalog calls ⟨Script.start answers, false⟩).map Log.unwarned =
      (freshLogs m catalog calls answers).map Log.unwarned ∧
    (logs m catalog calls ⟨Script.start answers, false⟩).map Log.result =
      (makeAll (Script.partner m) catalog calls ⟨Script.start answers, false⟩).1 ∧
    (logs m catalog calls ⟨Script.start answers, false⟩).flatMap Log.events =
      (makeAll (Script.partner m) catalog calls ⟨Script.start answers, false⟩).2.partner.events := by
  obtain ⟨hlogs, hresults, hevents⟩ := logs_eq m catalog calls ⟨Script.start answers, false⟩
  exact ⟨hlogs, hresults, hevents.symm⟩

end Session
end CommandComposer
