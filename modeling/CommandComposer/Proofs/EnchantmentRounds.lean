import CommandComposer.Proofs.Calls
import CommandComposer.Proofs.Detours
/-!
# EnchantmentRounds — which answers enter enchantments

An enchantment is entered by a name behind blank answers and a level behind answers that are no levels (`Entry`); going
back is an answer to the question for a name, and to the question for a level it is one that is no level.  A round goes
back, takes a blank or takes an entry, and nothing else (`cases_of_leads_round`); so what answers come to is read off
their entries, and going back at a name drops all of them (`leads_collectFrom_iff`).
-/
namespace CommandComposer
namespace Enchantment

open Dialogue

/-- A level: a numeral worth 1 to 255. -/
def IsLevel (t : Text) : Prop := Numeral.isNumeral t = true ∧ 1 ≤ Numeral.value t ∧ Numeral.value t ≤ 255

instance (t : Text) : Decidable (IsLevel t) :=
  inferInstanceAs (Decidable (Numeral.isNumeral t = true ∧ 1 ≤ Numeral.value t ∧ Numeral.value t ≤ 255))

/-- **The answers that enter an enchantment.** -/
structure Entry where
  blanks : List Text
  name : Text
  misses : List Text
  level : Text
  blank : ∀ a ∈ blanks, a.trim = []
  named : name.trim ≠ []
  stays : goesBack name = false
  missed : ∀ a ∈ misses, ¬ IsLevel a.trim
  isLevel : IsLevel level.trim

namespace Entry

def answers (e : Entry) : List Text := e.blanks ++ e.name :: (e.misses ++ [e.level])

/-- The answers of an entry that another one follows. -/
def again (e : Entry) : List Text := e.answers ++ [("y" : Text)]

theorem answers_append (e : Entry) (pick : Text) :
    e.answers ++ [pick] = e.blanks ++ e.name :: (e.misses ++ [e.level, pick]) := by
  simp [answers]

def enchantment (e : Entry) : Enchantment := ⟨e.name.trim, Numeral.ofNat (Numeral.value e.level.trim)⟩

def behind (e : Entry) (a : Text) (ha : a.trim = []) : Entry :=
  { e with blanks := a :: e.blanks, blank := List.forall_mem_cons.2 ⟨ha, e.blank⟩ }

end Entry

theorem goesBack_of_blank {raw : Text} (h : raw.trim = []) : goesBack raw = false := by
  rw [goesBack, h]
  rfl

theorem nameQuestion_refuses {raw : Text} (h : raw.trim = []) : nameQuestion.Refuses raw := by
  refine ⟨"Please enter an enchantment name.", ?_⟩
  have hread : readName raw.trim = .error "Please enter an enchantment name." := by
    rw [h]
    rfl
  rw [nameQuestion, LineQuestion.escapable]
  dsimp only
  rw [goesBack_of_blank h, hread]
  rfl

theorem readLevel_eq_ok_iff {t level : Text} :
    readLevel t = .ok level ↔ IsLevel t ∧ level = Numeral.ofNat (Numeral.value t) := by
  have hbounded : Numeral.isBounded levels t = true ↔ IsLevel t := Numeral.isBounded_iff (by decide)
  rw [readLevel]
  by_cases h : Numeral.isBounded levels t = true
  · rw [if_pos h, Except.ok.injEq, Numeral.dropZeros_eq_ofNat (hbounded.1 h).1, and_iff_right (hbounded.1 h), eq_comm]
  · rw [if_neg h]
    exact iff_of_false (fun heq => by cases heq) (fun hlevel => h (hbounded.2 hlevel.1))

theorem levelQuestion_refuses_iff {raw : Text} : levelQuestion.Refuses raw ↔ ¬ IsLevel raw.trim := by
  have hok := fun level => @readLevel_eq_ok_iff raw.trim level
  constructor
  · rintro ⟨reason, hreason⟩ hlevel
    have hread := LineQuestion.refusalOf_eq_some hreason
    rw [(hok _).2 ⟨hlevel, rfl⟩] at hread
    cases hread
  · intro hnot
    cases hread : readLevel raw.trim with
    | ok level => exact absurd ((hok level).1 hread).1 hnot
    | error reason => exact ⟨reason, refuses_required _ hread⟩

theorem offered_more_iff {pick : Text} : Script.offered more pick = true ↔ pick = "y" ∨ pick = "N" := by
  simp only [Script.offered, more, Choice.described, List.any_cons, List.any_nil, Bool.or_false, Bool.or_eq_true,
    beq_iff_eq]
  rw [eq_comm, @eq_comm _ _ pick]

/-- What a round comes to behind a name and a level, by whether one more is picked. -/
def turnOf (collected : List Enchantment) (pick : Text) : Turn (List Enchantment) (Answer Text) :=
  if Text.sameLetters pick "y" then .again collected else .finish (.value (listText (collected.map text)))

/-- **Behind a name** come answers that are no levels, a level, and whether there is one more. -/
theorem leads_afterName_iff {collected : List Enchantment} {name : Text} {answers : List Text}
    {turn : Turn (List Enchantment) (Answer Text)} :
    (afterName collected name).Leads answers turn ↔
      ∃ (misses : List Text) (level pick : Text), (∀ a ∈ misses, ¬ IsLevel a.trim) ∧ IsLevel level.trim ∧
        (pick = "y" ∨ pick = "N") ∧ answers = misses ++ [level, pick] ∧
        turn = turnOf (collected ++ [⟨name, Numeral.ofNat (Numeral.value level.trim)⟩]) pick := by
  unfold afterName
  rw [leads_bind_iff]
  constructor
  · rintro ⟨read, _, _, hasked, hrest, rfl⟩
    obtain ⟨misses, level, hmisses, hread, rfl⟩ := leads_askRequired_iff.1 hasked
    obtain ⟨hlevel, rfl⟩ := readLevel_eq_ok_iff.1 hread
    obtain ⟨pick, _, _, hpick, hturn, rfl⟩ := leads_bind_iff.1 ((leads_tell_bind_iff (Exchange.given_echo _ _)).1 hrest)
    obtain ⟨hoffered, rfl⟩ := leads_ask_iff.1 hpick
    obtain ⟨rfl, rfl⟩ := leads_done_iff.1 hturn
    exact ⟨misses, level, pick, fun a ha => levelQuestion_refuses_iff.1 (hmisses a ha), hlevel,
      offered_more_iff.1 hoffered, by simp, rfl⟩
  · rintro ⟨misses, level, pick, hmisses, hlevel, hpick, rfl, rfl⟩
    refine ⟨Numeral.ofNat (Numeral.value level.trim), misses ++ [level], [pick], ?_, ?_, by simp⟩
    · exact leads_askRequired (fun a ha => levelQuestion_refuses_iff.2 (hmisses a ha))
        (readLevel_eq_ok_iff.2 ⟨hlevel, rfl⟩)
    · exact leads_tell_bind (Exchange.given_echo _ _)
        (leads_bind (leads_ask (offered_more_iff.2 hpick)) (leads_done _))

theorem round_of_back {collected : List Enchantment} {raw : Text} (h : goesBack raw = true) :
    round collected raw = done (.finish .back) := if_pos h

theorem round_of_name {collected : List Enchantment} {raw : Text} (hstays : goesBack raw = false)
    (hnamed : raw.trim ≠ []) : round collected raw = afterName collected raw.trim := by
  have hplain : raw.trim.allBlank = false := by
    rw [← Bool.not_eq_true, Text.allBlank_trim_iff]
    exact hnamed
  rw [round, if_neg (by simp [hstays]), readName, readIf, if_pos (by simp [hplain])]

/-- **Behind its name an entry takes a round to its end.** -/
theorem Entry.leads_round (e : Entry) {pick : Text} (hpick : pick = "y" ∨ pick = "N") (collected : List Enchantment) :
    (round collected e.name).Leads (e.misses ++ [e.level, pick]) (turnOf (collected ++ [e.enchantment]) pick) := by
  rw [round_of_name e.stays e.named]
  exact leads_afterName_iff.2 ⟨e.misses, e.level, pick, e.missed, e.isLevel, hpick, rfl, rfl⟩

/-- **All that a round may come to**: it goes back, it was answered with a blank, or it takes an entry. -/
theorem cases_of_leads_round {collected : List Enchantment} {raw : Text} {answers : List Text}
    {turn : Turn (List Enchantment) (Answer Text)} (h : (round collected raw).Leads answers turn) :
    (goesBack raw = true ∧ answers = [] ∧ turn = .finish .back) ∨
    (raw.trim = [] ∧ answers = [] ∧ turn = .again collected) ∨
    ∃ (e : Entry) (pick : Text), e.blanks = [] ∧ e.name = raw ∧ (pick = "y" ∨ pick = "N") ∧
      answers = e.misses ++ [e.level, pick] ∧ turn = turnOf (collected ++ [e.enchantment]) pick := by
  by_cases hback : goesBack raw = true
  · rw [round_of_back hback] at h
    exact .inl ⟨hback, leads_done_iff.1 h⟩
  have hstays : goesBack raw = false := by simpa using hback
  by_cases hblank : raw.trim = []
  · obtain ⟨reason, hreason⟩ := nameQuestion_refuses hblank
    rw [round_of_refused hreason] at h
    exact .inr (.inl ⟨hblank, leads_refuse_iff.1 h⟩)
  · rw [round_of_name hstays hblank] at h
    obtain ⟨misses, level, pick, hmisses, hlevel, hpick, hanswers, hturn⟩ := leads_afterName_iff.1 h
    exact .inr (.inr ⟨⟨[], raw, misses, level, nofun, hblank, hstays, hmisses, hlevel⟩, pick, rfl, rfl, hpick, hanswers,
      hturn⟩)

/-- The rounds that go on with what was collected before them. -/
def collectFrom (collected : List Enchantment) : Dialogue (Answer Text) :=
  rounds (fun _ => .line nameQuestion.text) round collected

/-- **The answers that finish a value**: entries that are each followed by one more, and the last one. -/
def Finishes (collected : List Enchantment) (answers : List Text) (v : Text) : Prop :=
  ∃ (es : List Entry) (last : Entry), answers = es.flatMap Entry.again ++ (last.answers ++ [("N" : Text)]) ∧
    v = listText ((collected ++ (es ++ [last]).map Entry.enchantment).map text)

/-- **The answers that go back**: entries that are each followed by one more, and going back at the next name. -/
def BacksOut (answers : List Text) : Prop :=
  ∃ (es : List Entry) (blanks : List Text) (raw : Text), (∀ a ∈ blanks, a.trim = []) ∧ goesBack raw = true ∧
    answers = es.flatMap Entry.again ++ (blanks ++ [raw])

/-- What answers come to behind the enchantments `collected` before them. -/
def Course (collected : List Enchantment) (answers : List Text) : Answer Text → Prop
  | .value v => Finishes collected answers v
  | .back => BacksOut answers

namespace Course

theorem blank {collected : List Enchantment} {answers : List Text} {r : Answer Text} {a : Text}
    (ha : a.trim = []) (h : Course collected answers r) : Course collected (a :: answers) r := by
  -- the blank joins those of the entry that comes next, or those before going back
  cases r with
  | value v =>
    obtain ⟨es, last, rfl, rfl⟩ := h
    cases es with
    | nil => exact ⟨[], last.behind a ha, rfl, rfl⟩
    | cons e es => exact ⟨e.behind a ha :: es, last, rfl, rfl⟩
  | back =>
    obtain ⟨es, blanks, raw, hblanks, hback, rfl⟩ := h
    cases es with
    | nil => exact ⟨[], a :: blanks, raw, List.forall_mem_cons.2 ⟨ha, hblanks⟩, hback, rfl⟩
    | cons e es => exact ⟨e.behind a ha :: es, blanks, raw, hblanks, hback, rfl⟩

theorem again {collected : List Enchantment} {answers : List Text} {r : Answer Text} (e : Entry)
    (h : Course (collected ++ [e.enchantment]) answers r) : Course collected (e.again ++ answers) r := by
  cases r with
  | value v =>
    obtain ⟨es, last, rfl, rfl⟩ := h
    exact ⟨e :: es, last, by simp, by simp⟩
  | back =>
    obtain ⟨es, blanks, raw, hblanks, hback, rfl⟩ := h
    exact ⟨e :: es, blanks, raw, hblanks, hback, by simp⟩

theorem of_finish {collected : List Enchantment} {raw : Text} {answers : List Text} {r : Answer Text}
    (h : (round collected raw).Leads answers (.finish r)) : Course collected (raw :: answers) r := by
  obtain ⟨hback, rfl, hturn⟩ | ⟨-, -, hturn⟩ | ⟨e, pick, hblanks, rfl, rfl | rfl, rfl, hturn⟩ := cases_of_leads_round h
  · cases hturn
    exact ⟨[], [], raw, nofun, hback, rfl⟩
  · cases hturn
  · cases hturn
  · cases hturn
    exact ⟨[], e, by simp [Entry.answers, hblanks], rfl⟩

theorem of_again {collected collected' : List Enchantment} {raw : Text} {answers answers' : List Text} {r : Answer Text}
    (h : (round collected raw).Leads answers (.again collected')) (hrest : Course collected' answers' r) :
    Course collected (raw :: (answers ++ answers')) r := by
  obtain ⟨-, -, hturn⟩ | ⟨hblank, rfl, hturn⟩ | ⟨e, pick, hblanks, rfl, rfl | rfl, rfl, hturn⟩ := cases_of_leads_round h
  · cases hturn
  · cases hturn
    exact hrest.blank hblank
  · cases hturn
    have hentered := hrest.again e
    simpa [Entry.again, Entry.answers, hblanks] using hentered
  · cases hturn

end Course

theorem leads_blanks {collected : List Enchantment} {blanks answers : List Text} {r : Answer Text}
    (hblanks : ∀ a ∈ blanks, a.trim = []) (h : (collectFrom collected).Leads answers r) :
    (collectFrom collected).Leads (blanks ++ answers) r :=
  leads_attempts (fun _ _ => round_of_refused) (fun a ha => nameQuestion_refuses (hblanks a ha)) h

/-- **Entries that are each followed by one more** lead to what is led to behind them. -/
theorem leads_entries {r : Answer Text} (es : List Entry) {answers : List Text} (collected : List Enchantment)
    (h : (collectFrom (collected ++ es.map Entry.enchantment)).Leads answers r) :
    (collectFrom collected).Leads (es.flatMap Entry.again ++ answers) r := by
  induction es generalizing collected with
  | nil => simpa using h
  | cons e es ih =>
    have hrest := ih (collected ++ [e.enchantment]) (by simpa using h)
    have hentered := leads_blanks e.blank (leads_again rfl (e.leads_round (.inl rfl) collected) hrest)
    simpa [Entry.again, Entry.answers] using hentered

/-- **Answers lead where their course goes**, and nowhere else. -/
theorem leads_collectFrom_iff {collected : List Enchantment} {answers : List Text} {r : Answer Text} :
    (collectFrom collected).Leads answers r ↔ Course collected answers r := by
  refine ⟨leads_rounds_induction (P := Course) (fun _ _ _ _ => Course.of_finish) (fun _ _ _ _ _ _ => Course.of_again),
    fun h => ?_⟩
  cases r with
  | value v =>
    obtain ⟨es, last, rfl, rfl⟩ := h
    rw [last.answers_append]
    refine leads_entries es collected (leads_blanks last.blank (leads_finish rfl ?_))
    rw [List.map_append (f := Entry.enchantment), ← List.append_assoc]
    exact last.leads_round (.inr rfl) _
  | back =>
    obtain ⟨es, blanks, raw, hblanks, hback, rfl⟩ := h
    refine leads_entries es collected (leads_blanks hblanks (leads_finish rfl ?_))
    rw [round_of_back hback]
    exact leads_done _

theorem exists_run_collect_iff {answers rest : List Text} {events : List Event} {r : Answer Text} :
    (∃ said, collect.run (Script.partner .checked) ⟨answers, events⟩ = (.ok r, ⟨rest, said⟩)) ↔
      ∃ taken, Course [] taken r ∧ answers = taken ++ rest := by
  have hplain : collect.Says fun x => x.isNotice = false := fun l r htalk x hx =>
    (Utterance.says_enchantments List.mem_cons_self l r htalk x hx : Utterance ["Enchantment"] none x).isNotice_eq_false
  rw [exists_run_iff hplain]
  exact exists_congr (fun taken => and_congr_left' leads_collectFrom_iff)

/-- **Backing out of enchantments leaves a builder's clauses as they were.** -/
theorem leads_round_of_backsOut {schema : Schema} {clauses : ClauseSet} {pick : Text} {spec : KeySpec}
    (hpick : pick ≠ Schema.okWord) (hspec : schema.picked? clauses pick = some spec)
    (hvalue : spec.value = .enchantments) {taken : List Text} (h : BacksOut taken) :
    (schema.round clauses pick).Leads taken (.again clauses) := by
  have hcollect : (spec.value.collect schema.noun).Leads taken .back := by
    rw [hvalue]
    exact leads_collectFrom_iff.2 h
  unfold Schema.round
  rw [if_neg hpick, hspec, ← List.append_nil taken]
  refine leads_tell_bind (Exchange.given_echo _ _) (leads_bind hcollect ?_)
  exact leads_tell_bind (Exchange.given_message _ _) (leads_done _)

/-- **Collecting enchantments is reading entries off the answers.**  It gives a value exactly when the answers finish
one, and is backed out of exactly when they go back; either takes these answers and no more.  What is backed out of is
in no clause of the builder that asked for it. -/
theorem collect_reads_entries (answers rest : List Text) (events : List Event) :
    (∀ v, (∃ said, collect.run (Script.partner .checked) ⟨answers, events⟩ = (.ok (.value v), ⟨rest, said⟩)) ↔
      ∃ taken, Finishes [] taken v ∧ answers = taken ++ rest) ∧
    ((∃ said, collect.run (Script.partner .checked) ⟨answers, events⟩ = (.ok .back, ⟨rest, said⟩)) ↔
      ∃ taken, BacksOut taken ∧ answers = taken ++ rest) ∧
    ((∃ taken, BacksOut taken ∧ answers = taken ++ rest) →
      ∀ (schema : Schema) (clauses : ClauseSet) (pick : Text) (spec : KeySpec), pick ≠ Schema.okWord →
        schema.picked? clauses pick = some spec → spec.value = .enchantments →
        ∃ said, (schema.round clauses pick).run (Script.partner .checked) ⟨answers, events⟩ =
          (.ok (.again clauses), ⟨rest, said⟩)) := by
  refine ⟨fun v => exists_run_collect_iff, exists_run_collect_iff, ?_⟩
  rintro ⟨taken, hback, hanswers⟩ schema clauses pick spec hpick hspec hvalue
  have hplain : (schema.round clauses pick).Says fun x => x.isNotice = false := fun l r htalk x hx =>
    (Utterance.says_round schema clauses pick l r htalk x hx : Utterance _ none x).isNotice_eq_false
  exact (exists_run_iff hplain).2 ⟨taken, leads_round_of_backsOut hpick hspec hvalue hback, hanswers⟩

/-- A level with zeros in front behind one that is none, and an enchantment that is dropped. -/
theorem collect_reads_entries_sharpness :
    (∃ said, collect.run (Script.partner .checked) ⟨["", "sharpness ", "back", "005", "N", "OK"], []⟩ =
      (.ok (.value "{sharpness:5}"), ⟨["OK"], said⟩)) ∧
    ∃ said, (Schema.components.round .empty "enchantments").run (Script.partner .checked)
      ⟨["sharpness", "5", "y", " Back", "OK"], []⟩ = (.ok (.again .empty), ⟨["OK"], said⟩) := by
  let sharpness : Entry :=
    ⟨[""], "sharpness ", ["back"], "005", by decide, by decide, by decide, by decide, by decide⟩
  let dropped : Entry := ⟨[], "sharpness", [], "5", by decide, by decide, by decide, by decide, by decide⟩
  have hback : BacksOut ["sharpness", "5", "y", " Back"] := ⟨[dropped], [], " Back", by decide, by decide, rfl⟩
  refine ⟨((collect_reads_entries _ ["OK"] []).1 _).2 ⟨_, ⟨[], sharpness, rfl, ?_⟩, rfl⟩, ?_⟩
  · decide
  · exact (collect_reads_entries _ ["OK"] []).2.2 ⟨_, hback, rfl⟩ _ _ _ _ (by decide)
      rfl rfl

end Enchantment
end CommandComposer
