import Mathlib.Data.List.Nodup
import Mathlib.Data.List.Pairwise
import CommandComposer.Proofs.ScriptRun
/-!
# LineQuestions — what each question for a line refuses

A question for a line has one reader wherever it is asked, so its text says which answers are refused and why
(`LineQuestion`, `Session.lineQuestions`).  Refused answers change nothing but the talk: they may stand in front of any
talk that opens with the question (`talk_rounds_attempts`), and asking until an answer is accepted is any number of them
and then the reply that counts (`talk_askRequired_iff`).
-/
namespace CommandComposer

open Dialogue

/-- **A question for a line**, and why it refuses an answer, if it does. -/
structure LineQuestion where
  text : Text
  refusal? : Text → Option Text

namespace LineQuestion

def refusalOf {α : Type} : Except Text α → Option Text
  | .ok _ => none
  | .error reason => some reason

theorem refusalOf_eq_some {α : Type} {x : Except Text α} {reason : Text} (h : refusalOf x = some reason) :
    x = .error reason := by
  cases x with
  | ok a => cases h
  | error e => exact congrArg Except.error (Option.some.inj h)

def required {α : Type} (message : Text) (reader : Reader α) : LineQuestion where
  text := message ++ ": "
  refusal? raw := refusalOf (reader raw.trim)

/-- A question that one may back out of; going back is no refusal. -/
def escapable {α : Type} (message : Text) (reader : Reader α) : LineQuestion where
  text := message ++ ". Type \"" ++ backWord ++ "\" to go back: "
  refusal? raw := if goesBack raw then none else refusalOf (reader raw.trim)

theorem refusal?_escapable {α : Type} {message raw reason : Text} {reader : Reader α}
    (h : (escapable message reader).refusal? raw = some reason) :
    goesBack raw = false ∧ reader raw.trim = .error reason := by
  unfold escapable at h
  dsimp only at h
  split at h
  · cases h
  · rename_i hback
    exact ⟨by simpa using hback, refusalOf_eq_some h⟩

/-- An answer that is refused, and so does not go back, ends its round where it began. -/
theorem refuse_of_refusal? {α β γ : Type} {message raw reason : Text} {reader : Reader α}
    (h : (escapable message reader).refusal? raw = some reason) (back : Dialogue (Turn β γ))
    (next : α → Dialogue (Turn β γ)) (state : β) :
    (if goesBack raw then back
      else
        match reader raw.trim with
        | .ok a => next a
        | .error reason => refuse state reason) = refuse state reason := by
  obtain ⟨hstays, hread⟩ := refusal?_escapable h
  rw [if_neg (by simp [hstays]), hread]

def yesNo (message : Text) : LineQuestion := required (message ++ " (y/N)") (readYes false)

def Refuses (q : LineQuestion) (raw : Text) : Prop := ∃ reason, q.refusal? raw = some reason

/-- An answer, and the reason why it is refused, if it is. -/
def attempt (q : LineQuestion) (raw : Text) : List Exchange :=
  .asked (.line q.text) (.ok raw) :: (q.refusal? raw).toList.map fun reason => .heard (.message .error reason)

def attempts (q : LineQuestion) (answers : List Text) : List Exchange := answers.flatMap q.attempt

theorem attempts_cons (q : LineQuestion) (raw : Text) (answers : List Text) :
    q.attempts (raw :: answers) = q.attempt raw ++ q.attempts answers := List.flatMap_cons

variable {q : LineQuestion}

theorem attempt_of_refused {raw reason : Text} (h : q.refusal? raw = some reason) :
    q.attempt raw = [.asked (.line q.text) (.ok raw), .heard (.message .error reason)] := by
  rw [attempt, h]
  rfl

theorem replies_attempt (q : LineQuestion) (raw : Text) : replies (q.attempt raw) = [raw] := by
  unfold attempt
  cases q.refusal? raw <;> rfl

theorem replies_attempts (q : LineQuestion) : ∀ answers : List Text, replies (q.attempts answers) = answers
  | [] => rfl
  | raw :: answers => by
    rw [attempts_cons, replies_append, replies_attempt, replies_attempts q answers]
    rfl

theorem given_attempt (q : LineQuestion) (raw : Text) : ∀ x ∈ q.attempt raw, x.Given := by
  intro x hx
  rcases List.mem_cons.1 hx with rfl | hx
  · exact Exchange.given_line _ _
  · obtain ⟨reason, -, rfl⟩ := List.mem_map.1 hx
    exact Exchange.given_message _ _

theorem mem_attempts {answers : List Text} {x : Exchange} (h : x ∈ q.attempts answers) :
    (∃ raw ∈ answers, x = .asked (.line q.text) (.ok raw)) ∨ ∃ reason, x = .heard (.message .error reason) := by
  obtain ⟨raw, hraw, hx⟩ := List.mem_flatMap.1 h
  rcases List.mem_cons.1 hx with rfl | hx
  · exact .inl ⟨raw, hraw, rfl⟩
  · obtain ⟨reason, -, rfl⟩ := List.mem_map.1 hx
    exact .inr ⟨reason, rfl⟩

theorem given_attempts (q : LineQuestion) (answers : List Text) : ∀ x ∈ q.attempts answers, x.Given := by
  intro x hx
  obtain ⟨raw, -, hraw⟩ := List.mem_flatMap.1 hx
  exact q.given_attempt raw x hraw

variable {β γ : Type} {round : β → Text → Dialogue (Turn β γ)} {b : β}

/-- **A refused answer comes before the rest**, and leaves the state of the rounds as it is. -/
theorem talk_rounds_attempt (hrefuse : ∀ raw reason, q.refusal? raw = some reason → round b raw = refuse b reason)
    {raw : Text} (hraw : q.Refuses raw) {l : List Exchange} {r : Except Error γ}
    (h : (rounds (fun _ => .line q.text) round b).Talk l r) :
    (rounds (fun _ => .line q.text) round b).Talk (q.attempt raw ++ l) r := by
  obtain ⟨reason, hreason⟩ := hraw
  have hround : (round b raw).Talk [.heard (.message .error reason)] (.ok (.again b)) := by
    rw [hrefuse raw reason hreason]
    exact (talk_tell_done _ _ _ _).2 ⟨rfl, rfl⟩
  rw [attempt_of_refused hreason]
  exact .again b raw _ b _ r hround h

theorem talk_rounds_attempts (hrefuse : ∀ raw reason, q.refusal? raw = some reason → round b raw = refuse b reason)
    {l : List Exchange} {r : Except Error γ} (h : (rounds (fun _ => .line q.text) round b).Talk l r) :
    ∀ {answers : List Text}, (∀ raw ∈ answers, q.Refuses raw) →
      (rounds (fun _ => .line q.text) round b).Talk (q.attempts answers ++ l) r
  | [], _ => h
  | raw :: answers, hanswers => by
    have ih := talk_rounds_attempts hrefuse h (fun a ha => hanswers a (List.mem_cons_of_mem _ ha))
    rw [attempts_cons, List.append_assoc]
    exact talk_rounds_attempt hrefuse (hanswers raw List.mem_cons_self) ih

end LineQuestion

namespace Dialogue

variable {α : Type} {message : Text} {reader : Reader α}

/-- How asking ends: without an answer, or with one that is accepted. -/
def Settles (reader : Reader α) (reply : Except Error Text) (r : Except Error α) : Prop :=
  (∃ e, reply = .error e ∧ r = .error e) ∨ ∃ raw a, reply = .ok raw ∧ reader raw.trim = .ok a ∧ r = .ok a

theorem refuses_required (message : Text) {raw reason : Text} (h : reader raw.trim = .error reason) :
    (LineQuestion.required message reader).refusal? raw = some reason := congrArg LineQuestion.refusalOf h

theorem attempts_of_talk {l : List Exchange} {r : Except Error α} (h : (askRequired message reader).Talk l r) :
    ∃ refused reply, (∀ raw ∈ refused, (LineQuestion.required message reader).Refuses raw) ∧ Settles reader reply r ∧
      l = (LineQuestion.required message reader).attempts refused ++ [.asked (required message) reply] := by
  have hrounds : RoundsTalk (fun _ : Unit => required message) _ () l r := h
  clear h
  -- the rounds have one state only, but the induction asks for a variable
  generalize () = state at hrounds
  induction hrounds with
  | unanswered _ e => exact ⟨[], .error e, nofun, .inl ⟨e, rfl, rfl⟩, rfl⟩
  | failed _ raw l e h =>
    dsimp only at h
    split at h
    · cases h.2
    · cases (talk_refuse h).2
  | finished _ raw l c h =>
    dsimp only at h
    split at h
    · rename_i hread
      obtain ⟨rfl, heq⟩ := h
      cases heq
      exact ⟨[], .ok raw, nofun, .inr ⟨raw, c, rfl, hread, rfl⟩, rfl⟩
    · cases (talk_refuse h).2
  | again _ raw l _ l' r h _ ih =>
    dsimp only at h
    split at h
    · cases h.2
    · rename_i reason hread
      obtain ⟨rfl, -⟩ := talk_refuse h
      obtain ⟨refused, reply, hrefused, hsettles, rfl⟩ := ih
      have hreason := refuses_required message hread
      refine ⟨raw :: refused, reply, List.forall_mem_cons.2 ⟨⟨reason, hreason⟩, hrefused⟩, hsettles, ?_⟩
      rw [LineQuestion.attempts_cons, LineQuestion.attempt_of_refused hreason, List.append_assoc]
      rfl

theorem talk_of_settles {reply : Except Error Text} {r : Except Error α} (h : Settles reader reply r) :
    (askRequired message reader).Talk [.asked (required message) reply] r := by
  rcases h with ⟨e, rfl, rfl⟩ | ⟨raw, a, rfl, hread, rfl⟩
  · exact .unanswered () e
  · refine .finished () raw [] a ?_
    dsimp only
    rw [hread]
    exact ⟨rfl, rfl⟩

/-- **Asking until an answer is accepted** is any number of refused answers, and then the reply that settles it. -/
theorem talk_askRequired_iff {l : List Exchange} {r : Except Error α} :
    (askRequired message reader).Talk l r ↔
      ∃ refused reply, (∀ raw ∈ refused, (LineQuestion.required message reader).Refuses raw) ∧
        Settles reader reply r ∧
        l = (LineQuestion.required message reader).attempts refused ++ [.asked (required message) reply] := by
  refine ⟨attempts_of_talk, ?_⟩
  rintro ⟨refused, reply, hrefused, hsettles, rfl⟩
  refine LineQuestion.talk_rounds_attempts (q := .required message reader) (fun raw reason h => ?_)
    (talk_of_settles hsettles) hrefused
  rw [LineQuestion.refusalOf_eq_some h]

end Dialogue

def Enchantment.nameQuestion : LineQuestion :=
  .escapable "Enchantment name (e.g., sharpness, unbreaking)" Enchantment.readName

def Enchantment.levelQuestion : LineQuestion := .required "Enchantment level (1~255)" Enchantment.readLevel

/-- The questions that ask for a value of a kind; what is picked from a menu is not asked for. -/
def ValueKind.lineQuestions : ValueKind → List LineQuestion
  | .text prompt reason => [.escapable prompt (readText reason)]
  | .quoted prompt reason => [.escapable prompt (readQuoted reason)]
  | .integer prompt reason bounds => [.escapable prompt (readInteger reason bounds)]
  | .truth prompt => [.escapable prompt readTruth]
  | .choice .. => []
  | .lore prompt => [.escapable prompt Lore.reader]
  | .enchantments => [Enchantment.nameQuestion, Enchantment.levelQuestion]
  | .food prompt => [.escapable prompt Food.reader]

def Schema.lineQuestions (schema : Schema) : List LineQuestion :=
  schema.keys.flatMap fun spec => spec.value.lineQuestions

namespace Session

def positionQuestion (message : Text) : LineQuestion :=
  .required message (readPosition "Please enter a position as three coordinates (e.g., 0 64 0 or ~ ~1 ~).")

def textQuestion (message reason : Text) : LineQuestion := .required message (readIf (fun t => !t.allBlank) reason)

/-- The questions for a line that are asked for a kind of command, in order; those of the builders come last. -/
def kindQuestions (catalog : Catalog) : Kind → List LineQuestion
  | .give =>
    [.yesNo "Want to further refine your target selector?",
      textQuestion "Item name (e.g., diamond)" "Please enter an item name.",
      .yesNo "Want to add item components?",
      .required "Item amount (How many? If empty, it'll set 1.)" readAmount] ++
      (Schema.selectors.lineQuestions ++ Schema.components.lineQuestions)
  | .teleport => [.required "Destination player/entity or coordinates (e.g., @p or 0 64 0)" readDestination]
  | .setblock =>
    [positionQuestion "Position (e.g., 0 64 0)", .required "Block (e.g., diamond_block)" (readBlock catalog)]
  | .fill =>
    [positionQuestion "From position (e.g., 0 64 0)", positionQuestion "To position (e.g., 10 64 10)",
      .required "Block (e.g., stone)" (readBlock catalog)]
  | .say => [textQuestion "Message" "Please enter a message."]
  | .execute =>
    [textQuestion "Target selector (e.g., @a)" "Please enter a target.",
      textQuestion "Command to execute" "Please enter a command."]

/-- **The questions for a line that a session asks**, each with its reader. -/
def lineQuestions (catalog : Catalog) : List LineQuestion := Kind.all.flatMap (kindQuestions catalog)

theorem mem_lineQuestions {catalog : Catalog} {kind : Kind} {q : LineQuestion} (h : q ∈ kindQuestions catalog kind) :
    q ∈ lineQuestions catalog := List.mem_flatMap.2 ⟨kind, kind.mem_all, h⟩

/-- **No two questions have one text**, so the text of a question says which reader it has. -/
theorem nodup_lineQuestions (catalog : Catalog) : ((lineQuestions catalog).map LineQuestion.text).Nodup := by
  have hany : (lineQuestions catalog).map LineQuestion.text =
      [Kind.give, .teleport, .setblock, .fill, .say, .execute].flatMap (fun kind =>
        (kindQuestions (.unavailable []) kind).map LineQuestion.text) := rfl
  rw [hany]
  simp only [List.flatMap_cons, List.flatMap_nil]
  unfold kindQuestions Schema.lineQuestions Schema.selectors Schema.components LineQuestion.yesNo positionQuestion
    textQuestion LineQuestion.required Schema.foodPrompt
  -- as lists of characters the texts are compared without being decoded first
  repeat rw [String.toList_ofList]
  decide +kernel

/-- The texts of the questions for a kind of command. -/
def kindTexts (catalog : Catalog) (kind : Kind) : List Text := (kindQuestions catalog kind).map LineQuestion.text

theorem nodup_kindTexts (catalog : Catalog) :
    (∀ kind ∈ Kind.all, (kindTexts catalog kind).Nodup) ∧
      Kind.all.Pairwise (Function.onFun List.Disjoint (kindTexts catalog)) := by
  have hqs := nodup_lineQuestions catalog
  rwa [lineQuestions, List.map_flatMap, List.nodup_flatMap] at hqs

theorem getElem?_kindTexts {catalog : Catalog} {kind : Kind} {i : Nat} {q : LineQuestion}
    (hq : (kindQuestions catalog kind)[i]? = some q) : (kindTexts catalog kind)[i]? = some q.text := by
  rw [kindTexts, List.getElem?_map, hq]
  rfl

theorem text_ne_of_kind {catalog : Catalog} {kind kind' : Kind} (hkind : kind ≠ kind') {q q' : LineQuestion}
    (hq : q ∈ kindQuestions catalog kind) (hq' : q' ∈ kindQuestions catalog kind') : q.text ≠ q'.text := by
  intro htext
  have hsymm : Std.Symm (Function.onFun List.Disjoint (kindTexts catalog)) := ⟨fun _ _ h _ ha hb => h hb ha⟩
  have hdisjoint := (nodup_kindTexts catalog).2.forall kind.mem_all kind'.mem_all hkind
  have hmem : q.text ∈ kindTexts catalog kind := List.mem_map_of_mem hq
  have hmem' : q'.text ∈ kindTexts catalog kind' := List.mem_map_of_mem hq'
  exact hdisjoint hmem (htext ▸ hmem')

theorem text_ne_of_index {catalog : Catalog} {kind : Kind} {i j : Nat} (hij : i ≠ j) {q q' : LineQuestion}
    (hq : (kindQuestions catalog kind)[i]? = some q) (hq' : (kindQuestions catalog kind)[j]? = some q') :
    q.text ≠ q'.text := by
  intro htext
  have hi := getElem?_kindTexts hq
  have hj := getElem?_kindTexts hq'
  obtain ⟨hlt, -⟩ := List.getElem?_eq_some_iff.1 hi
  have hnodup := (nodup_kindTexts catalog).1 kind kind.mem_all
  exact hij ((List.getElem?_inj hlt hnodup).1 (by rw [hi, hj, htext]))

theorem text_ne_of_place {catalog : Catalog} {kind kind' : Kind} {i j : Nat} (h : kind = kind' → i ≠ j)
    {q q' : LineQuestion} (hq : (kindQuestions catalog kind)[i]? = some q)
    (hq' : (kindQuestions catalog kind')[j]? = some q') : q.text ≠ q'.text := by
  by_cases hkind : kind = kind'
  · subst hkind
    exact text_ne_of_index (h rfl) hq hq'
  · exact text_ne_of_kind hkind (List.mem_of_getElem? hq) (List.mem_of_getElem? hq')

/-- The questions for a line but for those with one of these texts. -/
def questionsBut (catalog : Catalog) (texts : List Text) : List LineQuestion :=
  (lineQuestions catalog).filter fun q => !texts.contains q.text

theorem mem_questionsBut_iff {catalog : Catalog} {texts : List Text} {q : LineQuestion} :
    q ∈ questionsBut catalog texts ↔ q ∈ lineQuestions catalog ∧ q.text ∉ texts := by
  rw [questionsBut, List.mem_filter, Bool.not_eq_true', List.contains_eq_mem, decide_eq_false_iff_not]

theorem nodup_questionsBut (catalog : Catalog) (texts : List Text) :
    ((questionsBut catalog texts).map LineQuestion.text).Nodup :=
  (nodup_lineQuestions catalog).sublist (List.Sublist.map _ List.filter_sublist)

end Session
end CommandComposer
