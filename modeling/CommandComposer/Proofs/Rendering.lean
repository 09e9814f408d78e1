import CommandComposer.Command
/-!
# Rendering — what a draft is serialised to

A template is rendered in one pass: each literal as it is, each key as its value, and nothing in a value is read again;
the first key without a value is what fails (`Template.render_eq`).  A draft has for a key the value that was set last,
but for the target and the item, behind which their clauses stand (`Draft.placed?`, `Draft.get?_values`).  So what a
draft is serialised to is known from its parts, and is known not to be when it is not (`Draft.serialize_exact`).
-/
namespace CommandComposer

namespace Values

theorem get?_filter_ne (values : Values) {key name : Text} (h : name ≠ key) :
    get? (values.filter fun e => e.1 ≠ key) name = values.get? name := by
  induction values with
  | nil => rfl
  | cons e values ih =>
    by_cases he : e.1 = key
    · have hne : (name == e.1) = false := beq_eq_false_iff_ne.2 (he ▸ h)
      rw [List.filter_cons_of_neg (by simp [he]), ih, get?, get?, List.lookup_cons, hne]
    · unfold get? at ih ⊢
      rw [List.filter_cons_of_pos (by simp [he]), List.lookup_cons, List.lookup_cons, ih]

theorem get?_set (values : Values) (key value name : Text) :
    (values.set key value).get? name = if name = key then some value else values.get? name := by
  rw [get?, set, List.lookup_cons]
  by_cases h : name = key
  · rw [if_pos h, beq_iff_eq.2 h]
  · rw [if_neg h, beq_eq_false_iff_ne.2 h]
    exact get?_filter_ne values h

end Values

/-- A piece with its value in place, as it stands. -/
def Piece.filled (value : Text → Option Text) : Piece → Text
  | .text literal => literal
  | .key name => (value name).getD []

namespace Template

theorem keys_cons_key (name : Text) (rest : Template) : keys (.key name :: rest) = name :: keys rest := rfl

/-- The first key that has no value. -/
def firstMissing? (value : Text → Option Text) (template : Template) : Option Text :=
  template.keys.find? fun key => (value key).isNone

theorem firstMissing?_eq_none_iff {value : Text → Option Text} {template : Template} :
    template.firstMissing? value = none ↔ ∀ key ∈ template.keys, (value key).isSome = true := by
  rw [firstMissing?, List.find?_eq_none]
  simp [Option.isSome_iff_ne_none]

/-- **Rendering**: the pieces with their values in place, if each key has one, and else the first key that has none. -/
theorem render_eq (values : Values) : ∀ template : Template, render values template =
    match template.firstMissing? values.get? with
    | some key => .error (.missingValue key)
    | none => .ok (template.flatMap (Piece.filled values.get?))
  | [] => rfl
  | .text literal :: rest => by
    have hkeys : firstMissing? values.get? (.text literal :: rest) = firstMissing? values.get? rest := rfl
    rw [render, render_eq values rest, hkeys]
    cases firstMissing? values.get? rest <;> rfl
  | .key name :: rest => by
    rw [render, render_eq values rest, Piece.fill]
    cases hvalue : values.get? name with
    | none =>
      -- this key is the first one, whatever the rest lacks
      have hkeys : firstMissing? values.get? (.key name :: rest) = some name := by
        rw [firstMissing?, keys_cons_key, List.find?_cons_of_pos (by rw [hvalue]; rfl)]
      rw [hkeys]
      rfl
    | some value =>
      have hkeys : firstMissing? values.get? (.key name :: rest) = firstMissing? values.get? rest := by
        rw [firstMissing?, keys_cons_key, List.find?_cons_of_neg (by simp [hvalue]), firstMissing?]
      rw [hkeys, List.flatMap_cons, Piece.filled, hvalue]
      cases firstMissing? values.get? rest <;> rfl

end Template

/-- **The text of each kind's template reads as it.** -/
theorem Kind.read_source (kind : Kind) : Template.read kind.template.source = .ok kind.template := by
  cases kind <;> rfl

namespace Draft

/-- The value that was set last under a name. -/
def lastSet? (fields : List (Text × Text)) (name : Text) : Option Text :=
  ((fields.filter fun e => e.1 = name).getLast?).map Prod.snd

theorem lastSet?_cons (key value : Text) (fields : List (Text × Text)) (name : Text) :
    lastSet? ((key, value) :: fields) name = (lastSet? fields name).or (if name = key then some value else none) := by
  unfold lastSet?
  by_cases h : name = key
  · rw [List.filter_cons_of_pos (by simp [h]), List.getLast?_cons, if_pos h]
    cases (fields.filter fun e => e.1 = name).getLast? <;> rfl
  · rw [List.filter_cons_of_neg (by simp [Ne.symm h]), if_neg h, Option.or_none]

/-- **A draft whose fields were set one after the other.** -/
def assembled (kind : Kind) (target : Option Target) (clauses components : Option ClauseSet)
    (fields : List (Text × Text)) : Draft :=
  fields.foldl (fun d e => d.setField e.1 e.2)
    { Draft.new kind with target := target, clauses := clauses, components := components }

/-- Clauses in brackets behind what they refine; no clauses leave it as it is. -/
def bracketed (clauses : List Clause) (base : Text) : Text :=
  if clauses = [] then base
  else base ++ "[" ++ Text.join "," (clauses.map fun c => c.key ++ "=" ++ c.value) ++ "]"

def clausesOf (clauses : Option ClauseSet) : List Clause := (clauses.map ClauseSet.toList).getD []

/-- **The value of a key**: the target, if there is one, with its clauses; the item with its components; and else the
field of that name. -/
def placed? (target : Option Target) (clauses components : Option ClauseSet) (field : Text → Option Text)
    (key : Text) : Option Text :=
  if key = "selector" then
    match target with
    | some target => some (bracketed (clausesOf clauses) target.token)
    | none => field key
  else if key = "item" then (field key).map (bracketed (clausesOf components))
  else field key

theorem bracketed_eq_attachTo (s : ClauseSet) (base : Text) : bracketed s.toList base = s.attachTo base := by
  obtain ⟨clauses, hdistinct⟩ := s
  cases clauses <;> rfl

theorem bracketed_eq_refined (clauses : Option ClauseSet) (base : Text) :
    bracketed (clausesOf clauses) base = refined clauses base := by
  cases clauses with
  | none => rfl
  | some s => exact bracketed_eq_attachTo s base

theorem get?_withSelector (d : Draft) (key : Text) : d.withSelector.get? key =
    if key = "selector" then
      match d.target with
      | some target => some (bracketed (clausesOf d.clauses) target.token)
      | none => d.fields.get? key
    else d.fields.get? key := by
  unfold withSelector
  cases d.target with
  | none => exact (ite_self _).symm
  | some target => simp only [Values.get?_set, bracketed_eq_refined]

/-- **What a draft has for a key.** -/
theorem get?_values (d : Draft) (key : Text) :
    d.values.get? key = placed? d.target d.clauses d.components d.fields.get? key := by
  have hselector : ("item" : Text) ≠ "selector" := by decide
  unfold values placed?
  split
  · rename_i item components hitem hcomponents
    rw [Values.get?_set, get?_withSelector]
    by_cases hkey : key = "item"
    · subst hkey
      rw [if_pos rfl, if_neg hselector, if_pos rfl, hitem, hcomponents]
      exact congrArg some (bracketed_eq_attachTo components item).symm
    · rw [if_neg hkey, if_neg hkey]
  · rename_i hbare
    rw [get?_withSelector]
    by_cases hkey : key = "item"
    · subst hkey
      rw [if_neg hselector, if_neg hselector, if_pos rfl]
      -- there is no item, or nothing to put behind it
      cases hitem : d.fields.get? "item" with
      | none => rfl
      | some item =>
        cases hcomponents : d.components with
        | none => rfl
        | some components => exact (hbare item components hitem hcomponents).elim
    · rw [if_neg hkey]

theorem foldl_setField (fields : List (Text × Text)) (d : Draft) :
    fields.foldl (fun d e => d.setField e.1 e.2) d =
      { d with fields := fields.foldl (fun values e => values.set e.1 e.2) d.fields } := by
  induction fields generalizing d with
  | nil => rfl
  | cons e fields ih => exact ih (d.setField e.1 e.2)

/-- **A field has the value that was set last**, or the one it had before. -/
theorem get?_foldl_set (name : Text) : ∀ (fields : List (Text × Text)) (values : Values),
    Values.get? (fields.foldl (fun values e => values.set e.1 e.2) values) name =
      (lastSet? fields name).or (values.get? name)
  | [], values => rfl
  | (key, value) :: fields, values => by
    rw [List.foldl_cons, get?_foldl_set name fields, Values.get?_set, lastSet?_cons, Option.or_assoc]
    by_cases h : name = key
    · rw [if_pos h, if_pos h, Option.some_or]
    · rw [if_neg h, if_neg h, Option.none_or]

section

variable (kind : Kind) (target : Option Target) (clauses components : Option ClauseSet) (fields : List (Text × Text))

theorem assembled_eq : assembled kind target clauses components fields =
    ⟨kind, target, clauses, components, fields.foldl (fun values e => values.set e.1 e.2) []⟩ :=
  foldl_setField fields _

theorem get?_values_assembled : (assembled kind target clauses components fields).values.get? =
    placed? target clauses components (lastSet? fields) := by
  have hfields : Values.get? (fields.foldl (fun values e => values.set e.1 e.2) []) = lastSet? fields :=
    funext fun name => (get?_foldl_set name fields []).trans Option.or_none
  rw [assembled_eq, ← hfields]
  exact funext (get?_values _)

/-- **Serialising is exact**: whatever was set, and whatever stands in it, the template of the kind is filled once with
the values that were placed, each as it is; and if a key has none, the first such key is named. -/
theorem serialize_exact :
    Template.read kind.template.source = .ok kind.template ∧
      (assembled kind target clauses components fields).serialize =
        (match kind.template.firstMissing? (placed? target clauses components (lastSet? fields)) with
        | some key => .error (.missingValue key)
        | none => .ok (kind.template.flatMap (Piece.filled (placed? target clauses components (lastSet? fields))))) ∧
      ((∃ cmd, (assembled kind target clauses components fields).serialize = .ok cmd) ↔
        ∀ key ∈ kind.template.keys, (placed? target clauses components (lastSet? fields) key).isSome = true) := by
  have hserialize : (assembled kind target clauses components fields).serialize =
      Template.render (assembled kind target clauses components fields).values kind.template := by
    rw [serialize, assembled_eq]
  rw [Template.render_eq, get?_values_assembled] at hserialize
  refine ⟨kind.read_source, hserialize, ?_⟩
  rw [hserialize, ← Template.firstMissing?_eq_none_iff]
  cases kind.template.firstMissing? (placed? target clauses components (lastSet? fields)) <;> simp

end

example : (assembled .say none none none [("message", "hello"), ("message", "\x7bmessage\x7d \\")]).serialize =
    .ok "/say \x7bmessage\x7d \\" := by rfl

end Draft
end CommandComposer
