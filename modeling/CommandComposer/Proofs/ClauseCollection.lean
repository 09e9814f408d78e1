import CommandComposer.Dialogue.Script
import CommandComposer.Proofs.Building
/-!
# ClauseCollection — what the talk of building says of the clauses built

The clauses accepted in a talk are read off its echoes (`accepted`).  In every talk of building each menu of keys offers
exactly the keys not accepted before it, a pick that it does not offer is the end, a picked key is asked for and its
value echoed (`MenuFits`), and all that is accepted joins the set, in order (`clause_collection`).  This needs that no
value is asked for in words that could be taken for a menu of keys or an accepted clause (`Plain`), which both schemas
satisfy.
-/
namespace CommandComposer

theorem eq_append_of_split {α : Type} {P : α → Prop} {x : α} (hx : P x) {after u : List α} :
    ∀ {t before : List α}, (∀ y ∈ t, ¬ P y) → t ++ u = before ++ x :: after →
      ∃ before', before = t ++ before' ∧ u = before' ++ x :: after
  | [], before, _, h => ⟨before, rfl, h⟩
  | y :: t, [], ht, h => absurd ((List.cons.inj h).1 ▸ hx) (ht y List.mem_cons_self)
  | y :: t, z :: before, ht, h => by
    obtain ⟨rfl, htail⟩ := List.cons.inj h
    obtain ⟨before', rfl, hu⟩ := eq_append_of_split hx (fun y hy => ht y (List.mem_cons_of_mem _ hy)) htail
    exact ⟨before', rfl, hu⟩

namespace ClauseSet

/-- **Inserting clauses whose keys are distinct**, and not there yet, never fails and loses nothing. -/
theorem foldlM_insert? : ∀ (clauses : List Clause) (s : ClauseSet), ((s.toList ++ clauses).map Clause.key).Nodup →
    ∃ set, clauses.foldlM insert? s = some set ∧ set.toList = s.toList ++ clauses
  | [], s, _ => ⟨s, rfl, (List.append_nil _).symm⟩
  | c :: clauses, s, h => by
    have hfree : s.contains c.key = false := by
      rw [List.map_append, List.map_cons, List.nodup_append] at h
      rw [contains_eq_false_iff]
      exact fun hmem => h.2.2 c.key hmem c.key List.mem_cons_self rfl
    obtain ⟨s', hinsert, hs'⟩ := insert?_of_not_contains hfree
    rw [List.append_cons, ← hs'] at h
    obtain ⟨set, hfold, hset⟩ := foldlM_insert? clauses s' h
    exact ⟨set, by rw [List.foldlM_cons, hinsert]; exact hfold, by rw [hset, hs', List.append_assoc]; rfl⟩

end ClauseSet

namespace Schema

open Dialogue

/-- The clause that an exchange accepts: an echo whose label is a key. -/
def accepted? (schema : Schema) : Exchange → Option Clause
  | .heard (.echo label value) => if schema.keyNames.contains label then some ⟨label, value⟩ else none
  | _ => none

/-- **The clauses accepted in a talk**, in order. -/
def accepted (schema : Schema) (l : List Exchange) : List Clause := l.filterMap schema.accepted?

def IsMenu (schema : Schema) (x : Exchange) : Prop := ∃ choices reply, x = .asked (.menu schema.title choices) reply

/-- The message of the menu that a value is picked from, if it is picked from one. -/
def menuMessage? : ValueKind → Option Text
  | .choice prompt _ => some prompt
  | .enchantments => some "Add another enchantment? (y/N)"
  | _ => none

/-- **A schema in plain words**: no key is a label of another echo or the way out, and no value is picked from a menu
with the message of the menu of keys. -/
structure Plain (schema : Schema) : Prop where
  picked : "Additional " ++ schema.noun ∉ schema.keyNames
  closed : "All " ++ schema.noun ++ "s" ∉ schema.keyNames
  enchantment : ("Enchantment" : Text) ∉ schema.keyNames
  way_out : okWord ∉ schema.keyNames
  menus : ∀ spec ∈ schema.keys, menuMessage? spec.value ≠ some schema.title

theorem plain_selectors : selectors.Plain := by constructor <;> decide

theorem plain_components : components.Plain := by constructor <;> decide

/-- An exchange that is neither a menu of keys nor accepts a clause. -/
def Quiet (schema : Schema) (x : Exchange) : Prop := ¬ schema.IsMenu x ∧ schema.accepted? x = none

variable {schema : Schema}

theorem quiet_line (question : Text) (reply : Except Error Text) : schema.Quiet (.asked (.line question) reply) := by
  refine ⟨?_, rfl⟩
  rintro ⟨_, _, h⟩
  cases h

theorem quiet_menu {message : Text} (h : message ≠ schema.title) (choices : List Choice) (reply : Except Error Text) :
    schema.Quiet (.asked (.menu message choices) reply) := by
  refine ⟨?_, rfl⟩
  rintro ⟨_, _, heq⟩
  cases heq
  exact h rfl

theorem quiet_message (tone : Tone) (text : Text) : schema.Quiet (.heard (.message tone text)) := by
  refine ⟨?_, rfl⟩
  rintro ⟨_, _, h⟩
  cases h

theorem quiet_echo {label : Text} (h : label ∉ schema.keyNames) (value : Text) :
    schema.Quiet (.heard (.echo label value)) := by
  refine ⟨?_, if_neg (mt List.contains_iff_mem.1 h)⟩
  rintro ⟨_, _, heq⟩
  cases heq

theorem says_enchantments (h : schema.Plain)
    (hmore : ("Add another enchantment? (y/N)" : Text) ≠ schema.title) : Enchantment.collect.Says schema.Quiet := by
  refine says_rounds (fun _ => quiet_line _) (fun collected raw => ?_)
  split
  · exact says_done _
  · split
    · refine says_bind (says_askRequired (quiet_line _) (quiet_message _)) (fun level => ?_)
      refine says_bind (says_tell (quiet_echo h.enchantment _)) (fun _ => ?_)
      exact says_bind (says_ask (quiet_menu hmore _)) (fun _ => says_done _)
    · exact says_refuse (quiet_message _ _)

/-- **Asking for a value is quiet**: it shows no menu of keys and accepts no clause. -/
theorem says_collect (h : schema.Plain) {spec : KeySpec} (hspec : spec ∈ schema.keys) :
    (spec.value.collect schema.noun).Says schema.Quiet := by
  have hmenu := h.menus spec hspec
  cases hvalue : spec.value with
  | choice prompt options =>
    rw [hvalue] at hmenu
    exact says_bind (says_ask (quiet_menu (fun heq => hmenu (congrArg some heq)) _)) (fun _ => says_done _)
  | enchantments =>
    rw [hvalue] at hmenu
    exact says_enchantments h (fun heq => hmenu (congrArg some heq))
  | _ => exact says_askEscapable (quiet_line _) (quiet_message _)

theorem accepted_of_quiet {l : List Exchange} (h : ∀ x ∈ l, schema.Quiet x) : schema.accepted l = [] :=
  List.filterMap_eq_nil_iff.2 (fun x hx => (h x hx).2)

theorem accepted_asked (question : Question) (reply : Except Error Text) (l : List Exchange) :
    schema.accepted (.asked question reply :: l) = schema.accepted l := rfl

theorem accepted_append (l l' : List Exchange) : schema.accepted (l ++ l') = schema.accepted l ++ schema.accepted l' :=
  List.filterMap_append

/-- What follows the talk in which the value of a key was asked for: the end, or a remark and the next menu of keys. -/
def Outcome (schema : Schema) (key : Text) (rest : List Exchange) (r : Except Error (List Clause)) :
    Except Error (Answer Text) → Prop
  | .error e => rest = [] ∧ r = .error e
  | .ok .back => ∃ choices reply l, rest = .heard schema.cancelRemark :: .asked (.menu schema.title choices) reply :: l
  | .ok (.value value) =>
    ∃ choices reply l, rest = .heard (.echo key value) :: .asked (.menu schema.title choices) reply :: l

/-- **A menu of keys fits the clauses accepted before it**: what it offers, and what its pick leads to. -/
structure MenuFits (schema : Schema) (clauses : List Clause) (choices : List Choice) (reply : Except Error Text)
    (after : List Exchange) (r : Except Error (List Clause)) : Prop where
  offers : choices = schema.offer (clauses.map Clause.key)
  foreign : ∀ pick, reply = .ok pick → pick ∉ choices.map Choice.value → after = [] ∧ r = .error (.unknownChoice pick)
  finished : reply = .ok okWord → after = [.heard (schema.closingRemark clauses)] ∧ r = .ok clauses
  picked : ∀ pick, reply = .ok pick → pick ∈ choices.map Choice.value → pick ≠ okWord →
    ∃ spec talk outcome rest, spec ∈ schema.keys ∧ spec.key = pick ∧
      (spec.value.collect schema.noun).Talk talk outcome ∧
      after = .heard (schema.pickedRemark pick) :: (talk ++ rest) ∧ schema.Outcome pick rest r outcome

theorem MenuFits.of_foreign {clauses : List Clause} {pick : Text}
    (hpick : pick ∉ (schema.offer (clauses.map Clause.key)).map Choice.value) :
    schema.MenuFits clauses (schema.offer (clauses.map Clause.key)) (.ok pick) [] (.error (.unknownChoice pick)) where
  offers := rfl
  foreign := by
    rintro _ ⟨⟩ -
    exact ⟨rfl, rfl⟩
  finished := by
    rintro ⟨⟩
    exact absurd (mem_offer_iff.2 (.inr rfl)) hpick
  picked := by
    rintro _ ⟨⟩ hmem
    exact absurd hmem hpick

theorem MenuFits.of_finished (clauses : List Clause) :
    schema.MenuFits clauses (schema.offer (clauses.map Clause.key)) (.ok okWord)
      [.heard (schema.closingRemark clauses)] (.ok clauses) where
  offers := rfl
  foreign := by
    rintro _ ⟨⟩ hmem
    exact absurd (mem_offer_iff.2 (.inr rfl)) hmem
  finished _ := ⟨rfl, rfl⟩
  picked := by
    rintro _ ⟨⟩ - hne
    exact absurd rfl hne

theorem MenuFits.of_unanswered (clauses : List Clause) (e : Error) (after : List Exchange)
    (r : Except Error (List Clause)) :
    schema.MenuFits clauses (schema.offer (clauses.map Clause.key)) (.error e) after r where
  offers := rfl
  foreign := nofun
  finished := nofun
  picked := nofun

theorem MenuFits.of_picked (h : schema.Plain) {clauses : List Clause} {spec : KeySpec} (hspec : spec ∈ schema.keys)
    (hfree : spec.key ∉ clauses.map Clause.key) {talk rest : List Exchange} {outcome : Except Error (Answer Text)}
    (htalk : (spec.value.collect schema.noun).Talk talk outcome) {r : Except Error (List Clause)}
    (hout : schema.Outcome spec.key rest r outcome) :
    schema.MenuFits clauses (schema.offer (clauses.map Clause.key)) (.ok spec.key)
      (.heard (schema.pickedRemark spec.key) :: (talk ++ rest)) r where
  offers := rfl
  foreign := by
    rintro _ ⟨⟩ hmem
    exact absurd (mem_offer_iff.2 (.inl ⟨List.mem_map_of_mem hspec, hfree⟩)) hmem
  finished heq := by
    rw [Except.ok.injEq] at heq
    exact absurd (heq ▸ List.mem_map_of_mem hspec) h.way_out
  picked := by
    rintro _ ⟨⟩ - -
    exact ⟨spec, talk, outcome, rest, hspec, rfl, htalk, rfl, hout⟩

/-- **From one menu of keys to the next**: if the one a round opens with fits, and those behind the round do, with the
clauses that the round accepts, they all do. -/
theorem MenuFits.of_round {clauses : List Clause} {choices₀ : List Choice} {reply₀ : Except Error Text}
    {t u : List Exchange} {r : Except Error (List Clause)} (hfirst : schema.MenuFits clauses choices₀ reply₀ (t ++ u) r)
    (ht : ∀ x ∈ t, ¬ schema.IsMenu x)
    (hrest : ∀ before choices reply after, u = before ++ .asked (.menu schema.title choices) reply :: after →
      schema.MenuFits (clauses ++ schema.accepted t ++ schema.accepted before) choices reply after r) :
    ∀ before choices reply after,
      .asked (.menu schema.title choices₀) reply₀ :: (t ++ u) =
        before ++ .asked (.menu schema.title choices) reply :: after →
      schema.MenuFits (clauses ++ schema.accepted before) choices reply after r
  | [], choices, reply, after, h => by
    cases h
    rwa [accepted, List.filterMap_nil, List.append_nil]
  | x :: before, choices, reply, after, h => by
    obtain ⟨rfl, htail⟩ := List.cons.inj h
    obtain ⟨before', rfl, hu⟩ := eq_append_of_split (P := schema.IsMenu) ⟨choices, reply, rfl⟩ ht htail
    have hfits := hrest before' choices reply after hu
    rwa [List.append_assoc, ← accepted_append] at hfits

theorem quiet_pickedRemark (h : schema.Plain) (key : Text) : schema.Quiet (.heard (schema.pickedRemark key)) :=
  quiet_echo h.picked key

theorem quiet_closingRemark (h : schema.Plain) (clauses : List Clause) :
    schema.Quiet (.heard (schema.closingRemark clauses)) :=
  quiet_echo h.closed _

theorem not_isMenu_heard (remark : Remark) : ¬ schema.IsMenu (.heard remark) := by
  rintro ⟨_, _, h⟩
  cases h

theorem quiet_picked (h : schema.Plain) {spec : KeySpec} (hspec : spec ∈ schema.keys) {talk : List Exchange}
    {outcome : Except Error (Answer Text)} (htalk : (spec.value.collect schema.noun).Talk talk outcome) :
    ∀ x ∈ .heard (schema.pickedRemark spec.key) :: talk, schema.Quiet x :=
  List.forall_mem_cons.2 ⟨quiet_pickedRemark h _, says_collect h hspec talk outcome htalk⟩

theorem accepted_closed {t : List Exchange} (ht : ∀ x ∈ t, schema.Quiet x) {remark : Remark} :
    schema.accepted (t ++ [.heard remark]) = (schema.accepted? (.heard remark)).toList := by
  rw [accepted_append, accepted_of_quiet ht, List.nil_append]
  cases hx : schema.accepted? (.heard remark) <;> simp [accepted, hx]

/-- A round that comes to an answer, which a remark closes: the remark is all that can accept a clause. -/
theorem MenuFits.of_answered (hplain : schema.Plain) {clauses : List Clause} {spec : KeySpec}
    (hspec : spec ∈ schema.keys) (hfree : spec.key ∉ clauses.map Clause.key) {talk l : List Exchange}
    {answer : Answer Text} (htalk : (spec.value.collect schema.noun).Talk talk (.ok answer)) {remark : Remark}
    {r : Except Error (List Clause)} (hout : schema.Outcome spec.key (.heard remark :: l) r (.ok answer))
    (hrest : ∀ before choices reply after, l = before ++ .asked (.menu schema.title choices) reply :: after →
      schema.MenuFits (clauses ++ (schema.accepted? (.heard remark)).toList ++ schema.accepted before) choices reply
        after r) :
    ∀ before choices reply after,
      .asked (.menu schema.title (schema.offer (clauses.map Clause.key))) (.ok spec.key) ::
          .heard (schema.pickedRemark spec.key) :: (talk ++ .heard remark :: l) =
        before ++ .asked (.menu schema.title choices) reply :: after →
      schema.MenuFits (clauses ++ schema.accepted before) choices reply after r := by
  have hfits := MenuFits.of_picked hplain hspec hfree htalk hout
  have hquiet := quiet_picked hplain hspec htalk
  have hround : .heard (schema.pickedRemark spec.key) :: (talk ++ .heard remark :: l) =
      (.heard (schema.pickedRemark spec.key) :: talk) ++ [.heard remark] ++ l := by simp
  rw [hround] at hfits ⊢
  refine hfits.of_round (fun x hx => ?_) (accepted_closed hquiet ▸ hrest)
  rcases List.mem_append.1 hx with hx | hx
  · exact (hquiet x hx).1
  · rw [List.mem_singleton.1 hx]
    exact not_isMenu_heard remark

/-- **Every menu of keys fits**, by induction on how the clauses are built: what is kept is that the clauses are those
there were and those accepted since. -/
theorem Built.menuFits (hplain : schema.Plain) {clauses : List Clause} {l : List Exchange}
    {r : Except Error (List Clause)} (h : Built schema clauses l r) :
    ∀ before choices reply after, l = before ++ .asked (.menu schema.title choices) reply :: after →
      schema.MenuFits (clauses ++ schema.accepted before) choices reply after r := by
  -- behind the last round there is no menu
  have hnone : ∀ before choices reply after, [] = before ++ .asked (.menu schema.title choices) reply :: after →
      ∀ clauses r, schema.MenuFits clauses choices reply after r :=
    fun before _ _ _ h => absurd h.symm (List.append_ne_nil_of_right_ne_nil before (List.cons_ne_nil _ _))
  induction h with
  | unanswered clauses e =>
    exact MenuFits.of_round (t := []) (.of_unanswered clauses e _ _) nofun
      (fun before choices reply after h => hnone before choices reply after h _ _)
  | finished clauses =>
    exact MenuFits.of_round (t := [_]) (.of_finished clauses) (by simpa using not_isMenu_heard _)
      (fun before choices reply after h => hnone before choices reply after h _ _)
  | foreign clauses pick hpick =>
    exact MenuFits.of_round (t := []) (.of_foreign hpick) nofun
      (fun before choices reply after h => hnone before choices reply after h _ _)
  | failed clauses spec talk e hspec hfree htalk =>
    have hfits : schema.MenuFits clauses _ (.ok spec.key) (.heard (schema.pickedRemark spec.key) :: (talk ++ []))
        (.error e) := .of_picked hplain hspec hfree htalk ⟨rfl, rfl⟩
    have hquiet := quiet_picked hplain hspec htalk
    rw [← List.cons_append] at hfits
    have := hfits.of_round (fun x hx => (hquiet x hx).1)
      (fun before choices reply after h => hnone before choices reply after h _ _)
    rwa [List.append_nil] at this
  | cancelled clauses spec talk l r hspec hfree htalk hnext ih =>
    obtain ⟨reply, after, hl⟩ := hnext.opens
    refine MenuFits.of_answered hplain hspec hfree htalk ⟨_, reply, after, congrArg (_ :: ·) hl⟩
      (fun before choices reply after h => ?_)
    simpa [accepted?, cancelRemark] using ih before choices reply after h
  | accepted clauses spec talk value l r hspec hfree htalk hnext ih =>
    obtain ⟨reply, after, hl⟩ := hnext.opens
    refine MenuFits.of_answered hplain hspec hfree htalk ⟨_, reply, after, congrArg (_ :: ·) hl⟩
      (fun before choices reply after h => ?_)
    have hkey : spec.key ∈ schema.keyNames := List.mem_map_of_mem hspec
    simpa [accepted?, hkey] using ih before choices reply after h

theorem accepted_answered (hplain : schema.Plain) {spec : KeySpec} (hspec : spec ∈ schema.keys)
    {talk : List Exchange} {answer : Answer Text} (htalk : (spec.value.collect schema.noun).Talk talk (.ok answer))
    (question : Question) (reply : Except Error Text) (remark : Remark) (l : List Exchange) :
    schema.accepted (.asked question reply ::
        .heard (schema.pickedRemark spec.key) :: (talk ++ .heard remark :: l)) =
      (schema.accepted? (.heard remark)).toList ++ schema.accepted l := by
  rw [accepted_asked, ← accepted_closed (quiet_picked hplain hspec htalk), ← accepted_append]
  simp

/-- **What is accepted is collected**: no key twice and only keys of the schema, and the result is what there was and
what was accepted. -/
structure Collected (schema : Schema) (clauses : List Clause) (l : List Exchange) (r : Except Error (List Clause)) :
    Prop where
  distinct : ((clauses ++ schema.accepted l).map Clause.key).Nodup
  keys : ∀ key ∈ (schema.accepted l).map Clause.key, key ∈ schema.keyNames
  result : ∀ result, r = .ok result → result = clauses ++ schema.accepted l

theorem Collected.of_nothing {clauses : List Clause} {l : List Exchange} {r : Except Error (List Clause)}
    (hnodup : (clauses.map Clause.key).Nodup) (hl : schema.accepted l = [])
    (hr : ∀ result, r = .ok result → result = clauses) : schema.Collected clauses l r where
  distinct := by rwa [hl, List.append_nil]
  keys := by simp [hl]
  result := by rwa [hl, List.append_nil]

theorem nodup_keys_append {clauses : List Clause} {c : Clause} (hnodup : (clauses.map Clause.key).Nodup)
    (hfree : c.key ∉ clauses.map Clause.key) : ((clauses ++ [c]).map Clause.key).Nodup := by
  obtain ⟨set, -, hset⟩ :=
    ClauseSet.insert?_of_not_contains (s := ⟨clauses, hnodup⟩) (ClauseSet.contains_eq_false_iff.2 hfree)
  exact hset ▸ set.distinct

theorem Built.collected (hplain : schema.Plain) {clauses : List Clause} {l : List Exchange}
    {r : Except Error (List Clause)} (h : Built schema clauses l r) (hnodup : (clauses.map Clause.key).Nodup) :
    schema.Collected clauses l r := by
  induction h with
  | unanswered clauses e => exact .of_nothing hnodup rfl nofun
  | finished clauses =>
    refine .of_nothing hnodup ?_ (fun _ h => (Except.ok.inj h).symm)
    rw [accepted_asked, accepted_of_quiet (by simpa using quiet_closingRemark hplain clauses)]
  | foreign clauses pick hpick => exact .of_nothing hnodup rfl nofun
  | failed clauses spec talk e hspec hfree htalk =>
    refine .of_nothing hnodup ?_ nofun
    rw [accepted_asked, accepted_of_quiet (quiet_picked hplain hspec htalk)]
  | cancelled clauses spec talk l r hspec hfree htalk _ ih =>
    obtain ⟨hdistinct, hkeys, hresult⟩ := ih hnodup
    have hl := accepted_answered hplain hspec htalk
      (.menu schema.title (schema.offer (clauses.map Clause.key))) (.ok spec.key) schema.cancelRemark l
    exact ⟨hl ▸ hdistinct, hl ▸ hkeys, hl ▸ hresult⟩
  | accepted clauses spec talk value l r hspec hfree htalk _ ih =>
    have hkey : spec.key ∈ schema.keyNames := List.mem_map_of_mem hspec
    obtain ⟨hdistinct, hkeys, hresult⟩ := ih (nodup_keys_append hnodup hfree)
    have hl := accepted_answered hplain hspec htalk
      (.menu schema.title (schema.offer (clauses.map Clause.key))) (.ok spec.key) (.echo spec.key value) l
    rw [accepted?, if_pos (List.contains_iff_mem.2 hkey), Option.toList_some, List.singleton_append] at hl
    rw [List.append_assoc, List.singleton_append] at hdistinct hresult
    refine ⟨hl ▸ hdistinct, ?_, hl ▸ hresult⟩
    rw [hl, List.map_cons]
    exact List.forall_mem_cons.2 ⟨hkey, hkeys⟩

/-- **Building clauses, over whole runs**, whoever the partner is.  A run opens with the menu of all keys; every menu of
keys fits the clauses accepted before it; inserting all that is accepted never fails, and gives the set that the run
results in, if it has a result; and the keys accepted are keys of the schema, no two of them one. -/
theorem clause_collection {σ : Type} (p : Partner σ) (s : σ) {schema : Schema}
    (hschema : schema = selectors ∨ schema = components) :
    (∃ reply after, schema.build.transcript p s = .asked (.menu schema.title (schema.offer [])) reply :: after) ∧
    (∀ before choices reply after,
      schema.build.transcript p s = before ++ .asked (.menu schema.title choices) reply :: after →
      schema.MenuFits (schema.accepted before) choices reply after ((schema.build.run p s).1.map ClauseSet.toList)) ∧
    (∃ set, (schema.accepted (schema.build.transcript p s)).foldlM ClauseSet.insert? .empty = some set ∧
      set.toList = schema.accepted (schema.build.transcript p s) ∧
      ∀ result, (schema.build.run p s).1 = .ok result → result = set) ∧
    ((schema.accepted (schema.build.transcript p s)).map Clause.key).Nodup ∧
    ∀ key ∈ (schema.accepted (schema.build.transcript p s)).map Clause.key, key ∈ schema.keyNames := by
  have hplain : schema.Plain := by
    rcases hschema with rfl | rfl
    · exact plain_selectors
    · exact plain_components
  have hbuilt := built_of_talk (talk_transcript p schema.build s)
  have hcollected := hbuilt.collected hplain List.nodup_nil
  obtain ⟨set, hfold, hset⟩ := ClauseSet.foldlM_insert? _ .empty hcollected.distinct
  refine ⟨hbuilt.opens, hbuilt.menuFits hplain, ⟨set, hfold, hset, fun result hresult => ?_⟩, hcollected.distinct,
    hcollected.keys⟩
  refine ClauseSet.eq_of_toList ((hcollected.result result.toList ?_).trans hset.symm)
  rw [hresult]
  rfl

/-- A key backed out of and picked again, and then one that is no longer offered. -/
theorem clause_collection_picked_twice :
    (selectors = selectors ∨ selectors = components) ∧
    (selectors.build.run (Script.partner .unchecked) (Script.start ["tag", "back", "tag", "foo", "tag", "bar"])).1 =
      .error (.unknownChoice "tag") ∧
    ∃ set, (selectors.accepted (selectors.build.transcript (Script.partner .unchecked)
        (Script.start ["tag", "back", "tag", "foo", "tag", "bar"]))).foldlM ClauseSet.insert? .empty = some set ∧
      set.toList = [⟨"tag", "foo"⟩] := by
  have hschema : selectors = selectors ∨ selectors = components := .inl rfl
  obtain ⟨-, -, ⟨set, hfold, hset, -⟩, -⟩ := clause_collection (Script.partner .unchecked)
    (Script.start ["tag", "back", "tag", "foo", "tag", "bar"]) hschema
  exact ⟨hschema, rfl, set, hfold, hset⟩

end Schema
end CommandComposer
