import CommandComposer.Builder
import CommandComposer.Proofs.FoodParts
import CommandComposer.Proofs.Literals
import CommandComposer.Proofs.Numerals
import CommandComposer.Proofs.ScriptRun
/-!
# Values — what a collected value looks like

Each way to ask for a value has its values (`ValueKind.Takes`): words, literals of words, numerals, and the forms of
lore, food and enchantments.  What is checked is what is written, so a value that is collected is one of these
(`takes_of_talk`), provided that what is picked from a menu was offered there.
-/
namespace CommandComposer

namespace Text

/-- **A word**: not empty, without white space around it, and not the word that goes back. -/
structure IsWord (t : Text) : Prop where
  nonempty : t ≠ []
  trimmed : t.Trimmed
  stays : sameLetters t Dialogue.backWord = false

theorem isWord_trim {raw : Text} (hback : Dialogue.goesBack raw = false) (hblank : raw.trim.allBlank = false) :
    raw.trim.IsWord where
  nonempty h := by
    rw [h] at hblank
    cases hblank
  trimmed := trimmed_trim raw
  stays := hback

end Text

/-- The mark that ends a line of lore. -/
def lineMark : Text := "<br>"

theorem brokenLines_ne_nil (t : Text) : brokenLines t ≠ [] := by
  fun_cases brokenLines t <;> simp

theorem prefix_of_brokenLines {t : Text} : ∀ {line : Text} {lines : List Text}, brokenLines t = line :: lines →
    line <+: t := by
  fun_induction brokenLines t with
  | case1 t =>
    rintro line lines ⟨⟩
    exact List.nil_prefix
  | case2 c t hplain hnil => exact absurd hnil (brokenLines_ne_nil t)
  | case3 c t hplain line lines hlines ih =>
    rintro _ _ ⟨⟩
    exact List.prefix_cons_inj c |>.2 (ih hlines)
  | case4 =>
    rintro line lines ⟨⟩
    exact List.nil_prefix

/-- **No line holds the mark**: it could only begin in front of a line, where the text would have been cut. -/
theorem not_lineMark_infix {t : Text} : ∀ line ∈ brokenLines t, ¬ lineMark <:+: line := by
  fun_induction brokenLines t with
  | case1 t ih =>
    rw [List.forall_mem_cons]
    exact ⟨by decide, ih⟩
  | case2 c t hplain hnil => exact absurd hnil (brokenLines_ne_nil t)
  | case3 c t hplain line lines hlines ih =>
    rw [hlines, List.forall_mem_cons] at ih
    rw [List.forall_mem_cons]
    refine ⟨fun hmark => ?_, ih.2⟩
    rcases List.infix_cons_iff.1 hmark with hstart | hmark
    · obtain ⟨u, hu⟩ := hstart.trans ((List.prefix_cons_inj c).2 (prefix_of_brokenLines hlines))
      obtain ⟨rfl, htail⟩ := List.cons.inj hu
      exact hplain u rfl htail.symm
    · exact ih.1 hmark
  | case4 =>
    rw [List.forall_mem_singleton]
    decide

/-- A line of lore: not empty, without white space around it, and without the mark. -/
structure Lore.IsLine (line : Text) : Prop where
  nonempty : line ≠ []
  trimmed : line.Trimmed
  unbroken : ¬ lineMark <:+: line

theorem Lore.isLine_of_mem_lines {t line : Text} (h : line ∈ lines t) : IsLine line := by
  obtain ⟨hmem, hne⟩ := List.mem_filter.1 h
  obtain ⟨broken, hbroken, rfl⟩ := List.mem_map.1 hmem
  exact ⟨by simpa using hne, Text.trimmed_trim broken,
    fun hmark => not_lineMark_infix broken hbroken (hmark.trans (Text.trim_infix broken))⟩

theorem Lore.reader_eq_ok_iff {t v : Text} : reader t = .ok v ↔ lines t ≠ [] ∧ v = Quoted.encodeList (lines t) := by
  unfold reader
  cases lines t with
  | nil => exact iff_of_false nofun (fun h => h.1 rfl)
  | cons line more =>
    constructor
    · rintro ⟨⟩
      exact ⟨List.cons_ne_nil _ _, rfl⟩
    · rintro ⟨-, rfl⟩
      rfl

theorem Lore.reader_eq_ok {t v : Text} (h : reader t = .ok v) :
    Quoted.decodeList? v = some (lines t) ∧ lines t ≠ [] := by
  obtain ⟨hne, rfl⟩ := reader_eq_ok_iff.1 h
  exact ⟨Quoted.decodeList?_encodeList _, hne⟩

theorem Food.reader_eq_ok {t v : Text} (h : reader t = .ok v) :
    ∃ f : Food, v = f.text ∧ IsPart f.nutrition ∧ IsPart f.saturation ∧ IsPart f.canAlwaysEat := by
  obtain ⟨f, hread, rfl⟩ := reader_eq_ok_iff.1 h
  obtain ⟨a, b, c, htyped, rfl⟩ := read?_eq_some_iff.1 hread
  exact ⟨_, rfl, htyped.isPart⟩

namespace Enchantment

open Dialogue

/-- An enchantment with a word for its name and a level in range, as a numeral. -/
structure IsProper (e : Enchantment) : Prop where
  name : e.name.IsWord
  level : Numeral.Canonical e.level
  range : 1 ≤ Numeral.value e.level ∧ Numeral.value e.level ≤ 255

theorem readLevel_eq_ok {t level : Text} (h : readLevel t = .ok level) :
    Numeral.Canonical level ∧ 1 ≤ Numeral.value level ∧ Numeral.value level ≤ 255 := by
  unfold readLevel at h
  split at h
  · rename_i hbounded
    cases h
    obtain ⟨hnumeral, hrange⟩ := Numeral.isBounded_eq_true hbounded
    rw [Numeral.value_dropZeros]
    exact ⟨Numeral.canonical_dropZeros hnumeral, hrange⟩
  · cases h

theorem talk_afterName {collected : List Enchantment} {name : Text} {l : List Exchange}
    {turn : Turn (List Enchantment) (Answer Text)} (h : (afterName collected name).Talk l (.ok turn)) :
    ∃ raw level next, readLevel raw = .ok level ∧ next = collected ++ [⟨name, level⟩] ∧
      (turn = .again next ∨ turn = .finish (.value (listText (next.map text)))) := by
  obtain ⟨level, _, _, hlevel, h, -⟩ := (talk_bind_ok _ _ _ _).1 h
  obtain ⟨_, raw, hread, -⟩ := talk_askRequired hlevel
  obtain ⟨_, h, -⟩ := (talk_tell_bind _ _ _ _).1 h
  obtain ⟨picked, _, ⟨-, hturn⟩, -⟩ := (talk_ask_bind_ok _ _ _ _).1 h
  refine ⟨raw.trim, level, _, hread, rfl, ?_⟩
  cases hturn
  split
  · exact .inl rfl
  · exact .inr rfl

/-- A round of asking for enchantments, behind its question. -/
def round (collected : List Enchantment) (raw : Text) : Dialogue (Turn (List Enchantment) (Answer Text)) :=
  if goesBack raw then done (.finish .back)
  else
    match readName raw.trim with
    | .ok name => afterName collected name
    | .error reason => refuse collected reason

theorem collect_eq :
    collect = rounds (fun _ => escapable "Enchantment name (e.g., sharpness, unbreaking)") round [] := rfl

/-- The text of a list of proper enchantments, of which there is one. -/
def IsListText (v : Text) : Prop :=
  ∃ es : List Enchantment, es ≠ [] ∧ (∀ e ∈ es, e.IsProper) ∧ v = listText (es.map text)

/-- **A round keeps its enchantments proper**: those it goes on with, and those it finishes with. -/
theorem talk_round {collected : List Enchantment} {raw : Text} {l : List Exchange}
    {turn : Turn (List Enchantment) (Answer Text)} (hcollected : ∀ e ∈ collected, e.IsProper)
    (h : (round collected raw).Talk l (.ok turn)) :
    (∃ collected', turn = .again collected' ∧ ∀ e ∈ collected', e.IsProper) ∨ turn = .finish .back ∨
      ∃ v, turn = .finish (.value v) ∧ IsListText v := by
  unfold round at h
  split at h
  · exact .inr (.inl (Except.ok.inj h.2))
  · rename_i hback
    split at h
    · rename_i name hname
      obtain ⟨rfl, hblank⟩ := readIf_eq_ok hname
      obtain ⟨t, level, next, hlevel, rfl, hturn⟩ := talk_afterName h
      obtain ⟨hcanonical, hrange⟩ := readLevel_eq_ok hlevel
      have hword : raw.trim.IsWord := Text.isWord_trim (by simpa using hback) (by simpa using hblank)
      have hproper : ∀ e ∈ collected ++ [⟨raw.trim, level⟩], e.IsProper := by
        rw [List.forall_mem_append, List.forall_mem_singleton]
        exact ⟨hcollected, hword, hcanonical, hrange⟩
      rcases hturn with rfl | rfl
      · exact .inl ⟨_, rfl, hproper⟩
      · exact .inr (.inr ⟨_, rfl, _, List.append_ne_nil_of_right_ne_nil _ (List.cons_ne_nil _ _), hproper, rfl⟩)
    · exact .inl ⟨collected, Except.ok.inj (talk_refuse h).2, hcollected⟩

/-- **Enchantments that are collected are proper**, and there is one. -/
theorem talk_collect {l : List Exchange} {v : Text} (h : collect.Talk l (.ok (.value v))) : IsListText v := by
  rw [collect_eq] at h
  obtain ⟨_, collected, raw, l', hcollected, hfinish, -⟩ :=
    h.exists_finish (fun collected => ∀ e ∈ collected, e.IsProper) (fun collected raw l next hcollected hagain => by
      rcases talk_round hcollected hagain with ⟨collected', hturn, hproper⟩ | hturn | ⟨v, hturn, -⟩
      · cases hturn
        exact hproper
      · cases hturn
      · cases hturn) rfl nofun
  rcases talk_round hcollected hfinish with ⟨collected', hturn, -⟩ | hturn | ⟨v', hturn, hlist⟩
  · cases hturn
  · cases hturn
  · cases hturn
    exact hlist

end Enchantment

/-- **The values that are asked for in a way.** -/
def ValueKind.Takes : ValueKind → Text → Prop
  | .text .., v => v.IsWord
  | .quoted .., v => ∃ t, Quoted.decode? v = some t ∧ t.IsWord
  | .integer _ _ none, v => Numeral.Canonical v
  | .integer _ _ (some b), v => Numeral.Canonical v ∧ b.low ≤ Numeral.value v ∧ Numeral.value v ≤ b.high
  | .truth _, v => v = "true" ∨ v = "false"
  | .choice _ options, v => v ∈ options.map Prod.fst
  | .lore _, v => ∃ lines, Quoted.decodeList? v = some lines ∧ lines ≠ [] ∧ ∀ line ∈ lines, Lore.IsLine line
  | .enchantments, v => Enchantment.IsListText v
  | .food _, v =>
    ∃ f : Food, v = f.text ∧ Food.IsPart f.nutrition ∧ Food.IsPart f.saturation ∧ Food.IsPart f.canAlwaysEat

namespace ValueKind

open Dialogue

theorem optionChoice_value (option : Text × Text) : (optionChoice option).value = option.1 := by
  unfold optionChoice
  split <;> rfl

/-- **What is picked, and is not the way back, is one of the options**, if it was offered. -/
theorem talk_selectOrBack {message noun : Text} {options : List (Text × Text)} {l : List Exchange} {v : Text}
    (h : (selectOrBack message (options.map optionChoice) noun).Talk l (.ok (.value v))) (hfair : ∀ x ∈ l, x.Fair) :
    v ∈ options.map Prod.fst := by
  obtain ⟨picked, l', ⟨-, hanswer⟩, rfl⟩ := (talk_ask_bind_ok _ _ _ _).1 h
  have hoffered : Script.offered (.menu message (options.map optionChoice ++ [_])) picked = true :=
    hfair _ List.mem_cons_self
  obtain ⟨c, hc, hvalue⟩ := List.any_eq_true.1 hoffered
  have hpicked : c.value = picked := by simpa using hvalue
  by_cases hback : picked = backWord
  · rw [if_pos hback] at hanswer
    cases hanswer
  · rw [if_neg hback] at hanswer
    cases hanswer
    rcases List.mem_append.1 hc with hc | hc
    · obtain ⟨option, hoption, rfl⟩ := List.mem_map.1 hc
      rw [← hpicked, optionChoice_value]
      exact List.mem_map_of_mem hoption
    · rw [List.mem_singleton.1 hc] at hpicked
      exact absurd hpicked.symm hback

theorem readQuoted_eq_ok {reason t v : Text} (h : readQuoted reason t = .ok v) :
    v = Quoted.encode t ∧ t.allBlank = false := by
  unfold readQuoted at h
  split at h
  · cases h
  · rename_i hblank
    cases h
    exact ⟨rfl, by simpa using hblank⟩

theorem readInteger_eq_ok {reason t v : Text} {bounds : Option Numeral.Bounds}
    (h : readInteger reason bounds t = .ok v) :
    v = Numeral.dropZeros t ∧ Numeral.isNumeral t = true ∧ ∀ b ∈ bounds, Numeral.isBounded b t = true := by
  cases bounds with
  | none =>
    by_cases hvalid : Numeral.isNumeral t = true
    · rw [readInteger, if_pos hvalid] at h
      cases h
      exact ⟨rfl, hvalid, nofun⟩
    · rw [readInteger, if_neg hvalid] at h
      cases h
  | some b =>
    by_cases hvalid : Numeral.isBounded b t = true
    · rw [readInteger, if_pos hvalid] at h
      cases h
      refine ⟨rfl, (Numeral.isBounded_eq_true hvalid).1, ?_⟩
      rintro _ ⟨⟩
      exact hvalid
    · rw [readInteger, if_neg hvalid] at h
      cases h

/-- **A value that is collected is one of its kind.** -/
theorem takes_of_talk {noun : Text} {kind : ValueKind} {l : List Exchange} {v : Text}
    (h : (kind.collect noun).Talk l (.ok (.value v))) (hfair : ∀ x ∈ l, x.Fair) : kind.Takes v := by
  cases kind with
  | text prompt reason =>
    obtain ⟨_, raw, hback, hread, -⟩ := talk_askEscapable h
    obtain ⟨rfl, hblank⟩ := readIf_eq_ok hread
    exact Text.isWord_trim hback (by simpa using hblank)
  | quoted prompt reason =>
    obtain ⟨_, raw, hback, hread, -⟩ := talk_askEscapable h
    obtain ⟨rfl, hblank⟩ := readQuoted_eq_ok hread
    exact ⟨raw.trim, Quoted.decode?_encode _, Text.isWord_trim hback hblank⟩
  | integer prompt reason bounds =>
    obtain ⟨_, raw, -, hread, -⟩ := talk_askEscapable h
    obtain ⟨rfl, hnumeral, hbounded⟩ := readInteger_eq_ok hread
    cases bounds with
    | none => exact Numeral.canonical_dropZeros hnumeral
    | some b =>
      obtain ⟨-, hrange⟩ := Numeral.isBounded_eq_true (hbounded b rfl)
      rw [← Numeral.value_dropZeros] at hrange
      exact ⟨Numeral.canonical_dropZeros hnumeral, hrange⟩
  | truth prompt =>
    obtain ⟨_, raw, -, hread, -⟩ := talk_askEscapable h
    unfold readTruth at hread
    split at hread
    · rename_i b _
      cases hread
      cases b
      · exact .inr rfl
      · exact .inl rfl
    · cases hread
  | choice prompt options => exact talk_selectOrBack h hfair
  | lore prompt =>
    obtain ⟨_, raw, -, hread, -⟩ := talk_askEscapable h
    obtain ⟨hdecode, hne⟩ := Lore.reader_eq_ok hread
    exact ⟨_, hdecode, hne, fun line hline => Lore.isLine_of_mem_lines hline⟩
  | enchantments => exact Enchantment.talk_collect h
  | food prompt =>
    obtain ⟨_, raw, -, hread, -⟩ := talk_askEscapable h
    exact Food.reader_eq_ok hread

end ValueKind
end CommandComposer
