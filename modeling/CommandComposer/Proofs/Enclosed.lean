import Mathlib.Data.List.DropRight
import CommandComposer.Proofs.Swapping
import CommandComposer.Proofs.Values
/-!
# Enclosed — typed text stays inside its literal

A mark is escaped if it stands behind an odd run of backslashes (`Escapes`).  What is written of a character leaves no
run open and escapes the mark in it, if there is one, and so does what is written of a text (`steady_encoded`); so a
literal has no marks that are not escaped but those around it (`literal_encode`).  Reading a literal or a list of them
stops where it ends, so none is ended by what was typed, wherever its clause stands among those of an item
(`typed_text_enclosed`).
-/
namespace CommandComposer
namespace Quoted

/-- The run of backslashes at the end is odd, so that what comes next is escaped. -/
def Escapes (t : Text) : Prop := (t.rtakeWhile (· == '\\')).length % 2 = 1

/-- **A text from which no mark stands out**: behind what escapes nothing it escapes nothing, and all marks in it are
escaped. -/
def Steady (v : Text) : Prop :=
  ∀ u, ¬ Escapes u → ¬ Escapes (u ++ v) ∧ ∀ before after, v = before ++ '"' :: after → Escapes (u ++ before)

/-- **A literal of a text**: it stands between marks and decodes to the text, has no control characters, and has no
marks that are not escaped but its first and its last character. -/
structure Literal (v s : Text) : Prop where
  enclosed : ∃ body, v = '"' :: body ++ ['"']
  decoded : decode? v = some s
  printable : ∀ c ∈ v, 0x20 ≤ c.toNat
  marks : ∀ before after, v = before ++ '"' :: after → (Escapes before ↔ before ≠ [] ∧ after ≠ [])

theorem not_escapes_nil : ¬ Escapes [] := by
  unfold Escapes
  decide

theorem escapes_concat (t : Text) (c : Char) : Escapes (t ++ [c]) ↔ c = '\\' ∧ ¬ Escapes t := by
  rw [Escapes, List.rtakeWhile_concat, Escapes]
  by_cases hc : c = '\\'
  · simp [hc]
    omega
  · simp [hc]

theorem steady_nil : Steady [] := fun u hu => ⟨by rwa [List.append_nil], fun before after h => by simp at h⟩

theorem Steady.append {v w : Text} (hv : Steady v) (hw : Steady w) : Steady (v ++ w) := by
  intro u hu
  obtain ⟨huv, hmarks⟩ := hv u hu
  obtain ⟨huw, hmarks'⟩ := hw (u ++ v) huv
  rw [List.append_assoc] at huw
  refine ⟨huw, fun before after h => ?_⟩
  rcases append_eq_append_cons h with ⟨mid, hbefore, -⟩ | ⟨mid, rfl, hmid⟩
  · exact hmarks before mid hbefore
  · rw [← List.append_assoc]
    exact hmarks' mid after hmid

theorem steady_plain {c : Char} (hslash : c ≠ '\\') (hmark : c ≠ '"') : Steady [c] := by
  intro u _
  refine ⟨fun h => hslash ((escapes_concat u c).1 h).1, fun before after h => ?_⟩
  have hmem : '"' ∈ [c] := h ▸ List.mem_append_right _ List.mem_cons_self
  exact absurd (List.mem_singleton.1 hmem).symm hmark

/-- A backslash escapes what stands behind it, whatever it is. -/
theorem steady_escaped (c : Char) : Steady ['\\', c] := by
  intro u hu
  have hslash : Escapes (u ++ ['\\']) := (escapes_concat u '\\').2 ⟨rfl, hu⟩
  refine ⟨?_, fun before after h => ?_⟩
  · rw [List.append_cons, escapes_concat]
    exact fun h => h.2 hslash
  · cases before with
    | nil => cases h
    | cons d before =>
      obtain ⟨rfl, htail⟩ := List.cons.inj h
      cases before with
      | nil => exact hslash
      | cons d before => simp at htail

theorem hexDigit_plain : ∀ n < 16, hexDigit n ≠ '\\' ∧ hexDigit n ≠ '"' ∧ 0x20 ≤ (hexDigit n).toNat := by decide

theorem steady_encodeChar (c : Char) : Steady (encodeChar c) := by
  have hzero : Steady ['0'] := steady_plain (by decide) (by decide)
  have hdigit : ∀ n < 16, Steady [hexDigit n] := by
    intro n hn
    obtain ⟨hslash, hmark, -⟩ := hexDigit_plain n hn
    exact steady_plain hslash hmark
  rcases encodeChar_cases c with ⟨d, -, -, h⟩ | ⟨hcontrol, h⟩ | ⟨hslash, hmark, -, h⟩
  · rw [h]
    exact steady_escaped d
  · have hhigh := hdigit (c.toNat / 16) (by omega)
    have hlow := hdigit (c.toNat % 16) (by omega)
    rw [h]
    exact (steady_escaped 'u').append (hzero.append (hzero.append (hhigh.append hlow)))
  · rw [h]
    exact steady_plain hslash hmark

theorem steady_encoded : ∀ s : Text, Steady (s.flatMap encodeChar)
  | [] => steady_nil
  | c :: s => by
    rw [List.flatMap_cons]
    exact (steady_encodeChar c).append (steady_encoded s)

theorem printable_encodeChar (c : Char) : ∀ d ∈ encodeChar c, 0x20 ≤ d.toNat := by
  rcases encodeChar_cases c with ⟨d, -, hd, h⟩ | ⟨hcontrol, h⟩ | ⟨-, -, hc, h⟩
  · rw [h, List.forall_mem_cons, List.forall_mem_singleton]
    exact ⟨by decide, hd⟩
  · have hhigh := (hexDigit_plain (c.toNat / 16) (by omega)).2.2
    have hlow := (hexDigit_plain (c.toNat % 16) (by omega)).2.2
    simp only [h, List.forall_mem_cons]
    exact ⟨by decide, by decide, by decide, by decide, hhigh, hlow, nofun⟩
  · rw [h, List.forall_mem_singleton]
    exact hc

theorem printable_encode (s : Text) : ∀ c ∈ encode s, 0x20 ≤ c.toNat := by
  rw [encode, List.cons_append, List.forall_mem_cons, List.forall_mem_append, List.forall_mem_singleton]
  refine ⟨by decide, fun c hc => ?_, by decide⟩
  obtain ⟨d, -, hd⟩ := List.mem_flatMap.1 hc
  exact printable_encodeChar d c hd

theorem literal_encode (s : Text) : Literal (encode s) s where
  enclosed := ⟨_, rfl⟩
  decoded := decode?_encode s
  printable := printable_encode s
  marks before after h := by
    have hmark : ¬ Escapes ['"'] := fun h => absurd ((escapes_concat [] '"').1 h).1 (by decide)
    obtain ⟨hopen, hmarks⟩ := steady_encoded s ['"'] hmark
    cases before with
    | nil => exact iff_of_false not_escapes_nil (fun h => h.1 rfl)
    | cons d before =>
      obtain ⟨rfl, htail⟩ := List.cons.inj h
      rcases append_eq_append_cons htail with ⟨mid, hbefore, rfl⟩ | ⟨mid, rfl, hmid⟩
      · have hafter : mid ++ ['"'] ≠ [] := List.append_ne_nil_of_right_ne_nil _ (List.cons_ne_nil _ _)
        exact iff_of_true (hmarks before mid hbefore) ⟨List.cons_ne_nil _ _, hafter⟩
      · cases mid with
        | nil =>
          obtain ⟨-, rfl⟩ := List.cons.inj hmid
          rw [List.append_nil]
          exact iff_of_false hopen (fun h => h.2 rfl)
        | cons e mid => simp at hmid

theorem encode_inj {s t : Text} : encode s = encode t ↔ s = t := by
  refine ⟨fun h => ?_, fun h => h ▸ rfl⟩
  have hdecode := decode?_encode s
  rw [h, decode?_encode] at hdecode
  exact (Option.some.inj hdecode).symm

theorem encodeList_inj {ss ts : List Text} : encodeList ss = encodeList ts ↔ ss = ts := by
  refine ⟨fun h => ?_, fun h => h ▸ rfl⟩
  have hdecode := decodeList?_encodeList ss
  rw [h, decodeList?_encodeList] at hdecode
  exact (Option.some.inj hdecode).symm

end Quoted

theorem Text.join_cons (separator part : Text) : ∀ parts : List Text,
    join separator (part :: parts) = part ++ parts.flatMap (separator ++ ·)
  | [] => by rw [join, List.intercalate_singleton, List.flatMap_nil, List.append_nil]
  | next :: parts => by
    have ih := join_cons separator next parts
    rw [join] at ih ⊢
    rw [List.intercalate_cons_cons, ih, List.flatMap_cons, List.append_assoc, List.append_assoc]

theorem Text.join_split (separator part : Text) (after : List Text) : ∀ before : List Text,
    join separator (before ++ part :: after) =
      before.flatMap (· ++ separator) ++ (part ++ after.flatMap (separator ++ ·))
  | [] => join_cons separator part after
  | first :: before => by
    have ih := join_split separator part after before
    have hne : before ++ part :: after ≠ [] := List.append_ne_nil_of_right_ne_nil _ (List.cons_ne_nil _ _)
    rw [join] at ih ⊢
    rw [List.cons_append, List.intercalate_cons_of_ne_nil hne, ih, List.flatMap_cons, List.append_assoc,
      List.append_assoc, List.append_assoc]

namespace ClauseSet

/-- What stands in front of a value behind other clauses. -/
def ahead (base : Text) (before : List Clause) (key : Text) : Text :=
  base ++ "[" ++ before.flatMap (fun c => c.text ++ [',']) ++ key ++ "="

/-- What stands behind a value in front of other clauses. -/
def behind (after : List Clause) : Text := after.flatMap (fun c => ',' :: c.text) ++ "]"

/-- **A value stands where its clause does**, as it is. -/
theorem attachTo_split {set : ClauseSet} {before after : List Clause} {key value : Text}
    (h : set.toList = before ++ ⟨key, value⟩ :: after) (base : Text) :
    set.attachTo base = ahead base before key ++ (value ++ behind after) := by
  have hne : set.isEmpty = false := by simp [isEmpty, h]
  have htext : set.text = before.flatMap (fun c => c.text ++ [',']) ++
      (key ++ "=" ++ value ++ after.flatMap (fun c => ',' :: c.text)) := by
    rw [text, h, List.map_append, List.map_cons, Text.join_split, List.flatMap_map, List.flatMap_map, Clause.text]
    rfl
  rw [attachTo_of_not_isEmpty hne, htext]
  simp [ahead, behind]

end ClauseSet

open Dialogue Quoted

/-- **Typed text stays inside its literal.**  What is written of a text is a literal of it, and of no other.  A quoted
value that is collected is that of the last answer, and a lore is the list of the answer's lines, so two of them are the
same just if what was typed is, but for the white space that is trimmed.  Inside an item a value stands where its clause
does; a reader of literals that starts there reads what was typed, and stops where the value ends. -/
theorem typed_text_enclosed {σ : Type} (p : Partner σ) (s : σ) (noun : Text) :
    (∀ t, Literal (encode t) t) ∧ (∀ t u, encode t = encode u ↔ t = u) ∧
    (∀ prompt reason v, (((ValueKind.quoted prompt reason).collect noun).run p s).1 = .ok (.value v) →
      ∃ before raw, ((ValueKind.quoted prompt reason).collect noun).transcript p s =
        before ++ [.asked (escapable prompt) (.ok raw)] ∧ v = encode raw.trim) ∧
    (∀ prompt v, (((ValueKind.lore prompt).collect noun).run p s).1 = .ok (.value v) →
      ∃ before raw, ((ValueKind.lore prompt).collect noun).transcript p s =
        before ++ [.asked (escapable prompt) (.ok raw)] ∧ Lore.reader raw.trim = .ok v ∧
        decodeList? v = some (Lore.lines raw.trim)) ∧
    (∀ t u v w, Lore.reader t = .ok v → Lore.reader u = .ok w → (v = w ↔ Lore.lines t = Lore.lines u)) ∧
    ∀ (set : ClauseSet) base before key value after, set.toList = before ++ ⟨key, value⟩ :: after →
      set.attachTo base = ClauseSet.ahead base before key ++ (value ++ ClauseSet.behind after) ∧
      (∀ t, value = encode t → readLiteral (value ++ ClauseSet.behind after) = some (t, ClauseSet.behind after)) ∧
      ∀ t, Lore.reader t = .ok value →
        readList (value ++ ClauseSet.behind after) = some (Lore.lines t, ClauseSet.behind after) := by
  refine ⟨literal_encode, fun t u => encode_inj, ?_, ?_, ?_, ?_⟩
  · intro prompt reason v hrun
    have htalk := ((ValueKind.quoted prompt reason).collect noun).talk_transcript p s
    rw [hrun] at htalk
    obtain ⟨before, raw, -, hread, htranscript⟩ := talk_askEscapable htalk
    exact ⟨before, raw, htranscript, (ValueKind.readQuoted_eq_ok hread).1⟩
  · intro prompt v hrun
    have htalk := ((ValueKind.lore prompt).collect noun).talk_transcript p s
    rw [hrun] at htalk
    obtain ⟨before, raw, -, hread, htranscript⟩ := talk_askEscapable htalk
    exact ⟨before, raw, htranscript, hread, (Lore.reader_eq_ok hread).1⟩
  · intro t u v w hv hw
    obtain ⟨-, rfl⟩ := Lore.reader_eq_ok_iff.1 hv
    obtain ⟨-, rfl⟩ := Lore.reader_eq_ok_iff.1 hw
    exact encodeList_inj
  · intro set base before key value after h
    refine ⟨ClauseSet.attachTo_split h base, ?_, fun t hread => ?_⟩
    · rintro t rfl
      exact readLiteral_encode t _
    · obtain ⟨-, rfl⟩ := Lore.reader_eq_ok_iff.1 hread
      exact readList_encodeList _ _

/-- A name that would close its literal and its item and ends in a backslash, behind a lore of a mark and a bracket. -/
theorem typed_text_enclosed_unclosed :
    let name : Text := "x\"],a=[\\"
    let script := Script.start [" ", " x\"],a=[\\ "]
    let named := (ValueKind.quoted "Name" "Please enter a name.").collect "component"
    let rarity : Clause := ⟨"rarity", "rare"⟩
    let lore : Clause := ⟨"lore", encodeList ["\"", "]"]⟩
    (named.run (Script.partner .checked) script).1 = .ok (.value (encode name)) ∧
    (∃ before raw, named.transcript (Script.partner .checked) script =
      before ++ [.asked (escapable "Name") (.ok raw)] ∧ encode name = encode raw.trim) ∧
    Lore.reader "\"<br>]" = .ok lore.value ∧
    ∃ set : ClauseSet, set.toList = [lore, ⟨"item_name", encode name⟩, rarity] ∧
      readList (lore.value ++ ClauseSet.behind [⟨"item_name", encode name⟩, rarity]) =
        some (Lore.lines "\"<br>]", ClauseSet.behind [⟨"item_name", encode name⟩, rarity]) ∧
      readLiteral (encode name ++ ClauseSet.behind [rarity]) = some (name, ClauseSet.behind [rarity]) := by
  intro name script named rarity lore
  have hrun : (named.run (Script.partner .checked) script).1 = .ok (.value (encode name)) := rfl
  have hlore : Lore.reader "\"<br>]" = .ok lore.value := rfl
  obtain ⟨-, -, hquoted, -, -, hitem⟩ := typed_text_enclosed (Script.partner .checked) script "component"
  let set : ClauseSet := ⟨[lore, ⟨"item_name", encode name⟩, rarity], by decide⟩
  obtain ⟨-, -, hlist⟩ := hitem set "stick" [] "lore" lore.value [⟨"item_name", encode name⟩, rarity] rfl
  obtain ⟨-, hliteral, -⟩ := hitem set "stick" [lore] "item_name" (encode name) [rarity] rfl
  exact ⟨hrun, hquoted _ _ _ hrun, hlore, set, rfl, hlist _ hlore, hliteral _ rfl⟩

end CommandComposer
