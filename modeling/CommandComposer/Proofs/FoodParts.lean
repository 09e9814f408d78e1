import CommandComposer.Builder.Value
import CommandComposer.Proofs.Cutting
import CommandComposer.Proofs.Trimming
/-!
# FoodParts — what a food is read from, and read back from its text

A food is read from three parts with a comma between each two, none of them blank (`Food.read?_eq_some_iff`); there are
such parts just if the text holds two commas and none of its pieces is blank (`Food.exists_typed_iff`).  No part holds a
comma, so the text of a food holds the two that stand between its labels and is cut at those, whatever else the parts
hold (`Food.decode?_text`).
-/
namespace CommandComposer
namespace Food

/-- A part of a food: not empty, without white space around it, and without a comma. -/
structure IsPart (part : Text) : Prop where
  nonempty : part ≠ []
  trimmed : part.Trimmed
  whole : ',' ∉ part

/-- **A food as it is typed**: three parts with a comma between each two, no other comma, and no blank part. -/
structure Typed (t a b c : Text) : Prop where
  plain : ',' ∉ a ∧ ',' ∉ b ∧ ',' ∉ c
  whole : t = a ++ ',' :: (b ++ ',' :: c)
  filled : a.allBlank = false ∧ b.allBlank = false ∧ c.allBlank = false

/-- The food of three parts, without the white space around them. -/
def ofParts (a b c : Text) : Food := ⟨a.trim, b.trim, c.trim⟩

/-- **The food of a text**, cut at its commas; each piece stands behind its label, and a brace behind the last. -/
def decode? (t : Text) : Option Food :=
  match t.cutAt (· == ',') with
  | [a, b, c] =>
    some ⟨a.drop ('{' :: ("nutrition:" : Text)).length, b.drop (" saturation:" : Text).length,
      (c.drop (" can_always_eat:" : Text).length).dropLast⟩
  | _ => none

theorem isPart_trim {part : Text} (hplain : ',' ∉ part) (hfilled : part.allBlank = false) : IsPart part.trim where
  nonempty := Text.trim_ne_nil_iff.2 hfilled
  trimmed := Text.trimmed_trim part
  whole hcomma := hplain ((Text.trim_infix part).subset hcomma)

theorem Typed.isPart {t a b c : Text} (h : Typed t a b c) : IsPart a.trim ∧ IsPart b.trim ∧ IsPart c.trim := by
  obtain ⟨ha, hb, hc⟩ := h.plain
  obtain ⟨ha', hb', hc'⟩ := h.filled
  exact ⟨isPart_trim ha ha', isPart_trim hb hb', isPart_trim hc hc'⟩

theorem read?_eq_some_iff {t : Text} {f : Food} : read? t = some f ↔ ∃ a b c, Typed t a b c ∧ f = ofParts a b c := by
  constructor
  · intro h
    unfold read? at h
    split at h
    · rename_i hparts
      split at h
      · rename_i hne
        have hlength := congrArg List.length hparts
        rw [List.length_map] at hlength
        obtain ⟨a, b, c, hcut⟩ := List.length_eq_three.1 hlength
        obtain ⟨hplain, hwhole⟩ := Text.cutAt_eq_three_iff.1 hcut
        rw [hcut] at hparts
        cases hparts
        cases h
        simp only [Text.trim_ne_nil_iff] at hne
        exact ⟨a, b, c, ⟨hplain, hwhole, hne⟩, rfl⟩
      · cases h
    · cases h
  · rintro ⟨a, b, c, ⟨hplain, hwhole, hfilled⟩, rfl⟩
    simp only [← Text.trim_ne_nil_iff] at hfilled
    rw [read?, Text.cutAt_eq_three_iff.2 ⟨hplain, hwhole⟩]
    exact if_pos hfilled

theorem exists_typed_iff {t : Text} :
    (∃ a b c, Typed t a b c) ↔ t.count ',' = 2 ∧ ∀ part ∈ t.splitOn ',', Text.allBlank part = false := by
  rw [List.count_eq_countP, List.splitOn_eq_splitOnP, ← Text.cutAt_eq_splitOnP]
  have hlength := Text.length_cutAt (· == ',') t
  constructor
  · rintro ⟨a, b, c, hplain, hwhole, ha, hb, hc⟩
    rw [Text.cutAt_eq_three_iff.2 ⟨hplain, hwhole⟩] at hlength ⊢
    refine ⟨by simpa using hlength.symm, ?_⟩
    simp [ha, hb, hc]
  · rintro ⟨hcount, hfilled⟩
    rw [hcount] at hlength
    obtain ⟨a, b, c, hcut⟩ := List.length_eq_three.1 hlength
    rw [hcut] at hfilled
    simp only [List.forall_mem_cons] at hfilled
    obtain ⟨ha, hb, hc, -⟩ := hfilled
    obtain ⟨hplain, hwhole⟩ := Text.cutAt_eq_three_iff.1 hcut
    exact ⟨a, b, c, hplain, hwhole, ha, hb, hc⟩

/-- **A food is read back from its text**, if no part of it holds a comma. -/
theorem decode?_text {f : Food} (h : ',' ∉ f.nutrition ∧ ',' ∉ f.saturation ∧ ',' ∉ f.canAlwaysEat) :
    decode? f.text = some f := by
  obtain ⟨hn, hs, hc⟩ := h
  have hcut : f.text.cutAt (· == ',') = [('{' :: ("nutrition:" : Text)) ++ f.nutrition,
      (" saturation:" : Text) ++ f.saturation, (" can_always_eat:" : Text) ++ (f.canAlwaysEat ++ ['}'])] := by
    refine Text.cutAt_eq_three_iff.2 ⟨⟨?_, ?_, ?_⟩, ?_⟩
    · simp [hn]
    · simp [hs]
    · simp [hc]
    · simp [text]
  rw [decode?, hcut]
  dsimp only
  rw [List.drop_left, List.drop_left, List.drop_left, List.dropLast_concat]

theorem reader_eq_ok_iff {t v : Text} : reader t = .ok v ↔ ∃ f, read? t = some f ∧ v = f.text := by
  unfold reader
  cases hread : read? t with
  | none => simp
  | some f =>
    constructor
    · rintro ⟨⟩
      exact ⟨f, rfl, rfl⟩
    · rintro ⟨g, hg, rfl⟩
      cases hg
      rfl

theorem Typed.reader_eq {t a b c : Text} (h : Typed t a b c) : reader t = .ok (ofParts a b c).text :=
  reader_eq_ok_iff.2 ⟨_, read?_eq_some_iff.2 ⟨a, b, c, h, rfl⟩, rfl⟩

theorem exists_reader_eq_ok_iff {t : Text} : (∃ v, reader t = .ok v) ↔ ∃ a b c, Typed t a b c := by
  constructor
  · rintro ⟨v, h⟩
    obtain ⟨f, hread, -⟩ := reader_eq_ok_iff.1 h
    obtain ⟨a, b, c, htyped, -⟩ := read?_eq_some_iff.1 hread
    exact ⟨a, b, c, htyped⟩
  · rintro ⟨a, b, c, htyped⟩
    exact ⟨_, htyped.reader_eq⟩

theorem Typed.decode?_eq {t a b c : Text} (h : Typed t a b c) :
    decode? (ofParts a b c).text = some (ofParts a b c) := by
  obtain ⟨ha, hb, hc⟩ := h.isPart
  exact decode?_text ⟨ha.whole, hb.whole, hc.whole⟩

/-- **Foods are accepted by their parts and decode uniquely.**  A text is a food just if it holds two commas with none
of the three parts blank.  Then it is read to the parts without the white space around them, behind their labels;
whatever the parts hold, they are read back from that, so two foods are read to one text just if these parts are the
same.  Any other text is refused. -/
theorem foods_decode_uniquely (t : Text) :
    ((∃ v, reader t = .ok v) ↔ t.count ',' = 2 ∧ ∀ part ∈ t.splitOn ',', Text.allBlank part = false) ∧
    ((∃ v, reader t = .ok v) ↔ ∃ a b c, Typed t a b c) ∧
    (∀ a b c, Typed t a b c →
      reader t = .ok (ofParts a b c).text ∧ decode? (ofParts a b c).text = some (ofParts a b c) ∧
      ∀ u a' b' c', Typed u a' b' c' →
        (reader u = reader t ↔ a'.trim = a.trim ∧ b'.trim = b.trim ∧ c'.trim = c.trim)) ∧
    ((¬∃ a b c, Typed t a b c) → reader t =
      .error "Please enter food as <nutrition>,<saturation>,<can_always_eat> (e.g., 4,2.4,false).") := by
  refine ⟨exists_reader_eq_ok_iff.trans exists_typed_iff, exists_reader_eq_ok_iff, fun a b c h => ?_, fun hnone => ?_⟩
  · refine ⟨h.reader_eq, h.decode?_eq, fun u a' b' c' h' => ?_⟩
    rw [h.reader_eq, h'.reader_eq]
    constructor
    · intro hsame
      have hdecode := h.decode?_eq
      rw [← Except.ok.inj hsame, h'.decode?_eq] at hdecode
      exact Food.mk.inj (Option.some.inj hdecode)
    · rintro ⟨ha, hb, hc⟩
      rw [ofParts, ofParts, ha, hb, hc]
  · have hread : read? t = none := by
      rw [Option.eq_none_iff_forall_ne_some]
      intro f hf
      obtain ⟨a, b, c, htyped, -⟩ := read?_eq_some_iff.1 hf
      exact hnone ⟨a, b, c, htyped⟩
    rw [reader, hread]

/-- Parts with a brace, a colon and the other labels in them, with white space around. -/
theorem foods_decode_uniquely_labels :
    Typed " 4\x7d ,can_always_eat:, saturation:1\t" " 4\x7d " "can_always_eat:" " saturation:1\t" ∧
    reader " 4\x7d ,can_always_eat:, saturation:1\t" =
      .ok "\x7bnutrition:4\x7d, saturation:can_always_eat:, can_always_eat:saturation:1\x7d".toList ∧
    decode? "\x7bnutrition:4\x7d, saturation:can_always_eat:, can_always_eat:saturation:1\x7d" =
      some ⟨"4\x7d", "can_always_eat:", "saturation:1"⟩ ∧
    reader "4,,1" = .error "Please enter food as <nutrition>,<saturation>,<can_always_eat> (e.g., 4,2.4,false)." := by
  have htyped : Typed " 4\x7d ,can_always_eat:, saturation:1\t" " 4\x7d " "can_always_eat:" " saturation:1\t" :=
    ⟨by decide, rfl, by decide⟩
  obtain ⟨-, -, haccepted, -⟩ := foods_decode_uniquely " 4\x7d ,can_always_eat:, saturation:1\t"
  obtain ⟨hcount, htyped', -, hrefused⟩ := foods_decode_uniquely "4,,1"
  obtain ⟨hread, hdecode, -⟩ := haccepted _ _ _ htyped
  have hfood : ofParts " 4\x7d " "can_always_eat:" " saturation:1\t" =
      ⟨"4\x7d", "can_always_eat:", "saturation:1"⟩ := rfl
  have htext : text ⟨"4\x7d", "can_always_eat:", "saturation:1"⟩ =
      "\x7bnutrition:4\x7d, saturation:can_always_eat:, can_always_eat:saturation:1\x7d".toList := by decide
  rw [hfood, htext] at hread hdecode
  refine ⟨htyped, hread, hdecode, hrefused (fun hparts => ?_)⟩
  have hblank := (hcount.1 (htyped'.2 hparts)).2 [] (by decide)
  cases hblank

end Food
end CommandComposer
