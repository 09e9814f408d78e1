import CommandComposer.Text
/-!
# Cutting — the pieces and the words of a text

Cutting a text at chosen characters is splitting a list at them (`cutAt_eq_splitOnP`), so one such character between
two texts cuts each of them by itself (`cutAt_append_cons`); cut at one character, a text has three pieces just if it is
those with the character between each two (`cutAt_eq_three_iff`).  The words of a text follow from that: those of two
texts with white space between are the words of both (`words_append_cons`), and the first word is what stands behind
white space and in front of more of it, or of nothing (`words_eq_cons_iff`).  Three words are three texts spread out in
that way (`words_eq_three_iff`).
-/
namespace CommandComposer
namespace Text

variable {p : Char → Bool}

theorem cutAt_eq_splitOnP (p : Char → Bool) : ∀ t : Text, cutAt p t = t.splitOnP p
  | [] => by rw [cutAt, List.splitOnP_nil]
  | c :: t => by
    rw [cutAt, List.splitOnP_cons_eq_if_modifyHead, cutAt_eq_splitOnP p t]
    split
    · rfl
    · split
      · rename_i hnil
        exact absurd hnil (List.splitOnP_ne_nil p t)
      · rename_i w ws hcut
        rw [hcut, List.modifyHead_cons]

theorem cutAt_of_plain {w : Text} (h : ∀ c ∈ w, p c = false) : cutAt p w = [w] := by
  rw [cutAt_eq_splitOnP, List.splitOnP_eq_singleton h]

theorem cutAt_append_cons {c : Char} (hc : p c = true) (s t : Text) :
    cutAt p (s ++ c :: t) = cutAt p s ++ cutAt p t := by
  rw [cutAt_eq_splitOnP, cutAt_eq_splitOnP, cutAt_eq_splitOnP, List.splitOnP_append_cons s t hc]

theorem not_of_mem_cutAt : ∀ {t piece : Text}, piece ∈ cutAt p t → ∀ c ∈ piece, p c = false
  | [], piece, h, c, hc => by
    rw [cutAt, List.mem_singleton] at h
    rw [h] at hc
    cases hc
  | d :: t, piece, h, c, hc => by
    rw [cutAt] at h
    split at h
    · rcases List.mem_cons.1 h with rfl | h
      · cases hc
      · exact not_of_mem_cutAt h c hc
    · rename_i hd
      split at h
      · rename_i hnil
        exact absurd hnil (cutAt_ne_nil p t)
      · rename_i w ws hcut
        rcases List.mem_cons.1 h with rfl | h
        · rcases List.mem_cons.1 hc with rfl | hc
          · simpa using hd
          · exact not_of_mem_cutAt (hcut ▸ List.mem_cons_self) c hc
        · exact not_of_mem_cutAt (hcut ▸ List.mem_cons_of_mem _ h) c hc

theorem length_cutAt (p : Char → Bool) : ∀ t : Text, (cutAt p t).length = t.countP p + 1
  | [] => rfl
  | c :: t => by
    have ih := length_cutAt p t
    rw [cutAt_eq_splitOnP] at ih ⊢
    rw [List.splitOnP_cons_eq_if_modifyHead, List.countP_cons]
    split
    · rw [List.length_cons, ih]
    · rw [List.length_modifyHead, ih]

theorem cutAt_eq_three_iff {d : Char} {t a b c : Text} :
    cutAt (· == d) t = [a, b, c] ↔ (d ∉ a ∧ d ∉ b ∧ d ∉ c) ∧ t = a ++ d :: (b ++ d :: c) := by
  constructor
  · intro h
    have hplain : ∀ piece ∈ [a, b, c], d ∉ piece := by
      intro piece hpiece hd
      rw [← h] at hpiece
      simpa using not_of_mem_cutAt hpiece d hd
    have hjoin : List.intercalate [d] (t.splitOn d) = t := List.intercalate_splitOn d
    rw [List.splitOn_eq_splitOnP, ← cutAt_eq_splitOnP, h] at hjoin
    simp only [List.forall_mem_cons] at hplain
    obtain ⟨ha, hb, hc, -⟩ := hplain
    refine ⟨⟨ha, hb, hc⟩, ?_⟩
    simpa [List.intercalate_cons_cons] using hjoin.symm
  · rintro ⟨⟨ha, hb, hc⟩, rfl⟩
    have hplain : ∀ {piece : Text}, d ∉ piece → cutAt (· == d) piece = [piece] := by
      intro piece hpiece
      refine cutAt_of_plain (fun e he => ?_)
      rw [beq_eq_false_iff_ne]
      rintro rfl
      exact hpiece he
    have hcut := fun s t => cutAt_append_cons (p := (· == d)) (beq_self_eq_true d) s t
    rw [hcut, hcut, hplain ha, hplain hb, hplain hc]
    rfl

/-- **A word**: not empty, and without white space. -/
structure IsPlain (w : Text) : Prop where
  nonempty : w ≠ []
  plain : ∀ c ∈ w, isBlank c = false

theorem words_append_cons {c : Char} (hc : isBlank c = true) (s t : Text) :
    words (s ++ c :: t) = words s ++ words t := by
  unfold words
  rw [cutAt_append_cons hc, List.filter_append]

theorem words_blank_append : ∀ {front : Text}, front.allBlank = true → ∀ t : Text, words (front ++ t) = words t
  | [], _, _ => rfl
  | c :: front, h, t => by
    rw [allBlank, List.all_cons, Bool.and_eq_true] at h
    have hstart := words_append_cons h.1 [] (front ++ t)
    rw [List.nil_append] at hstart
    rw [List.cons_append, hstart, words_blank_append h.2 t]
    rfl

theorem words_of_blank {t : Text} (h : t.allBlank = true) : words t = [] := by
  have hwords := words_blank_append h []
  rwa [List.append_nil] at hwords

theorem words_of_plain {w : Text} (h : IsPlain w) : words w = [w] := by
  simp [words, cutAt_of_plain h.plain, h.nonempty]

theorem words_plain_append {w : Text} (hw : IsPlain w) {rest : Text} (h : ∀ c ∈ rest.head?, isBlank c = true) :
    words (w ++ rest) = w :: words rest := by
  cases rest with
  | nil => rw [List.append_nil, words_of_plain hw, words_of_blank rfl]
  | cons c rest =>
    have hc := h c rfl
    have hrest := words_append_cons hc [] rest
    rw [List.nil_append] at hrest
    rw [words_append_cons hc, hrest, words_of_plain hw]
    rfl

/-- **A text is blank or has a first word**, with white space in front of it, and white space or nothing behind it. -/
theorem blank_or_first_word : ∀ t : Text, t.allBlank = true ∨ ∃ front w rest, t = front ++ (w ++ rest) ∧
    front.allBlank = true ∧ IsPlain w ∧ ∀ c ∈ rest.head?, isBlank c = true
  | [] => .inl rfl
  | c :: t => by
    by_cases hc : isBlank c = true
    · rcases blank_or_first_word t with hblank | ⟨front, w, rest, rfl, hfront, hw, hrest⟩
      · exact .inl (by simp [allBlank, hc, ← hblank])
      · exact .inr ⟨c :: front, w, rest, rfl, by simp [allBlank, hc, ← hfront], hw, hrest⟩
    · refine .inr ⟨[], (c :: t).takeWhile (!isBlank ·), (c :: t).dropWhile (!isBlank ·), ?_, rfl, ⟨?_, ?_⟩, ?_⟩
      · exact List.takeWhile_append_dropWhile.symm
      · simp [hc]
      · intro d hd
        simpa using List.all_eq_true.1 List.all_takeWhile d hd
      · intro d hd
        have hstop := List.head?_dropWhile_not (!isBlank ·) (c :: t)
        rw [Option.mem_def.1 hd] at hstop
        simpa using hstop

/-- **The first word and those behind it**; with `words_of_blank` this is all there is to the words of a text. -/
theorem words_eq_cons_iff {t w : Text} {ws : List Text} : words t = w :: ws ↔
    ∃ front rest, t = front ++ (w ++ rest) ∧ front.allBlank = true ∧ IsPlain w ∧ (∀ c ∈ rest.head?, isBlank c = true) ∧
      words rest = ws := by
  constructor
  · intro h
    rcases blank_or_first_word t with hblank | ⟨front, first, rest, rfl, hfront, hfirst, hrest⟩
    · rw [words_of_blank hblank] at h
      cases h
    · rw [words_blank_append hfront, words_plain_append hfirst hrest] at h
      cases h
      exact ⟨front, rest, rfl, hfront, hfirst, hrest, rfl⟩
  · rintro ⟨front, rest, rfl, hfront, hw, hrest, rfl⟩
    rw [words_blank_append hfront, words_plain_append hw hrest]

theorem words_eq_nil_iff {t : Text} : words t = [] ↔ t.allBlank = true := by
  refine ⟨fun h => ?_, words_of_blank⟩
  rcases blank_or_first_word t with hblank | ⟨front, w, rest, rfl, hfront, hw, hrest⟩
  · exact hblank
  · rw [words_blank_append hfront, words_plain_append hw hrest] at h
    cases h

/-- **Three texts spread out** over one, with white space between each two and maybe around them. -/
def SpreadOut (x y z t : Text) : Prop :=
  ∃ front gap gap' back : Text, t = front ++ x ++ gap ++ y ++ gap' ++ z ++ back ∧ front.allBlank = true ∧
    (gap ≠ [] ∧ gap.allBlank = true) ∧ (gap' ≠ [] ∧ gap'.allBlank = true) ∧ back.allBlank = true

theorem isBlank_of_mem_head? {t : Text} (h : t.allBlank = true) : ∀ c ∈ t.head?, isBlank c = true :=
  fun c hc => List.all_eq_true.1 h c (List.mem_of_mem_head? hc)

theorem isBlank_of_mem_head?_append {gap : Text} (hne : gap ≠ []) (h : gap.allBlank = true) (t : Text) :
    ∀ c ∈ (gap ++ t).head?, isBlank c = true := by
  cases gap with
  | nil => exact absurd rfl hne
  | cons c gap => exact isBlank_of_mem_head? (t := c :: gap) h

/-- White space opens the text that stands behind a word, so there is some in front of the next word. -/
theorem ne_nil_of_opens_blank {gap w rest : Text} (hw : IsPlain w)
    (h : ∀ c ∈ (gap ++ (w ++ rest)).head?, isBlank c = true) : gap ≠ [] := by
  rintro rfl
  cases w with
  | nil => exact hw.nonempty rfl
  | cons c w =>
    have hblank := h c rfl
    rw [hw.plain c List.mem_cons_self] at hblank
    cases hblank

theorem words_eq_three_iff {x y z t : Text} :
    words t = [x, y, z] ↔ IsPlain x ∧ IsPlain y ∧ IsPlain z ∧ SpreadOut x y z t := by
  constructor
  · intro h
    obtain ⟨front, rest, rfl, hfront, hx, hopens, h⟩ := words_eq_cons_iff.1 h
    obtain ⟨gap, rest, rfl, hgap, hy, hopens', h⟩ := words_eq_cons_iff.1 h
    obtain ⟨gap', back, rfl, hgap', hz, -, h⟩ := words_eq_cons_iff.1 h
    have hne := ne_nil_of_opens_blank hy hopens
    have hne' := ne_nil_of_opens_blank hz hopens'
    refine ⟨hx, hy, hz, front, gap, gap', back, ?_, hfront, ⟨hne, hgap⟩, ⟨hne', hgap'⟩, words_eq_nil_iff.1 h⟩
    simp only [List.append_assoc]
  · rintro ⟨hx, hy, hz, front, gap, gap', back, rfl, hfront, ⟨hne, hgap⟩, ⟨hne', hgap'⟩, hback⟩
    simp only [List.append_assoc]
    rw [words_blank_append hfront, words_plain_append hx (isBlank_of_mem_head?_append hne hgap _)]
    rw [words_blank_append hgap, words_plain_append hy (isBlank_of_mem_head?_append hne' hgap' _)]
    rw [words_blank_append hgap', words_plain_append hz (isBlank_of_mem_head? hback), words_of_blank hback]

/-- **Words that are joined by a space** are the words of the text. -/
theorem words_join : ∀ {ws : List Text}, (∀ w ∈ ws, IsPlain w) → words (join " " ws) = ws
  | [], _ => rfl
  | [w], h => by
    rw [join, List.intercalate_singleton, words_of_plain (h w List.mem_cons_self)]
  | w :: w' :: ws, h => by
    obtain ⟨hw, hws⟩ := List.forall_mem_cons.1 h
    have hjoin : join " " (w :: w' :: ws) = w ++ ' ' :: join " " (w' :: ws) := by
      simp [join, List.intercalate_cons_cons]
    rw [hjoin, words_append_cons (by decide), words_of_plain hw, words_join hws]
    rfl

end Text
end CommandComposer
