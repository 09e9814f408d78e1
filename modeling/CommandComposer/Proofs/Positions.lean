import CommandComposer.Proofs.Cutting
import CommandComposer.Proofs.Numerals
import CommandComposer.Proofs.Trimming
/-!
# Positions — coordinates, and a position's text

A coordinate is what its grammar says (`isCoordinate_iff`).  It is made of digits, a minus and a tilde
(`of_mem_coordinate`), so no white space stands in one, and a text gives a position just if its coordinates are spread
out over the text (`Position.read?_eq_some_iff_spreadOut`).  What a position is written as is read as the position
(`Position.read?_text`), with nothing around it to trim (`Position.trimmed_text`).
-/
namespace CommandComposer

theorem Numeral.of_mem_integer {t : Text} (h : isInteger t = true) {c : Char} (hc : c ∈ t) :
    c = '-' ∨ c.isDigit = true := by
  unfold isInteger at h
  split at h
  · exact (List.mem_cons.1 hc).imp_right (isDigit_of_isNumeral h c)
  · exact .inr (isDigit_of_isNumeral h c hc)

theorem of_mem_coordinate {t : Text} (h : isCoordinate t = true) {c : Char} (hc : c ∈ t) :
    c = '~' ∨ c = '-' ∨ c.isDigit = true := by
  unfold isCoordinate at h
  split at h
  · exact .inl (List.mem_singleton.1 hc)
  · exact (List.mem_cons.1 hc).imp_right (Numeral.of_mem_integer h)
  · exact .inr (Numeral.of_mem_integer h hc)

/-- **A whole number**: digits, with a minus in front or without. -/
inductive Numeral.Signed : Text → Prop
  | digits {t : Text} (h : IsDigits t) : Signed t
  | minus {t : Text} (h : IsDigits t) : Signed ('-' :: t)

/-- **A coordinate by its grammar**: a whole number, a tilde, or one behind the other. -/
inductive Coordinate : Text → Prop
  | number {t : Text} (h : Numeral.Signed t) : Coordinate t
  | tilde : Coordinate ['~']
  | offset {t : Text} (h : Numeral.Signed t) : Coordinate ('~' :: t)

theorem Numeral.isInteger_iff {t : Text} : isInteger t = true ↔ Signed t := by
  constructor
  · intro h
    unfold isInteger at h
    split at h
    · exact .minus (isNumeral_iff.1 h)
    · exact .digits (isNumeral_iff.1 h)
  · intro h
    cases h with
    | digits h =>
      unfold isInteger
      split
      · exact absurd (h.2 '-' List.mem_cons_self).1 (by decide)
      · exact isNumeral_iff.2 h
    | minus h => exact isNumeral_iff.2 h

theorem isCoordinate_iff {t : Text} : isCoordinate t = true ↔ Coordinate t := by
  constructor
  · intro h
    unfold isCoordinate at h
    split at h
    · exact .tilde
    · exact .offset (Numeral.isInteger_iff.1 h)
    · exact .number (Numeral.isInteger_iff.1 h)
  · intro h
    cases h with
    | number h =>
      have hinteger := Numeral.isInteger_iff.2 h
      have htilde : '~' ∉ t := fun hmem => absurd (Numeral.of_mem_integer hinteger hmem) (by decide)
      unfold isCoordinate
      split
      · exact absurd List.mem_cons_self htilde
      · exact absurd List.mem_cons_self htilde
      · exact hinteger
    | tilde => rfl
    | offset h =>
      unfold isCoordinate
      split
      · rfl
      · rename_i hsame
        cases hsame
        exact Numeral.isInteger_iff.2 h
      · rename_i hne
        exact absurd rfl (hne _)

theorem isPlain_of_isCoordinate {t : Text} (h : isCoordinate t = true) : t.IsPlain where
  nonempty := by
    rintro rfl
    cases h
  plain c hc := by
    rcases of_mem_coordinate h hc with rfl | rfl | hdigit
    · decide
    · decide
    · exact Numeral.isBlank_of_isDigit hdigit

namespace Position

theorem read?_eq_some_iff {t : Text} {p : Position} : read? t = some p ↔ t.words = [p.x, p.y, p.z] := by
  unfold read?
  constructor
  · intro h
    split at h
    · rename_i hwords
      split at h
      · cases h
        exact hwords
      · cases h
    · cases h
  · intro h
    rw [h]
    exact dif_pos p.valid

/-- **A text gives the position** whose coordinates are spread out over it. -/
theorem read?_eq_some_iff_spreadOut {t : Text} {p : Position} :
    read? t = some p ↔ Text.SpreadOut p.x p.y p.z t := by
  obtain ⟨hx, hy, hz⟩ := p.valid
  rw [read?_eq_some_iff, Text.words_eq_three_iff]
  constructor
  · rintro ⟨-, -, -, h⟩
    exact h
  · intro h
    exact ⟨isPlain_of_isCoordinate hx, isPlain_of_isCoordinate hy, isPlain_of_isCoordinate hz, h⟩

variable (p : Position)

theorem text_eq : p.text = p.x ++ ' ' :: (p.y ++ ' ' :: p.z) := by
  simp [text, Text.join, List.intercalate_cons_cons]

theorem words_text : p.text.words = [p.x, p.y, p.z] := by
  refine Text.words_join (fun w hw => isPlain_of_isCoordinate ?_)
  simp only [List.mem_cons, List.not_mem_nil, or_false] at hw
  rcases hw with rfl | rfl | rfl
  · exact p.valid.1
  · exact p.valid.2.1
  · exact p.valid.2.2

theorem read?_text : read? p.text = some p := read?_eq_some_iff.2 p.words_text

theorem head?_text : p.text.head? = p.x.head? := by
  rw [text_eq, List.head?_append_of_ne_nil _ (isPlain_of_isCoordinate p.valid.1).nonempty]

theorem trimmed_text : p.text.Trimmed := by
  have hx := isPlain_of_isCoordinate p.valid.1
  have hz := isPlain_of_isCoordinate p.valid.2.2
  refine ⟨fun c hc => hx.plain c ?_, fun c hc => hz.plain c ?_⟩
  · rw [head?_text] at hc
    exact List.mem_of_mem_head? hc
  · have hends : p.text = (p.x ++ ' ' :: (p.y ++ [' '])) ++ p.z := by simp [text_eq]
    rw [hends, List.getLast?_append_of_ne_nil _ hz.nonempty] at hc
    exact List.mem_of_mem_getLast? hc

end Position
end CommandComposer
