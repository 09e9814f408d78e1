import CommandComposer.Proofs.Values
/-!
# LoreLines — the lines of a lore, joined and split

No part of the mark both opens and ends it, so a mark between two texts is found where it stands, however the first text
ends (`not_mark_prefix_append`), and the lines of the two are those of each (`brokenLines_append`, `Lore.lines_append`).
A text without the mark is one line, and so lines that are joined by marks are split into the same lines
(`Lore.lines_of_join`).
-/
namespace CommandComposer

/-- **No mark begins inside a text and ends behind it**, where another begins. -/
theorem not_mark_prefix_append {s : Text} (hne : s ≠ []) (h : ¬lineMark <+: s) (b : Text) :
    ¬lineMark <+: s ++ (lineMark ++ b) := by
  rintro ⟨u, hu⟩
  match s with
  | [] => exact hne rfl
  | [_] => simp [lineMark] at hu
  | [_, _] => simp [lineMark] at hu
  | [_, _, _] => simp [lineMark] at hu
  | c₁ :: c₂ :: c₃ :: c₄ :: s =>
    have hmark : lineMark = [c₁, c₂, c₃, c₄] := by
      have hfront := congrArg (List.take 4) hu
      simpa [lineMark] using hfront
    exact h ⟨s, by rw [hmark]; rfl⟩

theorem brokenLines_cons {c : Char} {t line : Text} {lines : List Text} (h : ¬lineMark <+: c :: t)
    (hlines : brokenLines t = line :: lines) : brokenLines (c :: t) = (c :: line) :: lines := by
  have hplain : ∀ u, c = '<' → t = 'b' :: 'r' :: '>' :: u → False := by
    rintro u rfl rfl
    exact h ⟨u, rfl⟩
  rw [brokenLines, hlines]
  exact hplain

/-- **A mark between two texts** ends the lines of the first. -/
theorem brokenLines_append (a b : Text) : brokenLines (a ++ (lineMark ++ b)) = brokenLines a ++ brokenLines b := by
  fun_induction brokenLines a with
  | case1 t ih =>
    have hfirst : brokenLines ('<' :: 'b' :: 'r' :: '>' :: (t ++ (lineMark ++ b))) =
        [] :: brokenLines (t ++ (lineMark ++ b)) := by rw [brokenLines]
    simp only [List.cons_append]
    rw [hfirst, ih]
  | case2 c t hplain hnil => exact absurd hnil (brokenLines_ne_nil t)
  | case3 c t hplain line lines hlines ih =>
    have hmark : ¬lineMark <+: c :: t := by
      rintro ⟨u, hu⟩
      obtain ⟨rfl, rfl⟩ := List.cons.inj hu
      exact hplain u rfl rfl
    rw [hlines] at ih
    exact brokenLines_cons (not_mark_prefix_append (List.cons_ne_nil c t) hmark b) ih
  | case4 => rfl

theorem brokenLines_of_unbroken {t : Text} (h : ¬lineMark <:+: t) : brokenLines t = [t] := by
  induction t with
  | nil => rfl
  | cons c t ih =>
    have htail : ¬lineMark <:+: t := fun hmark => h (List.infix_cons hmark)
    exact brokenLines_cons (fun hstart => h hstart.isInfix) (ih htail)

namespace Lore

theorem lines_append (a b : Text) : lines (a ++ (lineMark ++ b)) = lines a ++ lines b := by
  unfold lines
  rw [brokenLines_append, List.map_append, List.filter_append]

theorem lines_of_isLine {line : Text} (h : IsLine line) : lines line = [line] := by
  simp [lines, brokenLines_of_unbroken h.unbroken, h.trimmed.trim_eq, h.nonempty]

/-- **Joined lines are split into the same lines.** -/
theorem lines_of_join : ∀ {ls : List Text}, (∀ line ∈ ls, IsLine line) → lines (Text.join lineMark ls) = ls
  | [], _ => rfl
  | [line], h => by
    rw [Text.join, List.intercalate_singleton, lines_of_isLine (h line List.mem_cons_self)]
  | line :: next :: ls, h => by
    obtain ⟨hline, hrest⟩ := List.forall_mem_cons.1 h
    have ih := lines_of_join hrest
    rw [Text.join] at ih ⊢
    rw [List.intercalate_cons_cons, List.append_assoc, lines_append, lines_of_isLine hline, ih]
    rfl

/-- **Splitting a lore is the inverse of joining lines by the mark.**  Each line that a text is split into is not empty,
has no white space around it and does not hold the mark.  Lines of that kind that are joined by the mark are split into
themselves, and two texts with the mark between them have the lines of the one and then those of the other. -/
theorem lines_inverse_of_join :
    (∀ t, ∀ line ∈ lines t, IsLine line) ∧
    (∀ ls : List Text, (∀ line ∈ ls, IsLine line) → lines (Text.join lineMark ls) = ls) ∧
    ∀ a b, lines (a ++ lineMark ++ b) = lines a ++ lines b := by
  refine ⟨fun t line hmem => isLine_of_mem_lines hmem, fun ls hls => lines_of_join hls, fun a b => ?_⟩
  rw [List.append_assoc, lines_append]

/-- Lines that end in a part of the mark, begin with one, or hold a space inside. -/
theorem lines_inverse_of_join_parts :
    (∀ line ∈ [("a<br" : Text), "br>", "<", "b c"], IsLine line) ∧
    lines "a<br<br>br><br><<br>b c" = ["a<br", "br>", "<", "b c"] := by
  have hlines : ∀ line ∈ [("a<br" : Text), "br>", "<", "b c"], IsLine line := by
    simp only [List.forall_mem_cons]
    refine ⟨⟨?_, Text.trimmed_trim "a<br", ?_⟩, ⟨?_, Text.trimmed_trim "br>", ?_⟩, ⟨?_, Text.trimmed_trim "<", ?_⟩,
      ⟨?_, Text.trimmed_trim "b c", ?_⟩, nofun⟩ <;> decide
  exact ⟨hlines, lines_inverse_of_join.2.1 _ hlines⟩

end Lore
end CommandComposer
