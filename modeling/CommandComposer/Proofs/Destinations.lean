import CommandComposer.Proofs.Positions
import CommandComposer.Session
/-!
# Destinations — what positions and destinations are read to

A position is read to its text, so to three coordinates with a space between each two.  A destination is a target, read
to itself, or a position; no position opens with an at sign (`head?_ne_at`), so these two never meet
(`readDestination_eq_ok_iff`).  What either reader gives it reads as it is (`positions_by_grammar`).
-/
namespace CommandComposer

theorem Position.head?_ne_at {t : Text} {p : Position} (h : read? t = some p) : t.head? ≠ some '@' := by
  obtain ⟨front, gap, gap', back, rfl, hfront, -⟩ := read?_eq_some_iff_spreadOut.1 h
  intro hat
  simp only [List.append_assoc] at hat
  cases front with
  | nil =>
    have hne := (isPlain_of_isCoordinate p.valid.1).nonempty
    rw [List.nil_append, List.head?_append_of_ne_nil _ hne] at hat
    exact absurd (of_mem_coordinate p.valid.1 (List.mem_of_mem_head? hat)) (by decide)
  | cons c front =>
    have hc := List.all_eq_true.1 hfront c List.mem_cons_self
    rw [List.cons_append, List.head?_cons, Option.some.injEq] at hat
    rw [hat] at hc
    exact absurd hc (by decide)

namespace Session

theorem readPosition_eq_ok_iff {reason t v : Text} :
    readPosition reason t = .ok v ↔ ∃ p, Position.read? t = some p ∧ v = p.text := by
  unfold readPosition
  cases hread : Position.read? t with
  | none => simp
  | some p =>
    constructor
    · rintro ⟨⟩
      exact ⟨p, rfl, rfl⟩
    · rintro ⟨q, hq, rfl⟩
      cases hq
      rfl

/-- **A destination is a target or a position.** -/
theorem readDestination_eq_ok_iff {t destination : Text} : readDestination t = .ok destination ↔
    (∃ name, name ≠ [] ∧ t = '@' :: name ∧ destination = t) ∨
      ∃ p, Position.read? t = some p ∧ destination = p.text := by
  unfold readDestination
  split
  · rename_i c name
    constructor
    · rintro ⟨⟩
      exact .inl ⟨c :: name, List.cons_ne_nil _ _, rfl, rfl⟩
    · rintro (⟨-, -, -, rfl⟩ | ⟨p, hread, -⟩)
      · rfl
      · exact absurd rfl (Position.head?_ne_at hread)
  · rename_i hother
    rw [readPosition_eq_ok_iff]
    refine ⟨.inr, ?_⟩
    rintro (⟨name, hne, rfl, -⟩ | hread)
    · obtain ⟨c, name, rfl⟩ := List.exists_cons_of_ne_nil hne
      exact absurd rfl (hother c name)
    · exact hread

theorem readDestination_eq_self {t destination : Text} (h : readDestination t = .ok destination) :
    readDestination destination = .ok destination := by
  rcases readDestination_eq_ok_iff.1 h with ⟨name, hne, rfl, rfl⟩ | ⟨p, -, rfl⟩
  · exact h
  · exact readDestination_eq_ok_iff.2 (.inr ⟨p, p.read?_text, rfl⟩)

/-- **Positions and destinations by their grammar.**  A text is a position just if three coordinates are spread out
over it.  It is read to those, with a space between each two, which is a position with the same coordinates and read as
it is; so two positions are read to one text just if their coordinates are the same.  A destination is an at sign with
something behind it, or a position, and what it is read to is read as it is. -/
theorem positions_by_grammar (s : Text) :
    (∀ x y z, (∃ valid, Position.read? s = some ⟨x, y, z, valid⟩) ↔
      Coordinate x ∧ Coordinate y ∧ Coordinate z ∧ Text.SpreadOut x y z s) ∧
    (∀ reason v, readPosition reason s = .ok v ↔ ∃ p, Position.read? s = some p ∧ v = p.text) ∧
    (∀ p, Position.read? s = some p →
      p.text = p.x ++ ' ' :: (p.y ++ ' ' :: p.z) ∧ p.text = Text.join " " s.words ∧ Position.read? p.text = some p ∧
      (∀ reason, readPosition reason p.text = .ok p.text) ∧
      ∀ u q, Position.read? u = some q → (q.text = p.text ↔ q.x = p.x ∧ q.y = p.y ∧ q.z = p.z)) ∧
    (∀ destination, readDestination s = .ok destination ↔
      (∃ name, name ≠ [] ∧ s = '@' :: name ∧ destination = s) ∨ ∃ p, Position.read? s = some p ∧ destination = p.text) ∧
    ∀ destination, readDestination s = .ok destination → readDestination destination = .ok destination := by
  refine ⟨fun x y z => ?_, fun reason v => readPosition_eq_ok_iff, fun p hread => ?_,
    fun destination => readDestination_eq_ok_iff, fun destination => readDestination_eq_self⟩
  · constructor
    · rintro ⟨⟨hx, hy, hz⟩, hread⟩
      exact ⟨isCoordinate_iff.1 hx, isCoordinate_iff.1 hy, isCoordinate_iff.1 hz,
        Position.read?_eq_some_iff_spreadOut.1 hread⟩
    · rintro ⟨hx, hy, hz, hspread⟩
      have hvalid : isCoordinate x ∧ isCoordinate y ∧ isCoordinate z :=
        ⟨isCoordinate_iff.2 hx, isCoordinate_iff.2 hy, isCoordinate_iff.2 hz⟩
      exact ⟨hvalid, Position.read?_eq_some_iff_spreadOut.2 hspread⟩
  · have hwords := Position.read?_eq_some_iff.1 hread
    refine ⟨p.text_eq, ?_, p.read?_text, fun reason => readPosition_eq_ok_iff.2 ⟨p, p.read?_text, rfl⟩, ?_⟩
    · rw [hwords, Position.text]
    · intro u q _
      constructor
      · intro htext
        have hsame := q.read?_text
        rw [htext, p.read?_text] at hsame
        cases hsame
        exact ⟨rfl, rfl, rfl⟩
      · rintro ⟨hx, hy, hz⟩
        rw [Position.text, Position.text, hx, hy, hz]

/-- Coordinates between a tab, spaces, an em space and a line feed, and a target with a space. -/
theorem positions_by_grammar_spread :
    ∃ p, Position.read? "\t~-05  12\u2003~\n" = some p ∧ p.text = "~-05 12 ~".toList ∧ Position.read? p.text = some p ∧
      readDestination "\t~-05  12\u2003~\n" = .ok p.text ∧ readDestination p.text = .ok p.text ∧
      readDestination "@p 1" = .ok "@p 1".toList ∧ ¬∃ destination, readDestination "@" = .ok destination := by
  obtain ⟨-, -, hposition, hdestination, hagain⟩ := positions_by_grammar "\t~-05  12\u2003~\n"
  obtain ⟨-, -, -, htarget, -⟩ := positions_by_grammar "@p 1"
  obtain ⟨-, -, -, hat, -⟩ := positions_by_grammar "@"
  have hread : Position.read? "\t~-05  12\u2003~\n" = some ⟨"~-05", "12", "~", by decide⟩ := rfl
  obtain ⟨-, -, hsame, -⟩ := hposition _ hread
  have hfound := (hdestination _).2 (.inr ⟨_, hread, rfl⟩)
  refine ⟨_, hread, rfl, hsame, hfound, hagain _ hfound, (htarget _).2 (.inl ⟨"p 1", by decide, rfl, rfl⟩), ?_⟩
  rintro ⟨destination, hname⟩
  rcases (hat _).1 hname with ⟨name, hne, heq, -⟩ | ⟨p, hnone, -⟩
  · cases heq
    exact hne rfl
  · cases hnone

end Session
end CommandComposer
