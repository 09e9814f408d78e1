import CommandComposer.Terminal.Line
import CommandComposer.Terminal.Style
/-!
# Terminal — a partner at a terminal

Menus are numbered lists and are answered by number; any other line shows the menu again.  A line of text is taken as
typed.  A question that cannot be shown fails; a remark that cannot be shown is lost.
-/
namespace CommandComposer

/-- **The input not yet read, and what was shown.**  With a fault nothing can be shown. -/
structure Terminal where
  input : List UInt8
  output : Text
  fault : Option Fault

namespace Terminal

/-- A terminal with its whole input, before anything was shown. -/
def start (input : List UInt8) : Terminal := ⟨input, [], none⟩

def write (t : Text) (s : Terminal) : Except Error Terminal :=
  match s.fault with
  | none => .ok { s with output := s.output ++ t }
  | some fault => .error (.stream fault)

def line (s : Terminal) : Except Error Text × Terminal :=
  ((readLine s.input).1, { s with input := (readLine s.input).2 })

/-- **The pick from a menu**, in at most `n` lines; an input of fewer bytes is closed before. -/
def pick (message : Text) (choices : List Choice) : Nat → Terminal → Except Error Text × Terminal
  | 0, s => (.error .inputClosed, s)
  | n + 1, s =>
    match s.write (menuText message choices) with
    | .error e => (.error e, s)
    | .ok s =>
      match s.line with
      | (.error e, s) => (.error e, s)
      | (.ok line, s) =>
        match (selection? line choices.length).bind (choices[·]?) with
        | some choice => (.ok choice.value, s)
        | none =>
          match s.write (invalidSelection choices.length) with
          | .error e => (.error e, s)
          | .ok s => pick message choices n s

def answer (q : Question) (s : Terminal) : Except Error Text × Terminal :=
  match q with
  | .menu message [] => (.error (.emptyMenu message), s)
  | .menu message choices => pick message choices (s.input.length + 1) s
  | .line t =>
    match s.write (questionText t) with
    | .error e => (.error e, s)
    | .ok s => s.line

def hear (r : Remark) (s : Terminal) : Terminal :=
  match s.write (remarkLine r) with
  | .ok s => s
  | .error _ => s

theorem input_of_write {t : Text} {s u : Terminal} (h : s.write t = .ok u) : u.input = s.input := by
  unfold write at h
  split at h
  · cases h; rfl
  · exact nomatch h

theorem line_left_le (s : Terminal) : s.line.2.input.length ≤ s.input.length := length_readLine_le s.input

theorem line_left_lt (s : Terminal) (t : Text) (h : s.line.1 = .ok t) : s.line.2.input.length < s.input.length :=
  length_readLine_lt s.input t h

theorem pick_left_le (message : Text) (choices : List Choice) :
    ∀ (n : Nat) (s : Terminal), (pick message choices n s).2.input.length ≤ s.input.length
  | 0, _ => Nat.le_refl _
  | n + 1, s => by
    rw [pick]
    split
    · exact Nat.le_refl _
    · rename_i u hu
      have hl := line_left_le u
      rw [← input_of_write hu]
      split
      · rename_i e v hv
        rwa [hv] at hl
      · rename_i l v hv
        rw [hv] at hl
        split
        · exact hl
        · split
          · exact hl
          · rename_i w hw
            have := pick_left_le message choices n w
            rw [input_of_write hw] at this
            exact Nat.le_trans this hl

theorem pick_left_lt (message : Text) (choices : List Choice) :
    ∀ (n : Nat) (s : Terminal) (a : Text), (pick message choices n s).1 = .ok a →
      (pick message choices n s).2.input.length < s.input.length
  | 0, _, _, h => nomatch h
  | n + 1, s, a, h => by
    rw [pick] at h ⊢
    split at h
    · exact nomatch h
    · rename_i u hu
      rw [← input_of_write hu]
      split at h
      · exact nomatch h
      · rename_i l v hv
        have hl := line_left_lt u l (by rw [hv])
        rw [hv] at hl
        split at h
        · exact hl
        · split at h
          · exact nomatch h
          · rename_i w hw
            have := pick_left_lt message choices n w a h
            rw [input_of_write hw] at this
            exact Nat.lt_trans this hl

theorem answer_left_le (q : Question) (s : Terminal) : (answer q s).2.input.length ≤ s.input.length := by
  unfold answer
  split
  · exact Nat.le_refl _
  · exact pick_left_le ..
  · split
    · exact Nat.le_refl _
    · rename_i u hu
      rw [← input_of_write hu]
      exact line_left_le u

theorem answer_left_lt (q : Question) (s : Terminal) (a : Text) (h : (answer q s).1 = .ok a) :
    (answer q s).2.input.length < s.input.length := by
  unfold answer at h ⊢
  split at h
  · exact nomatch h
  · exact pick_left_lt _ _ _ _ a h
  · split at h
    · exact nomatch h
    · rename_i u hu
      rw [← input_of_write hu]
      exact line_left_lt u a h

theorem hear_left_le (r : Remark) (s : Terminal) : (hear r s).input.length ≤ s.input.length := by
  unfold hear
  split
  · rename_i u hu
    exact Nat.le_of_eq (congrArg List.length (input_of_write hu))
  · exact Nat.le_refl _

/-- **A terminal as a partner.** -/
def partner : Partner Terminal where
  answer := answer
  hear := hear
  left s := s.input.length
  left_answer_le := answer_left_le
  left_answer_lt := answer_left_lt
  left_hear_le := hear_left_le

end Terminal
end CommandComposer
