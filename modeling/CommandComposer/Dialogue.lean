import CommandComposer.Dialogue.Partner
/-!
# Dialogue — asking as data

A dialogue says what is asked and remarked and what each answer leads to; a partner turns it into a result.  It is a
tree that is built before anyone answers, so what is true of all dialogues is shown once, by induction on the tree.

The one form of repetition is `rounds`: each round opens with a question, and its answer leads to another round or to
the result.  A round uses up an answer, so a run ends when the partner's answers do.
-/
namespace CommandComposer

/-- What a round leads to. -/
inductive Turn (β γ : Type) where
  | again (state : β)
  | finish (result : γ)

/-- **A dialogue with a result.** -/
inductive Dialogue : Type → Type 1 where
  | done {α : Type} (result : α) : Dialogue α
  | fail {α : Type} (error : Error) : Dialogue α
  | ask (question : Question) : Dialogue Text
  | tell (remark : Remark) : Dialogue Unit
  | andThen {α β : Type} (first : Dialogue α) (next : α → Dialogue β) : Dialogue β
  | rounds {β γ : Type} (question : β → Question) (round : β → Text → Dialogue (Turn β γ)) (start : β) : Dialogue γ

namespace Dialogue

instance : Monad Dialogue where
  pure := done
  bind := andThen

/-- The dialogue that gives what a computation gives. -/
def ofExcept {α : Type} : Except Error α → Dialogue α
  | .ok a => done a
  | .error e => fail e

variable {σ : Type}

/-- **At most `n` rounds.**  A partner with fewer than `n` answers left closes its input before they are over. -/
def roundsWithin (p : Partner σ) {β γ : Type} (question : β → Question)
    (round : β → Text → σ → Except Error (Turn β γ) × σ) : Nat → β → σ → Except Error γ × σ
  | 0, _, s => (.error .inputClosed, s)
  | n + 1, b, s =>
    match p.answer (question b) s with
    | (.error e, t) => (.error e, t)
    | (.ok a, t) =>
      match round b a t with
      | (.error e, u) => (.error e, u)
      | (.ok (.finish c), u) => (.ok c, u)
      | (.ok (.again b'), u) => roundsWithin p question round n b' u

/-- **The run of a dialogue with a partner**: its result, and how it leaves the partner. -/
def run (p : Partner σ) : {α : Type} → Dialogue α → σ → Except Error α × σ
  | _, .done a, s => (.ok a, s)
  | _, .fail e, s => (.error e, s)
  | _, .ask q, s => p.answer q s
  | _, .tell r, s => (.ok (), p.hear r s)
  | _, .andThen d next, s =>
    match d.run p s with
    | (.error e, t) => (.error e, t)
    | (.ok a, t) => (next a).run p t
  | _, .rounds question round b, s =>
    roundsWithin p question (fun b a t => (round b a).run p t) (p.left s + 1) b s

/-- **One after the other**: the second starts where the first leaves the partner, unless that failed. -/
theorem run_bind (p : Partner σ) {α β : Type} (d : Dialogue α) (next : α → Dialogue β) (s : σ) :
    (d >>= next).run p s =
      match d.run p s with
      | (.error e, t) => (.error e, t)
      | (.ok a, t) => (next a).run p t := by
  rw [show d >>= next = andThen d next from rfl, run]

theorem left_roundsWithin_le (p : Partner σ) {β γ : Type} (question : β → Question)
    (round : β → Text → σ → Except Error (Turn β γ) × σ) (h : ∀ b a s, p.left (round b a s).2 ≤ p.left s) :
    ∀ (n : Nat) (b : β) (s : σ), p.left (roundsWithin p question round n b s).2 ≤ p.left s
  | 0, _, _ => Nat.le_refl _
  | n + 1, b, s => by
    have hq := p.left_answer_le (question b) s
    rw [roundsWithin]
    split
    · rename_i e t heq
      rwa [heq] at hq
    · rename_i a t heq
      have hr := h b a t
      rw [heq] at hq
      split
      · rename_i e u hu
        rw [hu] at hr
        exact Nat.le_trans hr hq
      · rename_i c u hu
        rw [hu] at hr
        exact Nat.le_trans hr hq
      · rename_i b' u hu
        rw [hu] at hr
        exact Nat.le_trans (left_roundsWithin_le p question round h n b' u) (Nat.le_trans hr hq)

/-- **A run adds no answers.** -/
theorem left_run_le (p : Partner σ) {α : Type} (d : Dialogue α) : ∀ s : σ, p.left (d.run p s).2 ≤ p.left s := by
  induction d with
  | done a => exact fun s => Nat.le_refl _
  | fail e => exact fun s => Nat.le_refl _
  | ask q => exact fun s => p.left_answer_le q s
  | tell r => exact fun s => p.left_hear_le r s
  | andThen d next ihd ihn =>
    intro s
    have hd := ihd s
    rw [run]
    split
    · rename_i e t heq
      rwa [heq] at hd
    · rename_i a t heq
      rw [heq] at hd
      exact Nat.le_trans (ihn a t) hd
  | rounds question round b ih => exact fun s => left_roundsWithin_le p question _ ih _ _ _

/-- The bound on the number of rounds does not matter, if the answers run out first. -/
theorem roundsWithin_congr (p : Partner σ) {β γ : Type} (question : β → Question)
    (round : β → Text → σ → Except Error (Turn β γ) × σ) (h : ∀ b a s, p.left (round b a s).2 ≤ p.left s) :
    ∀ (m n : Nat) (b : β) (s : σ), p.left s < m → p.left s < n →
      roundsWithin p question round m b s = roundsWithin p question round n b s
  | 0, _, _, _, hm, _ => absurd hm (Nat.not_lt_zero _)
  | _ + 1, 0, _, _, _, hn => absurd hn (Nat.not_lt_zero _)
  | m + 1, n + 1, b, s, hm, hn => by
    rw [roundsWithin, roundsWithin]
    split
    · rfl
    · rename_i a t heq
      have hlt := p.left_answer_lt (question b) s a (by rw [heq])
      have hr := h b a t
      split
      · rfl
      · rfl
      · rename_i b' u hu
        rw [heq] at hlt
        rw [hu] at hr
        exact roundsWithin_congr p question round h m n b' u (by simp_all; omega) (by simp_all; omega)

/-- **Rounds, one at a time**: the question is answered, the round runs, and the rest are the rounds from there. -/
theorem run_rounds (p : Partner σ) {β γ : Type} (question : β → Question)
    (round : β → Text → Dialogue (Turn β γ)) (b : β) (s : σ) :
    (rounds question round b).run p s =
      match p.answer (question b) s with
      | (.error e, t) => (.error e, t)
      | (.ok a, t) =>
        match (round b a).run p t with
        | (.error e, u) => (.error e, u)
        | (.ok (.finish c), u) => (.ok c, u)
        | (.ok (.again b'), u) => (rounds question round b').run p u := by
  rw [run, roundsWithin]
  split
  · rfl
  · rename_i a t heq
    have hlt := p.left_answer_lt (question b) s a (by rw [heq])
    have hr := left_run_le p (round b a) t
    split
    · rfl
    · rfl
    · rename_i b' u hu
      rw [heq] at hlt
      rw [hu] at hr
      rw [run]
      exact roundsWithin_congr p question _ (fun b a s => left_run_le p (round b a) s) _ _ b' u
        (Nat.lt_of_le_of_lt hr hlt) (Nat.lt_succ_self _)

end Dialogue
end CommandComposer
