import Mathlib.Order.Bounds.Defs
import Mathlib.Order.MinMax
import CommandComposer.Ranking
/-!
# EditDistance — the distance is the least number of edits

The row of `a` holds the distances from `a` to every end of `b`, so what is computed row by row satisfies the recursion
on both texts (`distance_cons_cons`).  An edit anywhere in a text changes its distance to another by one at most
(`Edit.distance_le`), and the recursion says which edits to make.  So the distance is the least number of edits that
lead from one text to the other (`isLeast_distance`), and only equal texts have none between them.
-/
namespace CommandComposer
namespace Ranking

/-- **One edit**: a character is put in, taken out or replaced. -/
inductive Edit : Text → Text → Prop where
  | insert (before : Text) (c : Char) (after : Text) : Edit (before ++ after) (before ++ c :: after)
  | delete (before : Text) (c : Char) (after : Text) : Edit (before ++ c :: after) (before ++ after)
  | replace (before : Text) (c d : Char) (after : Text) : Edit (before ++ c :: after) (before ++ d :: after)

/-- A number of edits, one after the other. -/
inductive Edits : Nat → Text → Text → Prop where
  | none (t : Text) : Edits 0 t t
  | more {n : Nat} {a b c : Text} (h : Edit a b) (rest : Edits n b c) : Edits (n + 1) a c

theorem tail_distanceRow (y : Char) (b : Text) : ∀ a : Text, (distanceRow a (y :: b)).tail = distanceRow a b
  | [] => rfl
  | x :: a => by
    have ih := tail_distanceRow y b a
    simp only [distanceRow, nextRow, List.tail_cons, ih]

theorem distanceRow_nil_right : ∀ a : Text, distanceRow a [] = [a.length]
  | [] => rfl
  | x :: a => by simp [distanceRow, nextRow, distanceRow_nil_right a]

theorem distance_nil_right (a : Text) : distance a [] = a.length := by
  simp [distance, distanceRow_nil_right]

theorem distance_nil_left (b : Text) : distance [] b = b.length := by
  cases b <;> simp [distance, distanceRow, bottomRow]

/-- **The recursion on both texts**: the last step at the front replaces or keeps, takes out, or puts in. -/
theorem distance_cons_cons (x y : Char) (a b : Text) :
    distance (x :: a) (y :: b) =
      min (distance a b + if x = y then 0 else 1) (min (distance a (y :: b) + 1) (distance (x :: a) b + 1)) := by
  simp only [distance, distanceRow, nextRow, tail_distanceRow, List.headD_cons]

theorem distance_cons_right_le (w : Char) (a c : Text) : distance a (w :: c) ≤ distance a c + 1 := by
  cases a with
  | nil => simp [distance_nil_left]
  | cons x a =>
    rw [distance_cons_cons]
    omega

theorem distance_cons_left_le (x : Char) (a c : Text) : distance (x :: a) c ≤ distance a c + 1 := by
  cases c with
  | nil => simp [distance_nil_right]
  | cons w c =>
    rw [distance_cons_cons]
    omega

theorem distance_le_cons_left (x : Char) (a : Text) : ∀ c : Text, distance a c ≤ distance (x :: a) c + 1
  | [] => by
    simp only [distance_nil_right, List.length_cons]
    omega
  | w :: c => by
    -- of the three steps only the one that puts `w` in needs the induction
    have ih := distance_le_cons_left x a c
    have hput := distance_cons_right_le w a c
    rw [distance_cons_cons]
    omega

theorem distance_replace_le (x y : Char) (a : Text) : ∀ c : Text, distance (x :: a) c ≤ distance (y :: a) c + 1
  | [] => by simp [distance_nil_right]
  | w :: c => by
    have ih := distance_replace_le x y a c
    rw [distance_cons_cons, distance_cons_cons]
    split <;> split <;> omega

theorem distance_cons_le {a b : Text} (h : ∀ c, distance a c ≤ distance b c + 1) (z : Char) :
    ∀ c : Text, distance (z :: a) c ≤ distance (z :: b) c + 1
  | [] => by
    have hlength := h []
    simp only [distance_nil_right, List.length_cons] at hlength ⊢
    omega
  | w :: c => by
    have ih := distance_cons_le h z c
    have hkeep := h c
    have hdelete := h (w :: c)
    rw [distance_cons_cons, distance_cons_cons]
    split <;> omega

/-- **An edit changes a distance by one at most**, wherever it is made. -/
theorem Edit.distance_le {a b : Text} (h : Edit a b) (c : Text) : distance a c ≤ distance b c + 1 := by
  -- at the front the recursion says so; from there it is carried past each character before the edit
  cases h with
  | insert before x after =>
    induction before generalizing c with
    | nil => exact distance_le_cons_left x after c
    | cons z before ih => exact distance_cons_le ih z c
  | delete before x after =>
    induction before generalizing c with
    | nil => exact distance_cons_left_le x after c
    | cons z before ih => exact distance_cons_le ih z c
  | replace before x y after =>
    induction before generalizing c with
    | nil => exact distance_replace_le x y after c
    | cons z before ih => exact distance_cons_le ih z c

theorem distance_self : ∀ t : Text, distance t t = 0
  | [] => rfl
  | x :: t => by
    rw [distance_cons_cons, distance_self t]
    simp

theorem Edits.distance_le {n : Nat} {a b : Text} (h : Edits n a b) : distance a b ≤ n := by
  induction h with
  | none t => exact Nat.le_of_eq (distance_self t)
  | @more n a b c hedit hrest ih =>
    have hone := hedit.distance_le c
    omega

theorem Edit.cons (z : Char) {a b : Text} (h : Edit a b) : Edit (z :: a) (z :: b) := by
  cases h with
  | insert before c after => exact .insert (z :: before) c after
  | delete before c after => exact .delete (z :: before) c after
  | replace before c d after => exact .replace (z :: before) c d after

theorem Edits.cons (z : Char) {n : Nat} {a b : Text} (h : Edits n a b) : Edits n (z :: a) (z :: b) := by
  induction h with
  | none t => exact .none (z :: t)
  | more hedit hrest ih => exact .more (hedit.cons z) ih

/-- **The edits that the recursion makes**, from the front on. -/
theorem edits_distance : ∀ a b : Text, Edits (distance a b) a b
  | [], [] => .none []
  | [], y :: b => by
    have ih := edits_distance [] b
    rw [distance_nil_left] at ih ⊢
    exact .more (.insert [] y []) (ih.cons y)
  | x :: a, [] => by
    have ih := edits_distance a []
    rw [distance_nil_right] at ih ⊢
    exact .more (.delete [] x a) ih
  | x :: a, y :: b => by
    have hreplace := edits_distance a b
    have hdelete := edits_distance a (y :: b)
    have hinsert := edits_distance (x :: a) b
    rw [distance_cons_cons]
    -- the least of the three numbers is the one whose edit is made
    rcases min_choice (distance a b + if x = y then 0 else 1) (min (distance a (y :: b) + 1) (distance (x :: a) b + 1))
      with h | h
    · rw [h]
      split
      · rename_i heq
        rw [heq]
        exact hreplace.cons y
      · exact .more (.replace [] x y a) (hreplace.cons y)
    · rw [h]
      rcases min_choice (distance a (y :: b) + 1) (distance (x :: a) b + 1) with h | h
      · rw [h]
        exact .more (.delete [] x a) hdelete
      · rw [h]
        exact .more (.insert [] y (x :: a)) (hinsert.cons y)

/-- **The distance is the least number of edits** from one text to the other. -/
theorem isLeast_distance (a b : Text) : IsLeast {n | Edits n a b} (distance a b) :=
  ⟨edits_distance a b, fun _ h => Edits.distance_le h⟩

theorem distance_eq_zero_iff {a b : Text} : distance a b = 0 ↔ a = b := by
  constructor
  · intro h
    have hedits := edits_distance a b
    rw [h] at hedits
    cases hedits
    rfl
  · rintro rfl
    exact distance_self a

end Ranking
end CommandComposer
