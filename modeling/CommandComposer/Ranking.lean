import CommandComposer.Text
/-!
# Ranking — the entries of a pool by what separates them from a query

The edit distance is the least number of characters to insert, delete or replace that turns one text into the other.
It is computed row by row: the row of `a` holds the distance from `a` to every end of `b`, the whole of `b` first, and
one more character in front of `a` gives the next row.

Both rankings here sort stably, so entries of equal rank keep their order in the pool.  What they return is only shown
to the user; nothing is put in place of what was typed.
-/
namespace CommandComposer
namespace Ranking

/-- The distances from the empty text to every end of `b`. -/
def bottomRow : Text → List Nat
  | [] => [0]
  | _ :: b => (b.length + 1) :: bottomRow b

/-- **One more character in front**: the row of `x :: a` from the row of `a`. -/
def nextRow (x : Char) : Text → List Nat → List Nat
  | [], row => row.map (· + 1)
  | y :: b, row =>
    let rest := nextRow x b row.tail
    let replace := row.tail.headD 0 + (if x = y then 0 else 1)
    let delete := row.headD 0 + 1
    let insert := rest.headD 0 + 1
    min replace (min delete insert) :: rest

/-- The distances from `a` to every end of `b`, the whole of `b` first. -/
def distanceRow : Text → Text → List Nat
  | [], b => bottomRow b
  | x :: a, b => nextRow x b (distanceRow a b)

/-- **The edit distance** of two texts. -/
def distance (a b : Text) : Nat := (distanceRow a b).headD 0

/-- **The `limit` entries nearest to the query**, nearest first; entries at one distance keep their order. -/
def nearest (query : Text) (pool : List Text) (limit : Nat) : List Text :=
  let ranked := pool.map (fun entry => (distance query entry, entry))
  ((ranked.mergeSort (fun a b => decide (a.1 ≤ b.1))).take limit).map Prod.snd

/-- **The `limit` entries that match best**: those the measure scores, best score first; equal scores keep their
order. -/
def bestMatches (score : Text → Option Int) (pool : List Text) (limit : Nat) : List Text :=
  let scored := pool.filterMap (fun entry => (score entry).map (fun s => (s, entry)))
  ((scored.mergeSort (fun a b => decide (b.1 ≤ a.1))).take limit).map Prod.snd

end Ranking
end CommandComposer
