import CommandComposer.Error
import CommandComposer.Ranking
import CommandComposer.Ranking.Subsequence
/-!
# Catalog — the blocks there are

A block is named with or without the namespace in front, and with any white space around.  Its normal form has
neither: the white space goes first, then the namespace, once.

A catalog lists the known blocks by their normal forms, each once, in the order they were read.  One that could not be
read, or that names no block, is unavailable and carries the reason; then blocks are not checked at all.  A block that
is not listed is answered with the entries nearest to it and those that match it.
-/
namespace CommandComposer

/-- The namespace that every block in a command carries. -/
def blockNamespace : Text := "minecraft:"

/-- The text without `head` in front, if it is there. -/
def dropHead (head t : Text) : Text := if head.isPrefixOf t then t.drop head.length else t

/-- **The normal form of a block's name.** -/
def normalBlock (name : Text) : Text := dropHead blockNamespace name.trim

/-- **The known blocks**, or the reason why there are none to check against. -/
inductive Catalog where
  | available (blocks : List Text) (nonempty : blocks ≠ [])
  | unavailable (reason : Text)

/-- What a catalog says of a block. -/
inductive BlockCheck where
  /-- The catalog lists it. -/
  | known
  /-- There is no catalog to check against. -/
  | unchecked
  /-- The catalog does not list it; the nearest entries, and then those that match. -/
  | unknown (suggestions completions : List Text)
deriving DecidableEq, Repr

namespace Catalog

/-- The entries of a list, each where it stands first. -/
def distinct : List Text → List Text
  | [] => []
  | a :: l => a :: (distinct l).filter (fun b => b ≠ a)

/-- The normal forms of the names, without the empty one, each once. -/
def normalBlocks (names : List Text) : List Text :=
  distinct ((names.map normalBlock).filter (fun b => !b.isEmpty))

/-- A catalog of blocks in normal form, or an unavailable one if there are none. -/
def ofNormal (reason : Text) (blocks : List Text) : Catalog :=
  if h : blocks = [] then .unavailable reason else .available blocks h

/-- **The catalog of a list of names.** -/
def ofNames (names : List Text) : Catalog := ofNormal "The block catalog is empty." (normalBlocks names)

def ofSource (source : Text) : Except Error (List Text) → Catalog
  | .ok names => ofNormal (Error.emptyCatalog source).message (normalBlocks names)
  | .error e => .unavailable e.message

def blocks : Catalog → List Text
  | .available blocks _ => blocks
  | .unavailable _ => []

def isAvailable : Catalog → Bool
  | .available .. => true
  | .unavailable _ => false

def reason? : Catalog → Option Text
  | .available .. => none
  | .unavailable reason => some reason

/-- Whether a block is listed, however it is named. -/
def contains (c : Catalog) (name : Text) : Bool := c.blocks.contains (normalBlock name)

def suggest (c : Catalog) (name : Text) (limit : Nat) : List Text :=
  Ranking.nearest (normalBlock name) c.blocks limit

/-- The entries that a measure says match a name, best first. -/
def completeBy (score : Text → Text → Option Int) (c : Catalog) (name : Text) (limit : Nat) : List Text :=
  Ranking.bestMatches (score (normalBlock name)) c.blocks limit

def complete (c : Catalog) (name : Text) (limit : Nat) : List Text :=
  c.completeBy Ranking.Subsequence.score name limit

/-- **What the catalog says of a block**: completions repeat no suggestion, and there are at most `limit` of each. -/
def checkBy (score : Text → Text → Option Int) (c : Catalog) (name : Text) (limit : Nat) : BlockCheck :=
  match c with
  | .unavailable _ => .unchecked
  | .available .. =>
    if c.contains name then .known
    else
      let suggestions := c.suggest name limit
      let matching := c.completeBy score name c.blocks.length
      .unknown suggestions ((matching.filter (fun b => !suggestions.contains b)).take limit)

/-- What the catalog says of a block, completions ranked by how well the name fits into an entry. -/
def check (c : Catalog) (name : Text) (limit : Nat) : BlockCheck :=
  c.checkBy Ranking.Subsequence.score name limit

end Catalog
end CommandComposer
