import CommandComposer.Yaml.Meaning
/-!
# Document — a catalog as a YAML document

A catalog file is a list of block names, or a map whose key `blocks` has such a list; other keys are passed over.  The
whole document has to make sense, also in the parts that are passed over: every scalar has a meaning, and no tag is
left to the application.
-/
namespace CommandComposer
namespace Catalog

open Yaml (Node Meaning Tag)

def fitsCollection (tag : Option Tag) : Bool := !(tag.any Tag.isLocal)

mutual

/-- **Whether all of a node makes sense.** -/
def makesSense : Node → Bool
  | .scalar tag plain t => (Meaning.of tag plain t).isSome
  | .list tag entries => fitsCollection tag && allMakeSense entries
  | .map tag entries => fitsCollection tag && pairsMakeSense entries

def allMakeSense : List Node → Bool
  | [] => true
  | entry :: entries => makesSense entry && allMakeSense entries

def pairsMakeSense : List (Node × Node) → Bool
  | [] => true
  | (key, value) :: entries => makesSense key && makesSense value && pairsMakeSense entries

end

def textOf? : Node → Option Text
  | .scalar tag plain t =>
    match Meaning.of tag plain t with
    | some (.text t) => some t
    | _ => none
  | _ => none

def texts? : Node → Option (List Text)
  | .list _ entries => entries.mapM textOf?
  | _ => none

/-- What a key of the map is: the list of blocks, which can also be named by its place, or something else. -/
def isBlocksKey? : Node → Option Bool
  | .scalar tag plain t =>
    match Meaning.of tag plain t with
    | some (.text t) => some (t = "blocks")
    | some (.natural n) => some (n = 0)
    | _ => none
  | _ => none

def blocksValues? : List (Node × Node) → Option (List Node)
  | [] => some []
  | (key, value) :: entries => do
    let isBlocks ← isBlocksKey? key
    let rest ← blocksValues? entries
    return if isBlocks then value :: rest else rest

/-- **The names in a document**, if it is a catalog. -/
def namesOf? (root : Node) : Option (List Text) :=
  if makesSense root then
    match root with
    | .scalar .. => none
    | .list .. => texts? root
    | .map _ entries =>
      match blocksValues? entries with
      | some [value] => texts? value
      | _ => none
  else none

def readNames? (t : Text) : Option (List Text) := do namesOf? (← Yaml.read? t)

end Catalog
end CommandComposer
