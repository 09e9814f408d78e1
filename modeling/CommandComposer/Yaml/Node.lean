import CommandComposer.Yaml.Written
/-!
# Node — the content of a YAML document

In the content of a document each alias is replaced by the node that its slot names: the last one anchored there,
which may stand behind the alias or around it.  Two limits keep the content finite.  Collections stand at most 128 deep
in one another, and at most a hundred aliases are followed for each part that is written.
-/
namespace CommandComposer
namespace Yaml

/-- **A node** with its tag; a scalar also knows whether it was plain. -/
inductive Node where
  | scalar (tag : Option Tag) (plain : Bool) (text : Text)
  | list (tag : Option Tag) (entries : List Node)
  | map (tag : Option Tag) (entries : List (Node × Node))

/-- The anchored nodes by their slots, the last one first. -/
abbrev Slots := List (Nat × Written)

namespace Written

mutual

/-- How many parts a node is written in: scalars, aliases, and both ends of each collection. -/
def parts : Written → Nat
  | .scalar .. => 1
  | .alias _ => 1
  | .anchored _ w => parts w
  | .list _ entries => 2 + partsOfList entries
  | .map _ entries => 2 + partsOfMap entries

def partsOfList : List Written → Nat
  | [] => 0
  | w :: entries => parts w + partsOfList entries

def partsOfMap : List (Written × Written) → Nat
  | [] => 0
  | (key, value) :: entries => parts key + parts value + partsOfMap entries

end

mutual

def slots (known : Slots) : Written → Slots
  | .scalar .. => known
  | .alias _ => known
  | .anchored slot w => slots ((slot, w) :: known) w
  | .list _ entries => slotsOfList known entries
  | .map _ entries => slotsOfMap known entries

def slotsOfList (known : Slots) : List Written → Slots
  | [] => known
  | w :: entries => slotsOfList (slots known w) entries

def slotsOfMap (known : Slots) : List (Written × Written) → Slots
  | [] => known
  | (key, value) :: entries => slotsOfMap (slots (slots known key) value) entries

end

end Written

namespace Node

/-- A computation that may follow only so many aliases. -/
abbrev Following := StateT Nat Option

def spend : Following Unit := fun
  | 0 => none
  | n + 1 => some ((), n)

/-- **What stands at a place**, behind its anchor and in place of an alias. -/
def follow (slots : Slots) : Written → Following Written
  | .alias slot => do
    spend
    slots.lookup slot
  | .anchored _ w => pure w
  | w => pure w

/-- **The content of a node**, with at most `n` collections in one another. -/
def expand (slots : Slots) : Nat → Written → Following Node
  | 0, w => do
    match ← follow slots w with
    | .scalar tag plain t => return .scalar tag plain t
    | _ => none
  | n + 1, w => do
    match ← follow slots w with
    | .scalar tag plain t => return .scalar tag plain t
    | .list tag entries => return .list tag (← entries.mapM (expand slots n))
    | .map tag entries =>
      return .map tag (← entries.mapM fun (key, value) => return (← expand slots n key, ← expand slots n value))
    | _ => none

/-- How many collections may stand one inside the other. -/
def deepest : Nat := 128

/-- **The content of a document.** -/
def ofWritten? (w : Written) : Option Node := ((expand (w.slots []) deepest w).run (100 * w.parts)).map Prod.fst

end Node

/-- **The node that a text holds**, if it is one well-formed document. -/
def read? (t : Text) : Option Node := do Node.ofWritten? (← Reading.document (← tokens? t))

end Yaml
end CommandComposer
