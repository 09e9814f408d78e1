import CommandComposer.Clause
import CommandComposer.Template
/-!
# Command — the commands that can be composed, and one under construction

Each kind has a name, which is what a menu offers, and a template with one key per value that the command needs.  A
target is written as a token; its description tells a menu's reader what the token means.

A draft holds what was collected: values by field name, and for a gift its target and the clauses of the target and of
the item.  Serialising puts them into the template of its kind.  The target with its clauses is the value of
`selector`, whatever field had that name; the item's clauses stand behind the value of `item`.
-/
namespace CommandComposer

/-- The kinds of commands. -/
inductive Kind where
  | give
  | teleport
  | setblock
  | fill
  | say
  | execute
deriving DecidableEq, Repr

namespace Kind

/-- **Every kind**, in menu order. -/
def all : List Kind := [.give, .teleport, .setblock, .fill, .say, .execute]

theorem mem_all (kind : Kind) : kind ∈ all := by
  cases kind <;> decide

def name : Kind → Text
  | .give => "give"
  | .teleport => "teleport"
  | .setblock => "setblock"
  | .fill => "fill"
  | .say => "say"
  | .execute => "execute"

def read (name : Text) : Except Error Kind :=
  match all.find? (fun k => k.name == name) with
  | some k => .ok k
  | none => .error (.unsupportedKind name)

/-- **The form of the command.** -/
def template : Kind → Template
  | .give => [.text "/give ", .key "selector", .text " ", .key "item", .text " ", .key "amount"]
  | .teleport => [.text "/teleport ", .key "destination"]
  | .setblock => [.text "/setblock ", .key "position", .text " ", .key "block"]
  | .fill => [.text "/fill ", .key "from", .text " ", .key "to", .text " ", .key "block"]
  | .say => [.text "/say ", .key "message"]
  | .execute => [.text "/execute as ", .key "target", .text " at @s run ", .key "command"]

end Kind

/-- The targets a command can name. -/
inductive Target where
  | nearestPlayer
  | allPlayers
  | executor
  | randomPlayer
  | nearestEntity
deriving DecidableEq, Repr

namespace Target

/-- **Every target**, in menu order. -/
def all : List Target := [.nearestPlayer, .allPlayers, .executor, .randomPlayer, .nearestEntity]

def token : Target → Text
  | .nearestPlayer => "@p"
  | .allPlayers => "@a"
  | .executor => "@s"
  | .randomPlayer => "@r"
  | .nearestEntity => "@n"

def description : Target → Text
  | .nearestPlayer => "Near Player"
  | .allPlayers => "All Player"
  | .executor => "Myself"
  | .randomPlayer => "Random Player"
  | .nearestEntity => "A Nearest Player (1.21+, same '@p[sort=nearest, limit=1]')"

def read (token : Text) : Except Error Target :=
  match all.find? (fun t => t.token == token) with
  | some t => .ok t
  | none => .error (.unknownChoice token)

end Target

/-- **What was collected for one command.** -/
structure Draft where
  kind : Kind
  target : Option Target
  clauses : Option ClauseSet
  components : Option ClauseSet
  fields : Values

namespace Draft

def new (kind : Kind) : Draft := ⟨kind, none, none, none, []⟩

def setField (d : Draft) (name value : Text) : Draft := { d with fields := d.fields.set name value }

def refined (clauses : Option ClauseSet) (base : Text) : Text :=
  match clauses with
  | some s => s.attachTo base
  | none => base

def withSelector (d : Draft) : Values :=
  match d.target with
  | some target => d.fields.set "selector" (refined d.clauses target.token)
  | none => d.fields

/-- **A value for each key of the template**, as far as there is one. -/
def values (d : Draft) : Values :=
  match d.fields.get? "item", d.components with
  | some item, some components => d.withSelector.set "item" (components.attachTo item)
  | _, _ => d.withSelector

/-- **The command.** -/
def serialize (d : Draft) : Except Error Text := d.kind.template.render d.values

end Draft

end CommandComposer
