import CommandComposer.Builder.Value
import CommandComposer.Clause
/-!
# Schema — the keys that can be refined

A schema lists keys in menu order, each with what it means and how its value is asked for.  The menu offers the keys
not collected yet, and then the way out.  There are two schemas: for what a target can be narrowed by, and for what an
item can be given.
-/
namespace CommandComposer

/-- **How the value of a key is asked for.** -/
inductive ValueKind where
  /-- Any text, as typed. -/
  | text (prompt reason : Text)
  /-- Any text, as a literal. -/
  | quoted (prompt reason : Text)
  /-- A numeral, within bounds if there are any. -/
  | integer (prompt reason : Text) (bounds : Option Numeral.Bounds)
  /-- True or false. -/
  | truth (prompt : Text)
  /-- One of the options, each with a description that may be empty. -/
  | choice (prompt : Text) (options : List (Text × Text))
  /-- The lines of a lore. -/
  | lore (prompt : Text)
  /-- Enchantments with their levels. -/
  | enchantments
  /-- What a food gives. -/
  | food (prompt : Text)

/-- A key, its description for the menu, and how its value is asked for. -/
structure KeySpec where
  key : Text
  description : Text
  value : ValueKind

/-- **A list of keys**, and what a key is called. -/
structure Schema where
  noun : Text
  keys : List KeySpec

namespace Schema

def okWord : Text := "OK"

def find? (schema : Schema) (key : Text) : Option KeySpec := schema.keys.find? (fun spec => spec.key == key)

def remaining (schema : Schema) (collected : ClauseSet) : List KeySpec :=
  schema.keys.filter (fun spec => !collected.contains spec.key)

/-- **The menu of a round**: the keys not collected yet, then the way out. -/
def menu (schema : Schema) (collected : ClauseSet) : List Choice :=
  (schema.remaining collected).map (fun spec => .described spec.key spec.description) ++ [.plain okWord]

def gamemodes : List (Text × Text) := [("survival", ""), ("creative", ""), ("adventure", ""), ("spectator", "")]

def sortOrders : List (Text × Text) := [
  ("nearest", "Select from the nearest entity first"),
  ("furthest", "Select from the furthest entity first"),
  ("random", "Select random"),
  ("arbitrary", "Select by spawn time")]

/-- **What a target can be narrowed by**, in menu order. -/
def selectors : Schema where
  noun := "selector"
  keys := [
    ⟨"distance", "Distance to Entity(=Player)",
      .text "Distance to entity (int or range e.g., 1..5 = 1~5)" "Please enter a distance value or range."⟩,
    ⟨"score", "The score value or range which the entity has",
      .text "Score (format: score value or range of A = 'A=1' or 'A=1..10')" "Please enter a score format."⟩,
    ⟨"tag", "The tag which the entity has",
      .text "Tag (format: <your-tag> | put '!' at the beginning to exclude the tag)" "Please enter a tag."⟩,
    ⟨"team", "The team which the entity joins",
      .text "Team (format: <your-team> | put '!' at the beginning to exclude the team)" "Please enter a team."⟩,
    ⟨"limit", "Amount limit", .integer "Limit (int)" "Please enter a limit (non-negative integer)." none⟩,
    ⟨"level", "Experience level",
      .text "Exp level (int or range format: '10' or '10..20')" "Please enter a level."⟩,
    ⟨"gamemode", "Player gamemode", .choice "Player gamemode:" gamemodes⟩,
    ⟨"advancements", "The advancements which the player has",
      .text "Advancement (format: <advancement_ID>=true/false)" "Please enter an advancement."⟩,
    ⟨"predicate", "Match predicates(required datapacks)",
      .text "Predicate (predicate_id | put '!' at the beginning to exclude the predicate)"
        "Please enter a predicate."⟩,
    ⟨"sort", "Specify the order in which to select targets", .choice "Sort:" sortOrders⟩]

def rarities : List (Text × Text) := [
  ("common", "Normal: white, Enchanted: aqua"),
  ("uncommon", "Normal: yellow, Enchanted: aqua"),
  ("rare", "Normal: aqua, Enchanted: light_purple"),
  ("epic", "light_purple")]

def stackSizes : Numeral.Bounds := ⟨1, 99⟩

/-- The prompt for a food, with what its parts are. -/
def foodPrompt : Text :=
  "food (format: <nutrition(int)>,<saturation(int)>,<can_always_eat(bool)>\n" ++
    "    nutrition: Amount of hunger level restored when eating\n" ++
    "    saturation: Amount of hidden hunger level restored when eating\n" ++
    "    can_always_eat: Whether can eat when the hunger level is MAX)"

/-- **What an item can be given**, in menu order. -/
def components : Schema where
  noun := "component"
  keys := [
    ⟨"item_name", "Item Name(Override the original name)",
      .quoted "item_name (override the original name)" "Please enter an item name."⟩,
    ⟨"custom_name", "Item Name(looks like it was edited with an anvil, do not override the original name)",
      .quoted "custom_name (looks like it was edited with an anvil; italic)" "Please enter a custom_name."⟩,
    ⟨"lore", "Item Lore", .lore "lore (lore of the item, insert '<br>' to start a new line)"⟩,
    ⟨"damage", "How much to reduce the durability",
      .integer "damage (how much to reduce the durability, non-negative integer)"
        "Please enter a valid damage value (non-negative integer)." none⟩,
    ⟨"enchantment_glint_override", "Whether show glint of enchantment(no enchantments)",
      .truth "enchantment_glint_override (show the enchantment glint without enchantments, true/false)"⟩,
    ⟨"enchantments", "Item Enchantments", .enchantments⟩,
    ⟨"food", "Setting edible items", .food foodPrompt⟩,
    ⟨"max_damage", "The maximum durability value of that item",
      .integer "max_damage (the maximum durability value of that item, non-negative integer)"
        "Please enter a valid max damage (non-negative integer)." none⟩,
    ⟨"max_stack_size", "The maximum stack size value of that item",
      .integer "max_stack_size (the maximum stack size value of that item, int 1-99)"
        "Please enter a valid max stack size (int, 1-99)." (some stackSizes)⟩,
    ⟨"rarity", "Item Rarity", .choice "rarity (item rarity):" rarities⟩]

end Schema
end CommandComposer
