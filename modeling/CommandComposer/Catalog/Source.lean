import CommandComposer.Catalog
import CommandComposer.Catalog.Bundled
import CommandComposer.Catalog.Document
import CommandComposer.Files
/-!
# Source — where a catalog comes from

A path that the user names is taken whether it leads anywhere or not; otherwise the catalog in the user's home is
taken if there is one, and else the bundled one.  A tilde at the start of a path stands for the home.
-/
namespace CommandComposer

/-- **What a program finds around it**: the user's home, and what paths lead to. -/
structure Surroundings where
  home : Text
  look : Text → Except Fault Content

namespace Catalog

/-- Where a catalog can come from. -/
inductive Source where
  | file (path : Text)
  | bundled
deriving DecidableEq, Repr

/-- The path with the home in the place of a tilde that stands alone or before a slash. -/
def expand (home : Text) : Text → Text
  | ['~'] => home
  | '~' :: '/' :: t => home ++ '/' :: t
  | t => t

def usualPath : Text := "~/.mccmd/blocks.yml"

def pathOf (home : Text) (named : Option Text) : Text := expand home (named.getD usualPath)

namespace Source

def describe : Source → Text
  | .file path => path
  | .bundled => "<bundled>"

/-- **The source to use**, given the path that the user names, if any. -/
def resolve (around : Surroundings) (named : Option Text) : Source :=
  let path := pathOf around.home named
  match named, around.look path with
  | some _, _ => .file path
  | none, .ok _ => .file path
  | none, .error _ => .bundled

/-- **The names that a source gives.** -/
def read (around : Surroundings) : Source → Except Error (List Text)
  | .bundled => .ok bundledNames
  | .file path =>
    match around.look path with
    | .error fault => .error (.unopenedCatalog path fault)
    | .ok .notText => .error (.malformedCatalog path)
    | .ok .directory => .error (.malformedCatalog path)
    | .ok (.file text) =>
      match readNames? text with
      | some names => .ok names
      | none => .error (.malformedCatalog path)

def load (around : Surroundings) (source : Source) : Catalog := ofSource source.describe (source.read around)

end Source
end Catalog
end CommandComposer
