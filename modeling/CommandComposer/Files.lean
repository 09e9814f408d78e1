import CommandComposer.Error
/-!
# Files — looking up paths

A path is a list of steps.  A step into a name has to find a directory or, at the end, a file; an empty step and `.`
stay, and `..` goes one directory up.  Above the directory that is known nothing is found.
-/
namespace CommandComposer

/-- What a path leads to: a file with its text, a file whose bytes are no text, or a directory. -/
inductive Content where
  | file (text : Text)
  | notText
  | directory
deriving DecidableEq, Repr

/-- **Files by their paths**, all below one directory. -/
abbrev Files := List (Text × Text)

namespace Files

def steps (path : Text) : List Text := Text.cutAt (· == '/') path

def names (path : Text) : List Text := (steps path).filter fun s => !(s.isEmpty || s = ".")

def at? (files : Files) (way : List Text) : Option Content :=
  match files.find? (fun f => names f.1 == way) with
  | some f => some (.file f.2)
  | none => if way.isEmpty || files.any (fun f => way.isPrefixOf (names f.1)) then some .directory else none

/-- Where a walk stands: in a directory that is known, or somewhere above it. -/
inductive Standing where
  | inside (way : List Text)
  | outside

def Standing.up : Standing → Standing
  | .inside [] => .outside
  | .inside way => .inside way.dropLast
  | .outside => .outside

def longestName : Nat := 255

def longestPath : Nat := 4095

/-- **The walk along the steps.** -/
def walk (files : Files) : Standing → List Text → Except Fault Content
  | _, [] => .ok .directory
  | here, step :: rest =>
    if step = "" ∨ step = "." then walk files here rest
    else if step = ".." then walk files here.up rest
    else if longestName < Text.byteLength step then .error .nameTooLong
    else
      match here with
      | .outside => .error .notFound
      | .inside way =>
        match at? files (way ++ [step]) with
        | none => .error .notFound
        | some .directory => walk files (.inside (way ++ [step])) rest
        | some content => if rest.isEmpty then .ok content else .error .notDirectory

/-- **What a path leads to**, or why it leads nowhere. -/
def look (files : Files) (path : Text) : Except Fault Content :=
  if path.isEmpty then .error .notFound
  else if '\x00' ∈ path then .error .nameHasNull
  else if longestPath < Text.byteLength path then .error .nameTooLong
  else walk files (if path.head? = some '/' then .outside else .inside []) (steps path)

end Files
end CommandComposer
