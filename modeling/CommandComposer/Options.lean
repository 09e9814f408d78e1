import CommandComposer.Delivery
/-!
# Options — what the command line asks for

The one subcommand, `create`, has three options: whether to copy, whether to be silent, and a path.  Long options start
with two hyphens and are not shortened; short ones can stand together behind one.  An option may be given once.  A path
that stands in the argument behind its option is taken over when the next option, or the end, is met, so an argument
that is not known at all is the first thing to be wrong.
-/
namespace CommandComposer

/-- Why a command line is not carried out. -/
inductive UsageError where
  | displayHelp
  | displayVersion
  | unknownArgument
  | invalidSubcommand
  | invalidValue
  | argumentConflict
  | tooManyValues
deriving DecidableEq, Repr

/-- **The options of `create`.** -/
structure CreateOptions where
  copy : Option Bool := none
  silent : Bool := false
  blocksPath : Option Text := none
deriving DecidableEq, Repr

namespace CreateOptions

def shouldCopy (o : CreateOptions) : Bool := o.copy.getD true

def delivery (o : CreateOptions) : Delivery.Options := ⟨o.shouldCopy, o.silent⟩

end CreateOptions

/-- What a command line asks for. -/
inductive Request where
  | nothing
  | create (options : CreateOptions)
deriving DecidableEq, Repr

namespace CommandLine

/-- The path option that was met last: none, one without its value, or one with it. -/
inductive Pending where
  | none
  | open
  | path (value : Text)

/-- The options taken over so far, and the one that is not. -/
structure Parsing where
  options : CreateOptions
  pending : Pending

/-- What an argument leads to. -/
abbrev Step := Except UsageError Parsing

def setPath (value : Text) (o : CreateOptions) : Except UsageError CreateOptions :=
  if o.blocksPath.isSome then .error .argumentConflict else .ok { o with blocksPath := some value }

def setCopy (value : Text) (o : CreateOptions) : Except UsageError CreateOptions :=
  if o.copy.isSome then .error .argumentConflict
  else if value = "true" then .ok { o with copy := some true }
  else if value = "false" then .ok { o with copy := some false }
  else .error .invalidValue

def setSilent (o : CreateOptions) : Except UsageError CreateOptions :=
  if o.silent then .error .argumentConflict else .ok { o with silent := true }

/-- **The options, with the pending one taken over.** -/
def settle (p : Parsing) : Except UsageError CreateOptions :=
  match p.pending with
  | .none => .ok p.options
  | .open => .error .invalidValue
  | .path value => setPath value p.options

/-- The options with one more, behind the pending one. -/
def take (p : Parsing) (set : CreateOptions → Except UsageError CreateOptions) : Step := do
  return ⟨← set (← settle p), .none⟩

def openPath (p : Parsing) : Step := do return ⟨← settle p, .open⟩

/-- The value of a short option that stands right behind its letter, with or without an equals sign. -/
def attached : Text → Text
  | '=' :: t => t
  | t => t

/-- **Short options** behind one hyphen. -/
def shorts : Text → Parsing → Step
  | [], p => .ok p
  | c :: t, p =>
    if c = 's' then do shorts t (← take p setSilent)
    else if c = 'h' then do
      let _ ← settle p
      .error .displayHelp
    else if c = 'b' then if t.isEmpty then openPath p else take p (setPath (attached t))
    else .error .unknownArgument

/-- The name of a long option, and its value behind an equals sign if it has one. -/
def nameAndValue (t : Text) : Text × Option Text :=
  match t.dropWhile (· ≠ '=') with
  | [] => (t, none)
  | _ :: value => (t.takeWhile (· ≠ '='), some value)

/-- **A long option** behind two hyphens. -/
def long (t : Text) (p : Parsing) : Step :=
  let (name, value) := nameAndValue t
  if name = "copy" then take p (setCopy (value.getD "true"))
  else if name = "blocks-path" then
    match value with
    | some value => take p (setPath value)
    | none => openPath p
  else if name = "silent" then if value.isSome then .error .tooManyValues else take p setSilent
  else if name = "help" then
    if value.isSome then .error .tooManyValues
    else do
      let _ ← settle p
      .error .displayHelp
  else .error .unknownArgument

def argument (arg : Text) (p : Parsing) : Step :=
  match arg, p.pending with
  | '-' :: '-' :: t, _ => long t p
  | '-' :: c :: t, _ => shorts (c :: t) p
  | arg, .open => .ok { p with pending := .path arg }
  | _, _ => .error .unknownArgument

/-- **The arguments of `create`**; behind two hyphens alone nothing may follow. -/
def arguments : List Text → Parsing → Except UsageError CreateOptions
  | [], p => settle p
  | arg :: rest, p =>
    if arg = "--" then if rest.isEmpty then settle p else .error .unknownArgument
    else do arguments rest (← argument arg p)

def subcommands : List Text := ["create", "help"]

/-- What `help` leads to: help on one subcommand or on all. -/
def help : List Text → UsageError
  | [] => .displayHelp
  | [name] => if name ∈ subcommands then .displayHelp else .invalidSubcommand
  | _ => .invalidSubcommand

/-- What an option in front of a subcommand leads to. -/
def globalOption : Text → UsageError
  | '-' :: t =>
    let (name, value) := nameAndValue t
    if name = "help" then if value.isSome then .tooManyValues else .displayHelp
    else if name = "version" then if value.isSome then .tooManyValues else .displayVersion
    else .unknownArgument
  | 'h' :: _ => .displayHelp
  | 'V' :: _ => .displayVersion
  | _ => .unknownArgument

/-- **What the arguments ask for.** -/
def parse : List Text → Except UsageError Request
  | [] => .ok .nothing
  | arg :: rest =>
    if arg = "create" then (arguments rest ⟨{}, .none⟩).map .create
    else if arg = "help" then .error (help rest)
    else if arg = "--" then
      match rest with
      | [] => .ok .nothing
      | next :: _ => .error (if next ∈ subcommands then .unknownArgument else .invalidSubcommand)
    else
      match arg with
      | '-' :: c :: t => .error (globalOption (c :: t))
      | _ => .error .invalidSubcommand

end CommandLine
end CommandComposer
