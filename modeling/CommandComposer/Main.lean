import CommandComposer.Create
/-!
# Main — the command line

Everything is decided elsewhere; here bytes are read and text is written.  The program is run on the input so far: what
it shows until it asks for more is written, one more line is read, and it is run again.
-/
namespace CommandComposer
namespace CommandLine

def usage : Text :=
  "Generate Minecraft commands interactively\n\n" ++
    "Usage: mccmd create [--copy[=true|false]] [-s|--silent] [-b|--blocks-path <PATH>]\n"

def version : Text := "mccmd 0.1.0\n"

/-- What is said about a command line that is not carried out. -/
def explain : UsageError → Text
  | .displayHelp => usage
  | .displayVersion => version
  | .unknownArgument => ("error: unexpected argument found\n\n" : Text) ++ usage
  | .invalidSubcommand => ("error: unrecognized subcommand\n\n" : Text) ++ usage
  | .invalidValue => ("error: invalid value for an argument\n\n" : Text) ++ usage
  | .argumentConflict => ("error: an argument cannot be used multiple times\n\n" : Text) ++ usage
  | .tooManyValues => ("error: unexpected value for an argument\n\n" : Text) ++ usage

def faultOf (e : IO.Error) : Fault :=
  match e with
  | .noFileOrDirectory .. => .notFound
  | .permissionDenied .. => .permissionDenied
  | e => .other (toString e).toList

def look (path : String) : IO (Except Fault Content) := do
  try
    let bytes ← IO.FS.readBinFile path
    return .ok (match Text.ofBytes? bytes.data.toList with
      | some text => .file text
      | none => .notText)
  catch
    | .inappropriateType .. => return .ok .directory
    | e => return .error (faultOf e)

partial def nextLine (stream : IO.FS.Stream) (line : List UInt8) : IO (List UInt8) := do
  let byte ← stream.read 1
  match byte.data.toList with
  | [] => return line
  | b :: _ => if b = Terminal.lineFeed then return line ++ [b] else nextLine stream (line ++ [b])

/-- **Runs on more and more input**, writing what is new. -/
partial def converse (around : Surroundings) (o : CreateOptions) (input : List UInt8) (written : Nat) :
    IO (Except Error Delivery.Report) := do
  let stdout ← IO.getStdout
  let (result, shown, sofar) := runOn around o input
  let write (t : Text) : IO Unit := do
    stdout.putStr (String.ofList (t.drop written))
    stdout.flush
  match sofar with
  | none =>
    write shown
    return result
  | some t =>
    write t
    let line ← nextLine (← IO.getStdin) []
    if line.isEmpty then
      stdout.putStr (String.ofList (shown.drop t.length))
      return result
    else converse around o (input ++ line) t.length

end CommandLine
end CommandComposer

open CommandComposer CommandLine in
def main (args : List String) : IO UInt32 := do
  match parse (args.map String.toList) with
  | .error e =>
    if e = .displayHelp ∨ e = .displayVersion then
      IO.print (String.ofList (explain e))
      return 0
    else
      IO.eprint (String.ofList (explain e))
      return 2
  | .ok .nothing =>
    IO.print (String.ofList usage)
    return 0
  | .ok (.create o) =>
    let home := ((← IO.getEnv "HOME").getD "").toList
    let path := Catalog.pathOf home o.blocksPath
    let found ← look (String.ofList path)
    let around : Surroundings := ⟨home, fun p => if p = path then found else .error .notFound⟩
    match ← converse around o [] 0 with
    | .ok _ => return 0
    | .error e =>
      IO.eprintln (String.ofList e.message)
      return 1
