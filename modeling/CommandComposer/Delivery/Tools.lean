import CommandComposer.Delivery
/-!
# Tools — programs that copy and notify

A clipboard tool is given the text and has to take all of it and exit with success.  The tools are tried in order until
one does; a tool that is not there is passed over, and one that fails in any other way is named if none succeeds.
Notifications have one tool.  No program starts, whether it is there or not, with an argument that holds a null
character.
-/
namespace CommandComposer

/-- A program with its arguments. -/
structure Tool where
  program : Text
  arguments : List Text
deriving DecidableEq, Repr

/-- **How the attempt to run a program ends.** -/
inductive Ending where
  /-- There is no such program. -/
  | missing
  /-- It is there but does not start. -/
  | unstartable (fault : Fault)
  /-- It ran; whether it exited with success, and whether it took all it was given. -/
  | exited (success tookAll : Bool)
deriving DecidableEq, Repr

def Ending.started : Ending → Bool
  | .exited .. => true
  | _ => false

/-- A tool and how its run ends. -/
structure Attempt where
  tool : Tool
  ending : Ending

def Tool.canStart (tool : Tool) : Bool := tool.arguments.all fun argument => !argument.contains '\x00'

/-- **The attempt to run a tool**, given how the programs' runs end. -/
def Tool.attempt (ending : Tool → Ending) (tool : Tool) : Attempt :=
  ⟨tool, if tool.canStart then ending tool else .unstartable .argumentHasNull⟩

namespace Tools

/-- The clipboard tools, in the order in which they are tried. -/
def clipboard : List Tool := [
  ⟨"wl-copy", []⟩,
  ⟨"xclip", ["-selection", "clipboard"]⟩,
  ⟨"xsel", ["--clipboard", "--input"]⟩]

def notifier (title message : Text) : Tool := ⟨"notify-send", [title, message]⟩

def copies : Ending → Bool
  | .exited success tookAll => success && tookAll
  | _ => false

/-- **The attempts that are made, and what copying gives**, after the programs in `failed` have failed; `all` are the
programs there are to try.  No attempt is made behind the first that copies the text. -/
def copyAfter (all failed : List Text) : List Attempt → List Attempt × Except Error Unit
  | [] => ([], .error (if failed.isEmpty then .noClipboard all else .clipboardFailed failed))
  | a :: rest =>
    if copies a.ending then ([a], .ok ())
    else
      let behind := copyAfter all (if a.ending = .missing then failed else failed ++ [a.tool.program]) rest
      (a :: behind.1, behind.2)

def programs (attempts : List Attempt) : List Text := attempts.map fun a => a.tool.program

/-- **Copies with the first tool that can.** -/
def copyWith (attempts : List Attempt) : Except Error Unit := (copyAfter (programs attempts) [] attempts).2

/-- The attempts that copying makes. -/
def made (attempts : List Attempt) : List Attempt := (copyAfter (programs attempts) [] attempts).1

def notifyWith (a : Attempt) : Except Error Unit :=
  match a.ending with
  | .missing => .error .noNotifier
  | .unstartable fault => .error (.stream fault)
  | .exited success _ => if success then .ok () else .error (.notificationFailed a.tool.program)

def desktop (ending : Tool → Ending) : Desktop Unit where
  copy _ t := (copyWith (clipboard.map (Tool.attempt ending)), t)
  notify title message t := (notifyWith ((notifier title message).attempt ending), t)

end Tools
end CommandComposer
