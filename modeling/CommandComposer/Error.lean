import CommandComposer.Text.Form
/-!
# Error — why a command was not made or not handed over

One constructor per cause, with what its message names; the wording is in `Error.message` alone.
-/
namespace CommandComposer

/-- **What a stream, a file or a program ran into.** -/
inductive Fault where
  | notText
  | notFound
  | notDirectory
  | permissionDenied
  | nameTooLong
  | nameHasNull
  | argumentHasNull
  | other (text : Text)
deriving DecidableEq, Repr

def Fault.message : Fault → Text
  | .notText => "stream did not contain valid UTF-8"
  | .notFound => "No such file or directory (os error 2)"
  | .notDirectory => "Not a directory (os error 20)"
  | .permissionDenied => "Permission denied (os error 13)"
  | .nameTooLong => "File name too long (os error 36)"
  | .nameHasNull => "file name contained an unexpected NUL byte"
  | .argumentHasNull => "nul byte found in provided data"
  | .other text => text

/-- **What is wrong with the text of a template.** -/
inductive TemplateFlaw where
  /-- A backslash stands before a character that needs none, or at the end. -/
  | badEscape
  /-- A brace opens or closes nothing. -/
  | strayBrace
  /-- A backslash stands in a key. -/
  | escapeInKey
  /-- There is no key between two braces. -/
  | emptyKey
deriving DecidableEq, Repr

def TemplateFlaw.message : TemplateFlaw → Text
  | .badEscape => "This escape is malformed."
  | .strayBrace =>
    "This bracket is not opening or closing anything. Try removing it, or escaping it with a backslash."
  | .escapeInKey => "Escapes are not allowed in keys."
  | .emptyKey => "A key cannot be empty."

/-- **Every cause of failure.** -/
inductive Error where
  /-- The input ended while an answer was needed. -/
  | inputClosed
  /-- The conversation's stream failed. -/
  | stream (fault : Fault)
  /-- A kind of command that does not exist. -/
  | unsupportedKind (name : Text)
  /-- A pick that was not offered. -/
  | unknownChoice (pick : Text)
  /-- A menu without entries. -/
  | emptyMenu (message : Text)
  /-- A catalog file that holds no list of blocks. -/
  | malformedCatalog (path : Text)
  /-- A catalog file that cannot be opened. -/
  | unopenedCatalog (path : Text) (fault : Fault)
  /-- A catalog without blocks. -/
  | emptyCatalog (source : Text)
  /-- A template that cannot be read: the flaw, and where it is, in bytes. -/
  | malformedTemplate (flaw : TemplateFlaw) (start length : Nat) (source : Text)
  /-- A template key without a value. -/
  | missingValue (key : Text)
  /-- No clipboard tool exists; the tools that were tried. -/
  | noClipboard (tools : List Text)
  /-- Clipboard tools failed and none succeeded. -/
  | clipboardFailed (tools : List Text)
  /-- There is no notification tool. -/
  | noNotifier
  /-- The notification tool failed. -/
  | notificationFailed (tool : Text)
deriving DecidableEq, Repr

/-- **The wording of an error.** -/
def Error.message : Error → Text
  | .inputClosed => "Input was closed before the command was complete."
  | .stream fault => "STDIO error: " ++ fault.message
  | .unsupportedKind name => "✗ \"" ++ name ++ "\" is not yet supported. Sorry!"
  | .unknownChoice pick => "Unknown selection: \"" ++ pick ++ "\""
  | .emptyMenu message => "Nothing to choose from for \"" ++ message ++ "\""
  | .malformedCatalog path => "Error reading block catalog file at `" ++ path ++ "`: <yaml>"
  | .unopenedCatalog path fault =>
    "IO error with block catalog file at path `" ++ path ++ "`: " ++ fault.message
  | .emptyCatalog source => "No blocks were found in the block catalog. Is `" ++ source ++ "` empty?"
  | .malformedTemplate flaw start length source =>
    "Error parsing command template: " ++ flaw.message ++ " at span start = " ++ Numeral.ofNat start ++
      ", len = " ++ Numeral.ofNat length ++ ": " ++ source
  | .missingValue key => "Error rendering command template: missing key `" ++ key ++ "`"
  | .noClipboard tools => "No clipboard tool is available (tried " ++ Text.join ", " tools ++ ")."
  | .clipboardFailed tools => "Clipboard tool `" ++ Text.join ", " tools ++ "` exited with a failure."
  | .noNotifier => "Desktop notifications are not supported on this platform."
  | .notificationFailed tool => "Notification tool `" ++ tool ++ "` exited with a failure."

end CommandComposer
