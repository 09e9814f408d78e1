import CommandComposer.Dialogue.Partner
/-!
# Style — how questions and remarks look on a terminal

Questions are bold and cyan, an echoed value is bold and green, and each tone has a colour of its own.  The terminal is
told by control sequences.
-/
namespace CommandComposer
namespace Terminal

/-- The colours in use. -/
inductive Colour where
  | cyan
  | green
  | blue
  | yellow
  | red
deriving DecidableEq, Repr

/-- The number of a colour in the terminal's palette. -/
def Colour.number : Colour → Text
  | .cyan => "14"
  | .green => "10"
  | .blue => "12"
  | .yellow => "11"
  | .red => "9"

def Colour.start (c : Colour) : Text := "\x1b[38;5;" ++ c.number ++ "m"

def bold : Text := "\x1b[1m"

def plainAgain : Text := "\x1b[0m"

def colourOf : Tone → Colour
  | .info => .blue
  | .success => .green
  | .warning => .yellow
  | .error => .red

/-- Bold type in a colour; the type and the colour are ended one by one. -/
def strong (c : Colour) (t : Text) : Text := c.start ++ bold ++ t ++ plainAgain ++ plainAgain

def messageLine (tone : Tone) (t : Text) : Text := (colourOf tone).start ++ t ++ plainAgain ++ "\n"

def echoLine (label value : Text) : Text := (colourOf .info).start ++ label ++ ": " ++ strong .green value ++ "\n"

def remarkLine : Remark → Text
  | .message tone t => messageLine tone t
  | .echo label value => echoLine label value
  | .notice t => messageLine .warning t

def questionText (t : Text) : Text := strong .cyan t

def entries : Nat → List Choice → Text
  | _, [] => []
  | n, c :: cs => "  " ++ Numeral.ofNat n ++ ") " ++ c.label ++ "\n" ++ entries (n + 1) cs

/-- **A menu as it is shown.** -/
def menuText (message : Text) (choices : List Choice) : Text :=
  questionText message ++ "\n" ++ entries 1 choices ++ questionText "Choose: "

def invalidSelection (count : Nat) : Text :=
  messageLine .error ("Invalid selection. Please choose 1-" ++ Numeral.ofNat count)

end Terminal
end CommandComposer
