import CommandComposer.Error
/-!
# Line — reading a byte stream line by line

A line ends with a line feed or with the input.  It is read whole even if its bytes are no text, so what follows it is
read as it stands.  The line feed and any carriage returns and line feeds in front of it are not part of the text.
-/
namespace CommandComposer
namespace Terminal

def lineFeed : UInt8 := 10

/-- The bytes of the first line without the one that ends it, and those behind. -/
def cutLine (input : List UInt8) : List UInt8 × List UInt8 :=
  (input.takeWhile (· ≠ lineFeed), (input.dropWhile (· ≠ lineFeed)).tail)

def endsLine (c : Char) : Bool := c == '\r' || c == '\n'

def lineText (bytes : List UInt8) : Except Error Text :=
  match Text.ofBytes? bytes with
  | some t => .ok (t.dropEndWhile endsLine)
  | none => .error (.stream .notText)

/-- **The next line**, and the input behind it. -/
def readLine (input : List UInt8) : Except Error Text × List UInt8 :=
  match input with
  | [] => (.error .inputClosed, [])
  | _ :: _ => (lineText (cutLine input).1, (cutLine input).2)

theorem length_cutLine_le (input : List UInt8) : (cutLine input).2.length ≤ input.length - 1 := by
  rw [cutLine, List.length_tail]
  exact Nat.sub_le_sub_right (List.dropWhile_sublist _).length_le 1

theorem length_readLine_le (input : List UInt8) : (readLine input).2.length ≤ input.length := by
  cases input with
  | nil => exact Nat.le_refl _
  | cons b input => exact Nat.le_trans (length_cutLine_le _) (Nat.sub_le _ _)

theorem length_readLine_lt (input : List UInt8) (t : Text) (h : (readLine input).1 = .ok t) :
    (readLine input).2.length < input.length := by
  cases input with
  | nil => exact nomatch h
  | cons b input => exact Nat.lt_succ_of_le (length_cutLine_le (b :: input))

/-- **The entry that a menu answer names**: its number, counted from one, among `count` entries; the index is counted
from zero. -/
def selection? (line : Text) (count : Nat) : Option Nat :=
  match Numeral.read? Numeral.word64 line.trim with
  | some n => if 1 ≤ n ∧ n ≤ count then some (n - 1) else none
  | none => none

end Terminal
end CommandComposer
