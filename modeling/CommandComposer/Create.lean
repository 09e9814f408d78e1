import CommandComposer.Catalog.Source
import CommandComposer.Delivery.Tools
import CommandComposer.Options
import CommandComposer.Session
import CommandComposer.Terminal.Partner
/-!
# Create — from options to a delivered command

The catalog is loaded, a session composes the command, and the command is handed over.  If the session fails, nothing
is handed over.

At a terminal all of this is a function of the input, so it can be run on the input so far, with what is shown until
more is asked for.  No program can be started there, so every tool is missing.
-/
namespace CommandComposer

variable {σ δ : Type}

def CreateOptions.catalog (o : CreateOptions) (around : Surroundings) : Catalog :=
  (Catalog.Source.resolve around o.blocksPath).load around

/-- **Composes one command in a session of its own.** -/
def composeWith (p : Partner σ) (catalog : Catalog) (s : σ) : Except Error Text × σ :=
  let r := (Session.command catalog).run p.attending ⟨s, false⟩
  (r.1, r.2.partner)

/-- **Composes a command and hands it over.** -/
def create (around : Surroundings) (o : CreateOptions) (p : Partner σ) (d : Desktop δ) (s : σ) (t : δ) :
    Except Error Delivery.Report × σ × δ :=
  match composeWith p (o.catalog around) s with
  | (.error e, s) => (.error e, s, t)
  | (.ok command, s) => Delivery.deliver p d o.delivery command s t

namespace CommandLine

def metEnd : Except Error Text → Bool
  | .error .inputClosed => true
  | _ => false

/-- **A terminal that remembers what it showed when its input first ended.** -/
def watched : Partner (Terminal × Option Text) where
  answer q s :=
    let r := Terminal.answer q s.1
    (r.1, r.2, if metEnd r.1 then s.2 <|> some r.2.output else s.2)
  hear r s := (Terminal.hear r s.1, s.2)
  left s := s.1.input.length
  left_answer_le q s := Terminal.answer_left_le q s.1
  left_answer_lt q s a h := Terminal.answer_left_lt q s.1 a h
  left_hear_le r s := Terminal.hear_left_le r s.1

/-- What a run on the input so far comes to: its result, all it shows, and what it has shown by the time it asks for
more, if it does. -/
def runOn (around : Surroundings) (o : CreateOptions) (input : List UInt8) :
    Except Error Delivery.Report × Text × Option Text :=
  let r := create around o watched (Tools.desktop fun _ => .missing) (.start input, none) ()
  (r.1, r.2.1.1.output, r.2.1.2)

end CommandLine
end CommandComposer
