import CommandComposer.Proofs.LineReading
import CommandComposer.Proofs.ScriptRun
import CommandComposer.Proofs.Typeable
import CommandComposer.Terminal.Partner
/-!
# TerminalScript — a terminal that is typed what a script answers

The answers of a script, each typed as a line, make a terminal answer as the script does, but for white space around
the answers to questions for a line (`gives_typed`).  A dialogue that is typeable cannot tell the difference, so a
session at the terminal has the result of the scripted one and reads all that was typed (`terminal_refines_script`).
-/
namespace CommandComposer

/-- **What is typed for an answer**: the number of the first entry with its value, or the answer itself, and a line
feed. -/
def Exchange.typed : Exchange → List UInt8
  | .asked (.menu _ choices) (.ok a) =>
    (Numeral.ofNat (choices.findIdx (fun c => c.value == a) + 1)).toBytes ++ [Terminal.lineFeed]
  | .asked (.line _) (.ok a) => a.toBytes ++ [Terminal.lineFeed]
  | _ => []

theorem Exchange.typed_unanswered (q : Question) (e : Error) : (Exchange.asked q (.error e)).typed = [] := by
  cases q <;> rfl

def typed (l : List Exchange) : List UInt8 := l.flatMap Exchange.typed

namespace Terminal

/-- **A terminal that shows what it is given**, with its input. -/
structure Ready (s : Terminal) (input : List UInt8) : Prop where
  works : s.fault = none
  input_eq : s.input = input

theorem Ready.write {s : Terminal} {input : List UInt8} (h : s.Ready input) (t : Text) :
    ∃ u, s.write t = .ok u ∧ u.Ready input := by
  unfold Terminal.write
  rw [h.works]
  exact ⟨_, rfl, rfl, h.input_eq⟩

theorem Ready.hear {u : Attending Terminal} {input : List UInt8} (h : u.partner.Ready input) (r : Remark) :
    (partner.attending.hear r u).partner.Ready input := by
  have hbase : ∀ r : Remark, (Terminal.hear r u.partner).Ready input := by
    intro r
    obtain ⟨v, hv, hready⟩ := h.write (remarkLine r)
    rw [Terminal.hear, hv]
    exact hready
  cases r with
  | notice t =>
    dsimp only [Partner.attending]
    split
    · exact h
    · exact hbase _
  | _ => exact hbase _

theorem Ready.line {s : Terminal} {t : Text} {rest : List UInt8} (h : s.Ready (t.toBytes ++ [lineFeed] ++ rest))
    (ht : '\n' ∉ t) : ∃ u, s.line = (.ok (t.dropEndWhile endsLine), u) ∧ u.Ready rest := by
  unfold Terminal.line
  rw [h.input_eq, List.append_assoc, List.singleton_append, readLine_typed ht]
  exact ⟨_, rfl, h.works, rfl⟩

theorem Ready.line_closed {s : Terminal} (h : s.Ready []) : ∃ u, s.line = (.error .inputClosed, u) ∧ u.Ready [] := by
  unfold Terminal.line
  rw [h.input_eq]
  exact ⟨_, rfl, h.works, rfl⟩

theorem Ready.answer_line {s : Terminal} {text a : Text} {rest : List UInt8}
    (h : s.Ready ((Exchange.asked (.line text) (.ok a)).typed ++ rest)) (ha : '\n' ∉ a) :
    ∃ u, answer (.line text) s = (.ok (a.dropEndWhile endsLine), u) ∧ u.Ready rest := by
  obtain ⟨v, hv, hready⟩ := h.write (questionText text)
  rw [answer, hv]
  exact hready.line ha

theorem entry_of_number {choices : List Choice} {a : Text} (ha : ∃ c ∈ choices, (c.value == a) = true)
    (hshort : choices.length ≤ Numeral.word64) :
    ∃ c : Choice, (selection? ((Numeral.ofNat (choices.findIdx (fun c => c.value == a) + 1)).dropEndWhile endsLine)
      choices.length).bind (choices[·]?) = some c ∧ c.value = a := by
  have hindex := List.findIdx_lt_length_of_exists (p := fun c : Choice => c.value == a) ha
  refine ⟨choices.get ⟨_, hindex⟩, ?_, ?_⟩
  · rw [selection?_ofNat hindex hshort, Option.bind_some, List.getElem?_eq_getElem hindex]
    rfl
  · simpa using List.findIdx_getElem (w := hindex)

theorem Ready.answer_menu {s : Terminal} {message a : Text} {choices : List Choice} {rest : List UInt8}
    (h : s.Ready ((Exchange.asked (.menu message choices) (.ok a)).typed ++ rest))
    (ha : Script.offered (.menu message choices) a = true) (hshort : choices.length ≤ Numeral.word64) :
    ∃ u, answer (.menu message choices) s = (.ok a, u) ∧ u.Ready rest := by
  have hmem := List.any_eq_true.1 ha
  obtain ⟨c, hc, hvalue⟩ := entry_of_number hmem hshort
  obtain ⟨v, hv, hready⟩ := h.write (menuText message choices)
  obtain ⟨u, hu, hrest⟩ := hready.line (Numeral.lineFeed_not_mem_ofNat _)
  have hpick : answer (.menu message choices) s = pick message choices (s.input.length + 1) s := by
    cases choices with
    | nil => exact nomatch hmem
    | cons c choices => rfl
  rw [hpick, pick, hv]
  dsimp only
  rw [hu]
  dsimp only
  rw [hc]
  exact ⟨u, congrArg (fun a => (Except.ok a, u)) hvalue, hrest⟩

theorem answer_attending {q : Question} {u : Attending Terminal} {reply : Except Error Text} {w : Terminal}
    (h : answer q u.partner = (reply, w)) : partner.attending.answer q u = (reply, { u with partner := w }) := by
  simp only [Partner.attending, partner, h]

theorem Ready.answer_closed {s : Terminal} {q : Question} (h : s.Ready []) (hq : ∀ message, q ≠ .menu message []) :
    ∃ u, answer q s = (.error .inputClosed, u) ∧ u.Ready [] := by
  unfold answer
  split
  · exact absurd rfl (hq _)
  · rename_i message choices _
    obtain ⟨v, hv, hready⟩ := h.write (menuText message choices)
    obtain ⟨u, hu, hrest⟩ := hready.line_closed
    rw [pick, hv]
    dsimp only
    rw [hu]
    exact ⟨u, rfl, hrest⟩
  · rename_i text
    obtain ⟨v, hv, hready⟩ := h.write (questionText text)
    rw [hv]
    exact hready.line_closed

end Terminal

theorem answer_typed {q : Question} {a : Text} {s : Terminal} {rest : List UInt8} (hline : '\n' ∉ a)
    (hoffered : Script.offered q a = true) (hshort : (Exchange.asked q (.ok a)).ShortMenu)
    (h : s.Ready ((Exchange.asked q (.ok a)).typed ++ rest)) :
    ∃ a' u, Terminal.answer q s = (.ok a', u) ∧ Exchange.Alike (.asked q (.ok a)) (.asked q (.ok a')) ∧
      u.Ready rest := by
  cases q with
  | menu message choices =>
    obtain ⟨u, hu, hrest⟩ := h.answer_menu hoffered hshort
    exact ⟨a, u, hu, .same _, hrest⟩
  | line text =>
    obtain ⟨u, hu, hrest⟩ := h.answer_line hline
    exact ⟨_, u, hu, .line text _ _ (Terminal.trim_dropEndWhile_endsLine a).symm, hrest⟩

/-- **The script and the terminal in step**, by induction on the script's talk: what is kept is that the input of the
terminal is what is typed for the answers to come. -/
theorem gives_typed : ∀ {l : List Exchange} {s t : Attending Script} {u : Attending Terminal} {rest : List UInt8},
    (∀ x ∈ l, x.Answered) → (∀ x ∈ l, x.ShortMenu) → (∀ a ∈ s.partner.answers, '\n' ∉ a) →
    (Script.partner .checked).attending.Gives s l t → u.partner.Ready (typed l ++ rest) →
    s.partner.answers = replies l ++ t.partner.answers ∧
    ∃ l' v, List.Forall₂ Exchange.Alike l l' ∧ Terminal.partner.attending.Gives u l' v ∧ v.partner.Ready rest
  | [], s, t, u, rest, _, _, _, hgives, hready => by
    obtain rfl : t = s := hgives
    exact ⟨rfl, [], u, .nil, rfl, hready⟩
  | .heard r :: l, s, t, u, rest, hanswered, hshort, hlines, hgives, hready => by
    have hs := Script.answers_hear r s .checked
    obtain ⟨hreplies, l', v, hl', hv, hrest⟩ := gives_typed (u := Terminal.partner.attending.hear r u)
      (fun x hx => hanswered x (List.mem_cons_of_mem _ hx)) (fun x hx => hshort x (List.mem_cons_of_mem _ hx))
      (hs ▸ hlines) hgives (hready.hear r)
    exact ⟨hs ▸ hreplies, .heard r :: l', v, .cons (.same _) hl', hv, hrest⟩
  | .asked q (.error e) :: l, _, _, _, _, hanswered, _, _, _, _ => absurd (hanswered _ List.mem_cons_self) id
  | .asked q (.ok a) :: l, s, t, u, rest, hanswered, hshort, hlines, hgives, hready => by
    obtain ⟨ha, hgives⟩ := hgives
    obtain ⟨hanswers, hoffered⟩ := Script.answer_checked_ok ha
    rw [hanswers] at hlines ⊢
    rw [typed, List.flatMap_cons, List.append_assoc] at hready
    -- the next line of the terminal's input is the one typed for this answer
    obtain ⟨a', w, hw, halike, hready'⟩ :=
      answer_typed (hlines a List.mem_cons_self) hoffered (hshort _ List.mem_cons_self) hready
    obtain ⟨hreplies, l', v, hl', hv, hrest⟩ := gives_typed (u := { u with partner := w })
      (fun x hx => hanswered x (List.mem_cons_of_mem _ hx)) (fun x hx => hshort x (List.mem_cons_of_mem _ hx))
      (fun b hb => hlines b (List.mem_cons_of_mem _ hb)) hgives hready'
    refine ⟨congrArg (a :: ·) hreplies, .asked q (.ok a') :: l', v, .cons halike hl', ?_, hrest⟩
    rw [Partner.Gives, Terminal.answer_attending hw]
    exact ⟨rfl, hv⟩

/-- **A typeable dialogue at the terminal** has the result that it has with a script, and reads all that is typed for
the script's answers, if the script does not run into an error other than its end. -/
theorem run_typed {α : Type} {d : Dialogue α} (hd : d.Typeable) {s t : Attending Script} {u : Attending Terminal}
    {l : List Exchange} {r : Except Error α} (htalk : d.Talk l r)
    (hgives : (Script.partner .checked).attending.Gives s l t) (hlines : ∀ a ∈ s.partner.answers, '\n' ∉ a)
    (hend : (∃ a, r = .ok a) ∨ r = .error .inputClosed) (hready : u.partner.Ready (typed l)) :
    s.partner.answers = replies l ++ t.partner.answers ∧
    ∃ v, d.run Terminal.partner.attending u = (r, v) ∧ v.partner.Ready [] := by
  have hmenus := hd.menus l r htalk
  rcases Dialogue.closes_of_talk d l r htalk with hanswered | ⟨before, q, e, hanswered, rfl, rfl⟩
  · rw [← List.append_nil (typed l)] at hready
    obtain ⟨hreplies, l', v, hl', hv, hrest⟩ := gives_typed hanswered hmenus hlines hgives hready
    exact ⟨hreplies, v, Dialogue.run_eq_of_talk _ d l' r u v (hd.alike l l' r htalk hl') hv, hrest⟩
  · -- the answers have run out, so nothing is left of the input either
    obtain rfl : e = .inputClosed := by
      rcases hend with ⟨a, ha⟩ | he
      · cases ha
      · cases he
        rfl
    obtain ⟨w, hbefore, hlast, rfl⟩ := (Partner.gives_append _ _ _ _ _).1 hgives
    obtain ⟨hkept, hmenu⟩ := Script.answer_checked_closed hlast
    rw [typed, List.flatMap_append, List.flatMap_singleton, Exchange.typed_unanswered] at hready
    obtain ⟨hreplies, l', v, hl', hv, hrest⟩ := gives_typed hanswered
      (fun x hx => hmenus x (List.mem_append_left _ hx)) hlines hbefore hready
    obtain ⟨z, hz, hclosed⟩ := hrest.answer_closed hmenu
    refine ⟨?_, { v with partner := z }, ?_, hclosed⟩
    · rw [replies_append, replies_unanswered, List.append_nil]
      exact hreplies.trans (congrArg (replies before ++ ·) hkept.symm)
    · refine Dialogue.run_eq_of_talk _ d (l' ++ [.asked q (.error .inputClosed)]) _ u _ (hd.alike _ _ _ htalk ?_) ?_
      · exact List.rel_append hl' (.cons (.same _) .nil)
      · refine (Partner.gives_append _ _ _ _ _).2 ⟨v, hv, ?_⟩
        rw [Partner.Gives, Terminal.answer_attending hz]
        exact ⟨rfl, rfl⟩

namespace Session

/-- **The terminal does what the script does.**  The answers that a scripted session takes are the replies in its talk;
if it composes a command or comes to the end of its answers, then a session at a terminal that is typed those replies
has the same result and reads all that was typed. -/
theorem terminal_refines_script (catalog : Catalog) (answers : List Text) (hlines : ∀ a ∈ answers, '\n' ∉ a)
    (hend : (∃ cmd, (composeWith (Script.partner .checked) catalog (Script.start answers)).1 = .ok cmd) ∨
      (composeWith (Script.partner .checked) catalog (Script.start answers)).1 = .error .inputClosed) :
    answers = replies (scriptedTalk catalog answers) ++
      (composeWith (Script.partner .checked) catalog (Script.start answers)).2.answers ∧
    (composeWith Terminal.partner catalog (Terminal.start (typed (scriptedTalk catalog answers)))).1 =
      (composeWith (Script.partner .checked) catalog (Script.start answers)).1 ∧
    (composeWith Terminal.partner catalog (Terminal.start (typed (scriptedTalk catalog answers)))).2.input = [] := by
  obtain ⟨hreplies, v, hrun, hready⟩ := run_typed (typeable_command catalog)
    (u := ⟨Terminal.start (typed (scriptedTalk catalog answers)), false⟩) (Dialogue.talk_transcript _ _ _)
    (Dialogue.gives_transcript _ _ _) hlines hend ⟨rfl, rfl⟩
  unfold composeWith
  rw [hrun]
  exact ⟨hreplies, rfl, hready.input_eq⟩

/-- A message whose first answer is blank and whose second ends in a carriage return, with an answer left over. -/
theorem terminal_refines_script_say :
    (∀ a ∈ (["say", "", "hello\r", "left"] : List Text), '\n' ∉ a) ∧
    (composeWith (Script.partner .checked) (.unavailable "none") (Script.start ["say", "", "hello\r", "left"])).1 =
      .ok "/say hello" ∧
    (composeWith Terminal.partner (.unavailable "none")
      (Terminal.start (typed (scriptedTalk (.unavailable "none") ["say", "", "hello\r", "left"])))).1 =
        .ok "/say hello" ∧
    (composeWith Terminal.partner (.unavailable "none")
      (Terminal.start (typed (scriptedTalk (.unavailable "none") ["say", "", "hello\r", "left"])))).2.input = [] := by
  have hlines : ∀ a ∈ (["say", "", "hello\r", "left"] : List Text), '\n' ∉ a := by decide
  obtain ⟨-, hresult, hinput⟩ :=
    terminal_refines_script (.unavailable "none") ["say", "", "hello\r", "left"] hlines (.inl ⟨"/say hello", rfl⟩)
  exact ⟨hlines, rfl, hresult.trans rfl, hinput⟩

end Session
end CommandComposer
