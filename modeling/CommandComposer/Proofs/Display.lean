import CommandComposer.Proofs.Talk
import CommandComposer.Terminal.Partner
/-!
# Display — what a terminal shows

What is to be seen of a question and of a remark is spelled out here, control sequences and all (`menuShown`,
`refusalShown`, `questionShown`, `remarkShown`).  A terminal that works shows just that: a remark adds its line to the
output (`hear_works`), a menu is shown once and once more behind each answer it refuses (`exists_left_pick`), and a talk
adds what is to be seen of its exchanges, one after the other (`displays_of_gives`).  With a fault nothing is shown, and
nothing is read (`eq_of_gives_of_fault`).
-/
namespace CommandComposer
namespace Terminal

def questionShown (text : Text) : Text := "\x1b[38;5;14m\x1b[1m" ++ text ++ "\x1b[0m\x1b[0m"

/-- An entry of a menu with its number. -/
def entryShown (entry : Choice × Nat) : Text := "  " ++ toString entry.2 ++ ") " ++ entry.1.label ++ "\n"

/-- **A menu**: its message, a line for each entry with the entry's number, counted from one, and the prompt. -/
def menuShown (message : Text) (choices : List Choice) : Text :=
  "\x1b[38;5;14m\x1b[1m" ++ message ++ "\x1b[0m\x1b[0m\n" ++ (choices.zipIdx 1).flatMap entryShown ++
    "\x1b[38;5;14m\x1b[1mChoose: \x1b[0m\x1b[0m"

def refusalShown (count : Nat) : Text :=
  "\x1b[38;5;9mInvalid selection. Please choose 1-" ++ toString count ++ "\x1b[0m\n"

/-- **A menu that refuses `refused` answers** is shown in front of each refusal, and once more. -/
def shownAgain (message : Text) (choices : List Choice) (refused : Nat) : Text :=
  (List.replicate refused (menuShown message choices ++ refusalShown choices.length)).flatten ++
    menuShown message choices

/-- **A remark**: a line in the colour of its tone, or a label with a value that stands out. -/
def remarkShown : Remark → Text
  | .message .info t => "\x1b[38;5;12m" ++ t ++ "\x1b[0m\n"
  | .message .success t => "\x1b[38;5;10m" ++ t ++ "\x1b[0m\n"
  | .message .warning t => "\x1b[38;5;11m" ++ t ++ "\x1b[0m\n"
  | .message .error t => "\x1b[38;5;9m" ++ t ++ "\x1b[0m\n"
  | .notice t => "\x1b[38;5;11m" ++ t ++ "\x1b[0m\n"
  | .echo label value => "\x1b[38;5;12m" ++ label ++ ": \x1b[38;5;10m\x1b[1m" ++ value ++ "\x1b[0m\x1b[0m\n"

theorem toList_toString (n : Nat) : (toString n).toList = Numeral.ofNat n := by
  rw [Nat.toString_eq_repr, Nat.repr, String.toList_ofList, Numeral.ofNat]

theorem strong_eq (c : Colour) (t : Text) : strong c t = c.start ++ "\x1b[1m" ++ t ++ "\x1b[0m\x1b[0m" := by
  have hclose : plainAgain ++ plainAgain = ("\x1b[0m\x1b[0m" : Text) := rfl
  rw [strong, List.append_assoc, hclose, bold]

theorem questionText_eq (text : Text) : questionText text = questionShown text := strong_eq .cyan text

theorem entries_eq : ∀ (n : Nat) (choices : List Choice), entries n choices = (choices.zipIdx n).flatMap entryShown
  | _, [] => rfl
  | n, c :: choices => by
    rw [entries, entries_eq (n + 1) choices, List.zipIdx_cons, List.flatMap_cons, entryShown, toList_toString]

/-- **A menu looks as it should.** -/
theorem menuText_eq (message : Text) (choices : List Choice) : menuText message choices = menuShown message choices := by
  have hmessage : questionText message ++ "\n" = "\x1b[38;5;14m\x1b[1m" ++ message ++ "\x1b[0m\x1b[0m\n" :=
    (congrArg (· ++ "\n".toList) (questionText_eq message)).trans (List.append_assoc ..)
  have hprompt : questionText "Choose: " = "\x1b[38;5;14m\x1b[1mChoose: \x1b[0m\x1b[0m" := rfl
  calc menuText message choices
      = questionText message ++ "\n" ++ entries 1 choices ++ questionText "Choose: " := rfl
    _ = menuShown message choices := congr (congrArg _ (congr (congrArg _ hmessage) (entries_eq 1 choices))) hprompt

theorem messageLine_eq (tone : Tone) (t : Text) :
    messageLine tone t = (colourOf tone).start ++ t ++ "\x1b[0m\n" := by
  have hclose : plainAgain ++ "\n" = ("\x1b[0m\n" : Text) := rfl
  rw [messageLine, List.append_assoc, hclose]

theorem invalidSelection_eq (count : Nat) : invalidSelection count = refusalShown count := by
  unfold refusalShown
  rw [toList_toString]
  exact (messageLine_eq ..).trans (congrArg (· ++ "\x1b[0m\n".toList) (List.append_assoc ..).symm)

theorem echoLine_eq (label value : Text) : echoLine label value = remarkShown (.echo label value) := by
  have hparts : ∀ a b c d e : Text, a ++ label ++ b ++ (c ++ value ++ d) ++ e =
      a ++ label ++ (b ++ c) ++ value ++ (d ++ e) := by
    simp only [List.append_assoc, implies_true]
  unfold echoLine
  rw [strong_eq]
  exact hparts ..

/-- **A remark looks as it should.** -/
theorem remarkLine_eq : ∀ r : Remark, remarkLine r = remarkShown r
  | .message .info t => messageLine_eq .info t
  | .message .success t => messageLine_eq .success t
  | .message .warning t => messageLine_eq .warning t
  | .message .error t => messageLine_eq .error t
  | .notice t => messageLine_eq .warning t
  | .echo label value => echoLine_eq label value

theorem shownAgain_succ (message : Text) (choices : List Choice) (refused : Nat) :
    shownAgain message choices (refused + 1) =
      menuShown message choices ++ refusalShown choices.length ++ shownAgain message choices refused := by
  rw [shownAgain, List.replicate_succ, List.flatten_cons, List.append_assoc, shownAgain]

/-- **A remark adds its line to the output.** -/
theorem hear_works (r : Remark) (input : List UInt8) (output : Text) :
    hear r ⟨input, output, none⟩ = ⟨input, output ++ remarkShown r, none⟩ := by
  rw [← remarkLine_eq]
  rfl

/-- **One line of a menu**: the menu is shown and a line is read, and it ends the menu or is refused. -/
theorem pick_works (message : Text) (choices : List Choice) (n : Nat) (input : List UInt8) (output : Text) :
    pick message choices (n + 1) ⟨input, output, none⟩ =
      match (readLine input).1 with
      | .error e => (.error e, ⟨(readLine input).2, output ++ menuShown message choices, none⟩)
      | .ok line =>
        match (selection? line choices.length).bind (choices[·]?) with
        | some choice => (.ok choice.value, ⟨(readLine input).2, output ++ menuShown message choices, none⟩)
        | none =>
          pick message choices n
            ⟨(readLine input).2, output ++ (menuShown message choices ++ refusalShown choices.length), none⟩ := by
  have hshown : ∀ (t o : Text) (bytes : List UInt8), write t ⟨bytes, o, none⟩ = .ok ⟨bytes, o ++ t, none⟩ :=
    fun _ _ _ => rfl
  have hline : ∀ o : Text, line ⟨input, o, none⟩ = ((readLine input).1, ⟨(readLine input).2, o, none⟩) := fun _ => rfl
  rw [pick, menuText_eq, hshown]
  dsimp only
  rw [hline]
  cases (readLine input).1 with
  | error e => rfl
  | ok line =>
    dsimp only
    cases (selection? line choices.length).bind (choices[·]?) with
    | some choice => rfl
    | none =>
      dsimp only
      rw [invalidSelection_eq, hshown, List.append_assoc]

/-- **A menu is shown again** behind each answer that it refuses, as long as there is input. -/
theorem exists_left_pick (message : Text) (choices : List Choice) :
    ∀ (n : Nat) (input : List UInt8) (output : Text), input.length < n → ∃ left refused,
      (pick message choices n ⟨input, output, none⟩).2 = ⟨left, output ++ shownAgain message choices refused, none⟩
  | 0, _, _, hn => absurd hn (Nat.not_lt_zero _)
  | n + 1, input, output, hn => by
    rw [pick_works]
    cases hread : (readLine input).1 with
    | error e => exact ⟨_, 0, rfl⟩
    | ok line =>
      dsimp only
      cases (selection? line choices.length).bind (choices[·]?) with
      | some choice => exact ⟨_, 0, rfl⟩
      | none =>
        have hless := length_readLine_lt input line hread
        obtain ⟨left, refused, hrest⟩ := exists_left_pick message choices n (readLine input).2
          (output ++ (menuShown message choices ++ refusalShown choices.length)) (by omega)
        refine ⟨left, refused + 1, hrest.trans ?_⟩
        rw [shownAgain_succ, List.append_assoc]

/-- **What is to be seen of an exchange.**  Nothing is to be seen of a menu without entries. -/
inductive Display : Exchange → Text → Prop where
  | emptyMenu (message : Text) (reply : Except Error Text) : Display (.asked (.menu message []) reply) []
  | menu (message : Text) {choices : List Choice} (hne : choices ≠ []) (reply : Except Error Text) (refused : Nat) :
      Display (.asked (.menu message choices) reply) (shownAgain message choices refused)
  | line (text : Text) (reply : Except Error Text) : Display (.asked (.line text) reply) (questionShown text)
  | heard (r : Remark) : Display (.heard r) (remarkShown r)

/-- **What is to be seen of a talk**: of each exchange in turn. -/
inductive Displays : List Exchange → Text → Prop where
  | nil : Displays [] []
  | cons {x : Exchange} {l : List Exchange} {part shown : Text} (hx : Display x part) (hl : Displays l shown) :
      Displays (x :: l) (part ++ shown)

theorem Displays.exists_part {l : List Exchange} {shown : Text} (h : Displays l shown) {x : Exchange} (hx : x ∈ l) :
    ∃ part, Display x part ∧ part <:+: shown := by
  induction h with
  | nil => cases hx
  | cons hy _ ih =>
    rcases List.mem_cons.1 hx with rfl | hx
    · exact ⟨_, hy, (List.prefix_append _ _).isInfix⟩
    · obtain ⟨part, hpart, hin⟩ := ih hx
      exact ⟨part, hpart, hin.trans (List.suffix_append _ _).isInfix⟩

theorem Displays.infix_of_heard {l : List Exchange} {shown : Text} (h : Displays l shown) {r : Remark}
    (hr : .heard r ∈ l) : remarkShown r <:+: shown := by
  obtain ⟨part, hpart, hin⟩ := h.exists_part hr
  cases hpart
  exact hin

/-- **A question adds what is to be seen of it**, whatever the reply. -/
theorem display_answer (q : Question) (input : List UInt8) (output : Text) :
    ∃ left part, (answer q ⟨input, output, none⟩).2 = ⟨left, output ++ part, none⟩ ∧
      ∀ reply, Display (.asked q reply) part := by
  unfold answer
  split
  · exact ⟨input, [], by rw [List.append_nil], fun reply => .emptyMenu _ reply⟩
  · rename_i message choices hne
    obtain ⟨left, refused, hleft⟩ :=
      exists_left_pick message choices (input.length + 1) input output (Nat.lt_succ_self _)
    exact ⟨left, _, hleft, fun reply => .menu message hne reply refused⟩
  · rename_i text
    rw [questionText_eq]
    exact ⟨_, _, rfl, fun reply => .line text reply⟩

/-- **A talk shows its exchanges**, one after the other, by recursion on it. -/
theorem displays_of_gives : ∀ {l : List Exchange} {input : List UInt8} {output : Text} {t : Terminal},
    partner.Gives ⟨input, output, none⟩ l t → ∃ left shown, Displays l shown ∧ t = ⟨left, output ++ shown, none⟩
  | [], input, output, t, h => by
    obtain rfl : t = ⟨input, output, none⟩ := h
    exact ⟨input, [], .nil, by rw [List.append_nil]⟩
  | .asked q reply :: l, input, output, t, ⟨_, h⟩ => by
    obtain ⟨left, part, hleft, hpart⟩ := display_answer q input output
    have hrest : partner.Gives ⟨left, output ++ part, none⟩ l t := hleft ▸ h
    obtain ⟨left', shown, hshown, rfl⟩ := displays_of_gives hrest
    exact ⟨left', _, .cons (hpart reply) hshown, by rw [List.append_assoc]⟩
  | .heard r :: l, input, output, t, h => by
    have hrest : partner.Gives ⟨input, output ++ remarkShown r, none⟩ l t := hear_works r input output ▸ h
    obtain ⟨left, shown, hshown, rfl⟩ := displays_of_gives hrest
    exact ⟨left, _, .cons (.heard r) hshown, by rw [List.append_assoc]⟩

theorem write_of_fault {s : Terminal} {fault : Fault} (h : s.fault = some fault) (t : Text) :
    s.write t = .error (.stream fault) := by
  unfold write
  rw [h]

theorem answer_of_fault {s : Terminal} {fault : Fault} (h : s.fault = some fault) (q : Question) :
    (answer q s).2 = s := by
  unfold answer
  split
  · rfl
  · rw [pick, write_of_fault h]
  · rw [write_of_fault h]

/-- **With a fault nothing is shown**, and nothing is read. -/
theorem eq_of_gives_of_fault {fault : Fault} : ∀ {l : List Exchange} {s t : Terminal}, partner.Gives s l t →
    s.fault = some fault → t = s
  | [], _, _, h, _ => h
  | .asked q reply :: l, s, t, ⟨_, h⟩, hfault => by
    have hrest : partner.Gives (answer q s).2 l t := h
    rw [answer_of_fault hfault] at hrest
    exact eq_of_gives_of_fault hrest hfault
  | .heard r :: l, s, t, h, hfault => by
    have hrest : partner.Gives (hear r s) l t := h
    unfold hear at hrest
    rw [write_of_fault hfault] at hrest
    exact eq_of_gives_of_fault hrest hfault

end Terminal
end CommandComposer
