import CommandComposer.Proofs.Display
import CommandComposer.Proofs.InputLines
/-!
# MenuPicks — the first line that names an entry picks it

A line names an entry of a menu by the entry's number, as a numeral of any length with a plus sign or without one
(`Names`, `selection?_eq_some_iff`).  A menu at a terminal takes the pieces of the input one by one: an idle one, which
is a text that names no entry, is refused and shows the menu again (`pick_idle`), and any other decides
(`pick_decided`).  So the first that is not idle decides, and without one the input is closed
(`first_valid_line_picks`).  What is shown meanwhile is spelled out in `menuShown` and `refusalShown`.
-/
namespace CommandComposer
namespace Terminal

open Text

variable {message : Text} {choices : List Choice}

/-- **A line names an entry**: without the white space around it, it is digits, perhaps behind a plus sign, that are
worth the number of the entry, counted from one. -/
def Names (line : Text) (count i : Nat) : Prop :=
  ∃ digits, Numeral.IsDigits digits ∧ (line.trim = digits ∨ line.trim = '+' :: digits) ∧
    Numeral.value digits = i + 1 ∧ i < count

theorem Names.lt {line : Text} {count i : Nat} : Names line count i → i < count
  | ⟨_, _, _, _, hi⟩ => hi

/-- A piece of the input that is a text but names no entry. -/
def Idle (count : Nat) (piece : List UInt8) : Prop := ∃ line : Text, piece = line.toBytes ∧ ∀ i, ¬ Names line count i

/-- **A piece decides a menu**: it names an entry, or it is no text. -/
inductive Decides (choices : List Choice) (piece : List UInt8) : Except Error Text → Prop where
  | named (line : Text) (i : Nat) (choice : Choice) (hpiece : piece = line.toBytes)
      (hnames : Names line choices.length i) (hchoice : choices[i]? = some choice) :
      Decides choices piece (.ok choice.value)
  | noText (hpiece : ∀ line : Text, piece ≠ line.toBytes) : Decides choices piece (.error (.stream .notText))

/-- **What is read as a selection is what names an entry**, if the entries can be counted by a machine word. -/
theorem selection?_eq_some_iff {line : Text} {count i : Nat} (hcount : count ≤ Numeral.word64) :
    selection? line count = some i ↔ Names line count i := by
  unfold selection?
  constructor
  · intro h
    split at h
    · rename_i n hread
      split at h
      · rename_i hrange
        cases h
        obtain ⟨digits, hdigits, hline, hvalue, -⟩ := Numeral.read?_eq_some_iff.1 hread
        exact ⟨digits, Numeral.isNumeral_iff.1 hdigits, hline, by omega, by omega⟩
      · cases h
    · cases h
  · rintro ⟨digits, hdigits, hline, hvalue, hi⟩
    have hread : Numeral.read? Numeral.word64 line.trim = some (i + 1) :=
      Numeral.read?_eq_some_iff.2 ⟨digits, Numeral.isNumeral_iff.2 hdigits, hline, hvalue, by omega⟩
    rw [hread]
    exact if_pos ⟨by omega, hi⟩

theorem selection?_dropEndWhile (line : Text) (count : Nat) :
    selection? (line.dropEndWhile endsLine) count = selection? line count := by
  rw [selection?, trim_dropEndWhile_endsLine, selection?]

theorem length_le_of_cut {input : List UInt8} {cut : List (List UInt8)} (h : Cut input cut) :
    cut.length ≤ input.length := by
  induction h with
  | none => exact Nat.le_refl _
  | last piece hne _ => exact List.length_pos_of_ne_nil hne
  | line body input pieces _ _ ih =>
    simp only [List.length_cons, List.length_append]
    omega

theorem pick_closed (output : Text) (n : Nat) :
    pick message choices (n + 1) ⟨[], output, none⟩ =
      (.error .inputClosed, ⟨[], output ++ menuShown message choices, none⟩) :=
  pick_works message choices n [] output

theorem pick_decided {input piece : List UInt8} {rest : List (List UInt8)} (h : Cut input (piece :: rest))
    (hcount : choices.length ≤ Numeral.word64) {reply : Except Error Text} (hdecides : Decides choices piece reply)
    (output : Text) (n : Nat) :
    pick message choices (n + 1) ⟨input, output, none⟩ =
      (reply, ⟨rest.flatten, output ++ menuShown message choices, none⟩) := by
  rw [pick_works, h.readLine_eq.1, lineText]
  cases hdecides with
  | named line i choice hpiece hnames hchoice =>
    rw [hpiece, ofBytes?_toBytes]
    dsimp only
    rw [selection?_dropEndWhile, (selection?_eq_some_iff hcount).2 hnames, Option.bind_some, hchoice]
  | noText hpiece =>
    have hdecode : ofBytes? piece = none := by
      rw [Option.eq_none_iff_forall_ne_some]
      exact fun line hline => hpiece line (ofBytes?_eq_some_iff.1 hline).symm
    rw [hdecode]

theorem pick_idle {input piece : List UInt8} {rest : List (List UInt8)} (h : Cut input (piece :: rest))
    (hcount : choices.length ≤ Numeral.word64) (hidle : Idle choices.length piece) (output : Text) (n : Nat) :
    pick message choices (n + 1) ⟨input, output, none⟩ =
      pick message choices n
        ⟨rest.flatten, output ++ (menuShown message choices ++ refusalShown choices.length), none⟩ := by
  obtain ⟨line, rfl, hnames⟩ := hidle
  have hnone : selection? line choices.length = none := by
    rw [Option.eq_none_iff_forall_ne_some]
    exact fun i hi => hnames i ((selection?_eq_some_iff hcount).1 hi)
  rw [pick_works, h.readLine_eq.1, lineText, ofBytes?_toBytes]
  dsimp only
  rw [selection?_dropEndWhile, hnone, Option.bind_none]

/-- **Idle pieces one after the other**, by recursion on them: the menu is shown again for each. -/
theorem pick_idles (message : Text) (hcount : choices.length ≤ Numeral.word64) :
    ∀ (idle rest : List (List UInt8)) {input : List UInt8} (output : Text) (n : Nat), Cut input (idle ++ rest) →
      (∀ piece ∈ idle, Idle choices.length piece) →
      Cut rest.flatten rest ∧ pick message choices (idle.length + n) ⟨input, output, none⟩ =
        pick message choices n ⟨rest.flatten, output ++ (List.replicate idle.length
          (menuShown message choices ++ refusalShown choices.length)).flatten, none⟩
  | [], rest, input, output, n, h, _ => by
    obtain rfl := flatten_of_cut h
    rw [List.length_nil, Nat.zero_add, List.replicate_zero, List.flatten_nil, List.append_nil]
    exact ⟨h, rfl⟩
  | piece :: idle, rest, input, output, n, h, hidle => by
    obtain ⟨hpiece, hidle⟩ := List.forall_mem_cons.1 hidle
    obtain ⟨-, hcut⟩ := h.readLine_eq
    obtain ⟨hrest, ih⟩ := pick_idles message hcount idle rest
      (output ++ (menuShown message choices ++ refusalShown choices.length)) n hcut hidle
    refine ⟨hrest, ?_⟩
    rw [List.length_cons, Nat.add_right_comm, pick_idle h hcount hpiece, ih, List.replicate_succ, List.flatten_cons,
      List.append_assoc]

theorem exists_decides {piece : List UInt8} (h : ¬ Idle choices.length piece) :
    ∃ reply, Decides choices piece reply := by
  by_cases htext : ∃ line : Text, piece = line.toBytes
  · obtain ⟨line, hline⟩ := htext
    have hnames : ∃ i, Names line choices.length i := by
      by_contra hnone
      exact h ⟨line, hline, fun i hi => hnone ⟨i, hi⟩⟩
    obtain ⟨i, hi⟩ := hnames
    have hlt := hi.lt
    exact ⟨_, .named line i choices[i] hline hi (List.getElem?_eq_getElem hlt)⟩
  · exact ⟨_, .noText fun line hline => htext ⟨line, hline⟩⟩

theorem idle_or_first_decides (choices : List Choice) : ∀ cut : List (List UInt8),
    (∀ piece ∈ cut, Idle choices.length piece) ∨
      ∃ idle piece rest reply, cut = idle ++ piece :: rest ∧ (∀ p ∈ idle, Idle choices.length p) ∧
        Decides choices piece reply
  | [] => .inl nofun
  | piece :: cut => by
    by_cases hidle : Idle choices.length piece
    · rcases idle_or_first_decides choices cut with hall | ⟨idle, first, rest, reply, rfl, hidles, hfirst⟩
      · exact .inl (List.forall_mem_cons.2 ⟨hidle, hall⟩)
      · exact .inr ⟨piece :: idle, first, rest, reply, rfl, List.forall_mem_cons.2 ⟨hidle, hidles⟩, hfirst⟩
    · obtain ⟨reply, hdecides⟩ := exists_decides hidle
      exact .inr ⟨[], piece, cut, reply, rfl, nofun, hdecides⟩

theorem answer_menu_of_idle (message : Text) (hne : choices ≠ []) (hcount : choices.length ≤ Numeral.word64)
    {input : List UInt8} {idle rest : List (List UInt8)} (h : Cut input (idle ++ rest))
    (hidle : ∀ piece ∈ idle, Idle choices.length piece) (output : Text) :
    Cut rest.flatten rest ∧ ∃ n, answer (.menu message choices) ⟨input, output, none⟩ =
      pick message choices (n + 1) ⟨rest.flatten, output ++ (List.replicate idle.length
        (menuShown message choices ++ refusalShown choices.length)).flatten, none⟩ := by
  have hlength := length_le_of_cut h
  rw [List.length_append] at hlength
  -- the lines that are allowed for are more than there are pieces, so the bound is not met
  obtain ⟨n, hn⟩ : ∃ n, input.length + 1 = idle.length + (n + 1) := ⟨input.length - idle.length, by omega⟩
  obtain ⟨hrest, hpick⟩ := pick_idles message hcount idle rest output (n + 1) h hidle
  refine ⟨hrest, n, ?_⟩
  rw [← hpick, ← hn]
  cases choices with
  | nil => exact absurd rfl hne
  | cons choice choices => rfl

/-- **The first valid line picks.**  What is read as a selection is what names an entry.  A menu whose output works, of
no more entries than a machine word can count, takes the pieces of the input, idle ones with the menu shown again for
each, up to the first that decides; the input is left as it is behind that piece.  If all pieces are idle, all of the
input is taken, and it is closed.  One of the two is the case. -/
theorem first_valid_line_picks (message : Text) {choices : List Choice} (hne : choices ≠ [])
    (hcount : choices.length ≤ Numeral.word64) {s : Terminal} (hworks : s.fault = none) :
    (∀ line i, selection? line choices.length = some i ↔ Names line choices.length i) ∧
    (∀ idle piece rest reply, pieces s.input = idle ++ piece :: rest → (∀ p ∈ idle, Idle choices.length p) →
      Decides choices piece reply → answer (.menu message choices) s =
        (reply, ⟨rest.flatten, s.output ++ shownAgain message choices idle.length, none⟩)) ∧
    ((∀ p ∈ pieces s.input, Idle choices.length p) → answer (.menu message choices) s =
      (.error .inputClosed, ⟨[], s.output ++ shownAgain message choices (pieces s.input).length, none⟩)) ∧
    ((∀ p ∈ pieces s.input, Idle choices.length p) ∨
      ∃ idle piece rest reply, pieces s.input = idle ++ piece :: rest ∧ (∀ p ∈ idle, Idle choices.length p) ∧
        Decides choices piece reply) := by
  obtain ⟨input, output, fault⟩ := s
  obtain rfl : fault = none := hworks
  have hcut := cut_pieces input
  refine ⟨fun line i => selection?_eq_some_iff hcount, ?_, fun hidle => ?_, idle_or_first_decides choices _⟩
  · intro idle piece rest reply hpieces hidle hdecides
    rw [hpieces] at hcut
    obtain ⟨hrest, n, hanswer⟩ := answer_menu_of_idle message hne hcount hcut hidle output
    rw [hanswer, pick_decided hrest hcount hdecides, shownAgain, List.append_assoc]
  · rw [← List.append_nil (pieces input)] at hcut
    obtain ⟨-, n, hanswer⟩ := answer_menu_of_idle message hne hcount hcut hidle output
    rw [hanswer, List.flatten_nil, pick_closed, shownAgain, List.append_assoc]

/-- A number that is none, a word, and then the second entry, with a line left over. -/
theorem first_valid_line_picks_second :
    let choices : List Choice := [.plain "give", .plain "say"]
    let s := start (toBytes "0\nsay\r\n +02 \n1")
    let menu : Text := "\x1b[38;5;14m\x1b[1mPick\x1b[0m\x1b[0m\n  1) give\n  2) say\n" ++
      "\x1b[38;5;14m\x1b[1mChoose: \x1b[0m\x1b[0m"
    let refusal : Text := "\x1b[38;5;9mInvalid selection. Please choose 1-2\x1b[0m\n"
    choices ≠ [] ∧ choices.length ≤ Numeral.word64 ∧ s.fault = none ∧ Decides choices (toBytes " +02 \n") (.ok "say") ∧
    answer (.menu "Pick" choices) s =
      (.ok "say", ⟨toBytes "1", menu ++ refusal ++ menu ++ refusal ++ menu, none⟩) := by
  intro choices s menu refusal
  have hne : choices ≠ [] := List.cons_ne_nil _ _
  have hcount : choices.length ≤ Numeral.word64 := by decide
  have hworks : s.fault = none := rfl
  obtain ⟨hnames, hdecisive, -⟩ := first_valid_line_picks "Pick" hne hcount hworks
  have hcut : pieces s.input = [toBytes "0\n", toBytes "say\r\n"] ++ toBytes " +02 \n" :: [toBytes "1"] := by
    decide +kernel
  have hidle : ∀ p ∈ [toBytes "0\n", toBytes "say\r\n"], Idle 2 p := by
    rw [List.forall_mem_cons, List.forall_mem_singleton]
    refine ⟨⟨"0\n", rfl, fun i hi => ?_⟩, ⟨"say\r\n", rfl, fun i hi => ?_⟩⟩
    · exact absurd ((hnames "0\n" i).2 hi) nofun
    · exact absurd ((hnames "say\r\n" i).2 hi) nofun
  have hsecond : Decides choices (toBytes " +02 \n") (.ok "say") :=
    .named _ 1 (.plain "say") rfl ⟨"02", Numeral.isNumeral_iff.1 rfl, .inr rfl, rfl, by decide⟩ rfl
  have hanswer : answer (.menu "Pick" choices) s =
      (.ok "say", ⟨toBytes "1", s.output ++ shownAgain "Pick" choices 2, none⟩) :=
    hdecisive _ _ _ _ hcut hidle hsecond
  have hshown : s.output ++ shownAgain "Pick" choices 2 = menu ++ refusal ++ menu ++ refusal ++ menu := by
    decide +kernel
  rw [hshown] at hanswer
  exact ⟨hne, hcount, hworks, hsecond, hanswer⟩

end Terminal
end CommandComposer
