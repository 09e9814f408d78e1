import CommandComposer.Delivery.Tools
/-!
# ClipboardTools — which tools are tried, and what is reported

A tool takes the text if it takes all of it and exits with success.  One that does not is passed: it is one more tool
tried, and its program is one more to report unless it is missing (`copyAfter_append`).  So the tools are tried up to
the first that takes the text, and if none does, the report is of all that were tried (`copied_by_first_that_takes`).

On a desktop the attempts are those to run its tools (`copy_eq_ok_iff`, `copy_of_none`, `notify_eq_ok_iff`).
-/
namespace CommandComposer
namespace Tools

/-- **The text is taken**: all of it, by a tool that exits with success. -/
def Takes (a : Attempt) : Prop := a.ending = .exited true true

/-- The programs of the attempts that find one, each as often as it is tried. -/
def present (attempts : List Attempt) : List Text := programs (attempts.filter fun a => a.ending ≠ .missing)

theorem copies_iff {a : Attempt} : copies a.ending = true ↔ Takes a := by
  unfold Takes
  cases a.ending with
  | missing => simp [copies]
  | unstartable fault => simp [copies]
  | exited success tookAll => simp [copies]

theorem present_eq_nil_iff {attempts : List Attempt} : present attempts = [] ↔ ∀ a ∈ attempts, a.ending = .missing := by
  simp [present, programs, List.filter_eq_nil_iff]

theorem copyAfter_of_takes {a : Attempt} (h : Takes a) (all failed : List Text) (behind : List Attempt) :
    copyAfter all failed (a :: behind) = ([a], .ok ()) := by
  rw [copyAfter, if_pos (copies_iff.2 h)]

/-- **A tool that does not take the text is passed**: it is tried, and reported if it is there. -/
theorem copyAfter_of_not_takes {a : Attempt} (h : ¬Takes a) (all failed : List Text) (rest : List Attempt) :
    copyAfter all failed (a :: rest) =
      (a :: (copyAfter all (failed ++ present [a]) rest).1, (copyAfter all (failed ++ present [a]) rest).2) := by
  rw [copyAfter, if_neg (mt copies_iff.1 h)]
  by_cases hmissing : a.ending = .missing
  · simp [present, programs, hmissing]
  · simp [present, programs, hmissing]

theorem present_append (attempts behind : List Attempt) :
    present (attempts ++ behind) = present attempts ++ present behind := by
  rw [present, List.filter_append, programs, List.map_append]
  rfl

/-- **Tools that do not take the text are passed**, one after the other. -/
theorem copyAfter_append (all : List Text) : ∀ {before : List Attempt}, (∀ a ∈ before, ¬Takes a) →
    ∀ (failed : List Text) (rest : List Attempt), copyAfter all failed (before ++ rest) =
      (before ++ (copyAfter all (failed ++ present before) rest).1, (copyAfter all (failed ++ present before) rest).2)
  | [], _, failed, rest => by
    rw [present, programs, List.filter_nil, List.map_nil, List.append_nil, List.nil_append, List.nil_append]
  | a :: before, h, failed, rest => by
    obtain ⟨ha, hbefore⟩ := List.forall_mem_cons.1 h
    have hpresent : present (a :: before) = present [a] ++ present before := present_append [a] before
    rw [List.cons_append, copyAfter_of_not_takes ha, copyAfter_append all hbefore, hpresent, List.append_assoc]
    rfl

/-- **What is tried does not depend on what is to be reported.** -/
theorem fst_copyAfter : ∀ (all failed : List Text) (attempts : List Attempt),
    (copyAfter all failed attempts).1 = made attempts := by
  have hany : ∀ (attempts : List Attempt) (all failed all' failed' : List Text),
      (copyAfter all failed attempts).1 = (copyAfter all' failed' attempts).1 := by
    intro attempts
    induction attempts with
    | nil => exact fun _ _ _ _ => rfl
    | cons a rest ih =>
      intro all failed all' failed'
      by_cases ha : Takes a
      · rw [copyAfter_of_takes ha, copyAfter_of_takes ha]
      · rw [copyAfter_of_not_takes ha, copyAfter_of_not_takes ha]
        exact congrArg (a :: ·) (ih ..)
  exact fun all failed attempts => hany attempts all failed _ _

theorem made_append {before : List Attempt} (h : ∀ a ∈ before, ¬Takes a) (rest : List Attempt) :
    made (before ++ rest) = before ++ made rest := by
  rw [made, copyAfter_append _ h, fst_copyAfter]

theorem none_or_first_takes (attempts : List Attempt) : (∀ a ∈ attempts, ¬Takes a) ∨
    ∃ before a behind, attempts = before ++ a :: behind ∧ (∀ b ∈ before, ¬Takes b) ∧ Takes a := by
  cases hfind : attempts.find? fun a => copies a.ending with
  | none =>
    refine .inl (fun a ha htakes => ?_)
    have hcopies := List.find?_eq_none.1 hfind a ha
    exact hcopies (copies_iff.2 htakes)
  | some a =>
    obtain ⟨hcopies, before, behind, hsplit, hbefore⟩ := List.find?_eq_some_iff_append.1 hfind
    refine .inr ⟨before, a, behind, hsplit, fun b hb htakes => ?_, copies_iff.1 hcopies⟩
    have hnot := hbefore b hb
    rw [copies_iff.2 htakes] at hnot
    cases hnot

theorem copyWith_of_first {before : List Attempt} {a : Attempt} (h : ∀ b ∈ before, ¬Takes b) (ha : Takes a)
    (behind : List Attempt) :
    made (before ++ a :: behind) = before ++ [a] ∧ copyWith (before ++ a :: behind) = .ok () := by
  have hall := copyAfter_append (programs (before ++ a :: behind)) h [] (a :: behind)
  rw [copyAfter_of_takes ha] at hall
  exact ⟨congrArg Prod.fst hall, congrArg Prod.snd hall⟩

/-- **What is reported if no tool takes the text**: those that are there, or all if none is. -/
theorem copyWith_of_none {attempts : List Attempt} (h : ∀ a ∈ attempts, ¬Takes a) :
    made attempts = attempts ∧ copyWith attempts = .error (if (present attempts).isEmpty
      then .noClipboard (programs attempts) else .clipboardFailed (present attempts)) := by
  have hall := copyAfter_append (programs attempts) h [] []
  rw [List.append_nil, copyAfter, List.append_nil, List.nil_append] at hall
  exact ⟨congrArg Prod.fst hall, congrArg Prod.snd hall⟩

theorem copyWith_eq_ok_iff {attempts : List Attempt} : copyWith attempts = .ok () ↔ ∃ a ∈ attempts, Takes a := by
  rcases none_or_first_takes attempts with h | ⟨before, a, behind, rfl, hbefore, ha⟩
  · have herror := (copyWith_of_none h).2
    refine iff_of_false (fun hok => ?_) (fun ⟨a, hmem, htakes⟩ => h a hmem htakes)
    rw [herror] at hok
    cases hok
  · exact iff_of_true (copyWith_of_first hbefore ha behind).2 ⟨a, List.mem_append_right _ List.mem_cons_self, ha⟩

/-- **What is not tried has no say**, neither in what is tried nor in what is given. -/
theorem copyAfter_made (attempts : List Attempt) :
    copyAfter (programs attempts) [] (made attempts) = (made attempts, copyWith attempts) := by
  rcases none_or_first_takes attempts with h | ⟨before, a, behind, rfl, hbefore, ha⟩
  · have hmade := (copyWith_of_none h).1
    rw [hmade]
    exact Prod.ext hmade rfl
  · obtain ⟨hmade, hcopy⟩ := copyWith_of_first hbefore ha behind
    rw [hmade, hcopy, copyAfter_append _ hbefore, copyAfter_of_takes ha]

/-- A tool that is there but does not take the text is tried and reported however it fails. -/
theorem copyWith_of_failing {before behind : List Attempt} {tool : Tool} {ending ending' : Ending}
    (hbefore : ∀ a ∈ before, ¬Takes a) (h : ending ≠ .missing ∧ ¬Takes ⟨tool, ending⟩)
    (h' : ending' ≠ .missing ∧ ¬Takes ⟨tool, ending'⟩) :
    made (before ++ ⟨tool, ending⟩ :: behind) = before ++ ⟨tool, ending⟩ :: made behind ∧
      copyWith (before ++ ⟨tool, ending⟩ :: behind) = copyWith (before ++ ⟨tool, ending'⟩ :: behind) := by
  have hpassed : ∀ e, ¬Takes ⟨tool, e⟩ → ∀ a ∈ before ++ [⟨tool, e⟩], ¬Takes a := by
    intro e he
    rw [List.forall_mem_append, List.forall_mem_singleton]
    exact ⟨hbefore, he⟩
  have hsplit : ∀ e, before ++ ⟨tool, e⟩ :: behind = (before ++ [⟨tool, e⟩]) ++ behind := fun e => by simp
  constructor
  · rw [hsplit, made_append (hpassed ending h.2), List.append_assoc]
    rfl
  · rw [copyWith, copyWith, hsplit, hsplit, copyAfter_append _ (hpassed ending h.2),
      copyAfter_append _ (hpassed ending' h'.2)]
    simp [present, programs, h.1, h'.1]

/-- **The first tool that takes the text copies it.**  The tools are tried in order up to that one, and none behind it
is; there is one just if copying succeeds.  Otherwise all are tried, and what is reported is that there is no clipboard,
with all the programs, if every one is missing, and else those that are there, in order and each as often as it is
tried.  What is not tried has no say in it.  A tool that exits with success after its pipe broke is one that failed. -/
theorem copied_by_first_that_takes (attempts : List Attempt) :
    (∀ before a behind, attempts = before ++ a :: behind → (∀ b ∈ before, ¬Takes b) → Takes a →
      made attempts = before ++ [a] ∧ copyWith attempts = .ok ()) ∧
    (copyWith attempts = .ok () ↔ ∃ a ∈ attempts, Takes a) ∧
    ((∀ a ∈ attempts, ¬Takes a) → made attempts = attempts ∧
      ((∀ a ∈ attempts, a.ending = .missing) → copyWith attempts = .error (.noClipboard (programs attempts))) ∧
      ((∃ a ∈ attempts, a.ending ≠ .missing) → copyWith attempts = .error (.clipboardFailed (present attempts)))) ∧
    copyAfter (programs attempts) [] (made attempts) = (made attempts, copyWith attempts) ∧
    ∀ before tool behind, attempts = before ++ ⟨tool, .exited true false⟩ :: behind → (∀ b ∈ before, ¬Takes b) →
      made attempts = before ++ ⟨tool, .exited true false⟩ :: made behind ∧
      copyWith attempts = copyWith (before ++ ⟨tool, .exited false true⟩ :: behind) := by
  refine ⟨?_, copyWith_eq_ok_iff, ?_, copyAfter_made _, ?_⟩
  · rintro before a behind rfl hbefore ha
    exact copyWith_of_first hbefore ha behind
  · intro h
    obtain ⟨hmade, herror⟩ := copyWith_of_none h
    refine ⟨hmade, fun hmissing => ?_, fun ⟨a, ha, hthere⟩ => ?_⟩
    · rw [herror, present_eq_nil_iff.2 hmissing]
      rfl
    · have hne : present attempts ≠ [] := fun hnil => hthere (present_eq_nil_iff.1 hnil a ha)
      rw [herror, if_neg (fun hempty => hne (List.isEmpty_iff.1 hempty))]
  · rintro before tool behind rfl hbefore
    exact copyWith_of_failing hbefore (by simp [Takes]) (by simp [Takes])

/-- A tool that is missing, one that may not be run and one whose pipe breaks, in front of two that take the text. -/
theorem copied_by_first_that_takes_fourth :
    ∃ (before : List Attempt) (taking : Attempt),
      before.map Attempt.ending = [.missing, .unstartable .permissionDenied, .exited true false] ∧
      (∀ a ∈ before, ¬Takes a) ∧ Takes taking ∧
      made (before ++ [taking, taking]) = before ++ [taking] ∧ copyWith (before ++ [taking, taking]) = .ok () ∧
      made before = before ∧ copyWith before = .error (.clipboardFailed ["xclip", "xsel"]) := by
  obtain ⟨before, hbefore⟩ : ∃ before : List Attempt, before = [⟨⟨"wl-copy", []⟩, .missing⟩,
    ⟨⟨"xclip", []⟩, .unstartable .permissionDenied⟩, ⟨⟨"xsel", []⟩, .exited true false⟩] := ⟨_, rfl⟩
  have hpassed : ∀ a ∈ before, ¬Takes a := by simp [hbefore, Takes]
  have hthere : ∃ a ∈ before, a.ending ≠ .missing := by simp [hbefore]
  have htaking : Takes ⟨⟨"cat", []⟩, .exited true true⟩ := rfl
  obtain ⟨hfirst, -⟩ := copied_by_first_that_takes (before ++ [⟨⟨"cat", []⟩, .exited true true⟩,
    ⟨⟨"cat", []⟩, .exited true true⟩])
  obtain ⟨-, -, hnone, -⟩ := copied_by_first_that_takes before
  obtain ⟨hmade, hok⟩ := hfirst before _ _ rfl hpassed htaking
  obtain ⟨hall, -, hfailed⟩ := hnone hpassed
  refine ⟨before, _, ?_, hpassed, htaking, hmade, hok, hall, ?_⟩
  · rw [hbefore]
    rfl
  · rw [hfailed hthere, hbefore]
    rfl

variable {ending : Tool → Ending}

/-- **A tool is run as it is** if no argument of it holds a null character; otherwise it does not start, be it there or
not. -/
theorem ending_attempt (ending : Tool → Ending) (tool : Tool) : (tool.attempt ending).ending =
    if ∀ argument ∈ tool.arguments, '\x00' ∉ argument then ending tool else .unstartable .argumentHasNull := by
  unfold Tool.attempt Tool.canStart
  by_cases hplain : ∀ argument ∈ tool.arguments, '\x00' ∉ argument
  · rw [if_pos hplain, if_pos (by simpa using hplain)]
  · rw [if_neg hplain, if_neg (by simpa using hplain)]

theorem attempt_iff (ending : Tool → Ending) (tool : Tool) (P : Ending → Prop)
    (hstuck : ¬P (.unstartable .argumentHasNull)) :
    P (tool.attempt ending).ending ↔ (∀ argument ∈ tool.arguments, '\x00' ∉ argument) ∧ P (ending tool) := by
  rw [ending_attempt]
  split
  · rename_i hplain
    exact ⟨fun hrun => ⟨hplain, hrun⟩, And.right⟩
  · rename_i hnull
    exact iff_of_false hstuck (fun h => hnull h.1)

theorem started_attempt_iff {tool : Tool} : (tool.attempt ending).ending.started = true ↔
    (∀ argument ∈ tool.arguments, '\x00' ∉ argument) ∧ (ending tool).started = true :=
  attempt_iff ending tool (fun e => e.started = true) nofun

theorem takes_attempt_iff {tool : Tool} : Takes (tool.attempt ending) ↔
    (∀ argument ∈ tool.arguments, '\x00' ∉ argument) ∧ ending tool = .exited true true :=
  attempt_iff ending tool (fun e => e = .exited true true) nofun

/-- **Tools that are run in order copy** just if one of them starts and takes the text. -/
theorem copyWith_attempts_eq_ok_iff {tools : List Tool} : copyWith (tools.map (Tool.attempt ending)) = .ok () ↔
    ∃ tool ∈ tools, (∀ argument ∈ tool.arguments, '\x00' ∉ argument) ∧ ending tool = .exited true true := by
  rw [copyWith_eq_ok_iff]
  constructor
  · rintro ⟨a, ha, htakes⟩
    obtain ⟨tool, hmem, rfl⟩ := List.mem_map.1 ha
    exact ⟨tool, hmem, takes_attempt_iff.1 htakes⟩
  · rintro ⟨tool, hmem, htakes⟩
    exact ⟨_, List.mem_map_of_mem hmem, takes_attempt_iff.2 htakes⟩

/-- **On a desktop the text is copied** just if one of the clipboard's tools takes it. -/
theorem copy_eq_ok_iff (text : Text) (t : Unit) :
    ((desktop ending).copy text t).1 = .ok () ↔ ∃ tool ∈ clipboard, ending tool = .exited true true := by
  have hplain : ∀ tool ∈ clipboard, ∀ argument ∈ tool.arguments, '\x00' ∉ argument := by decide
  constructor
  · intro hcopied
    obtain ⟨tool, hmem, -, htakes⟩ := copyWith_attempts_eq_ok_iff.1 hcopied
    exact ⟨tool, hmem, htakes⟩
  · rintro ⟨tool, hmem, htakes⟩
    exact copyWith_attempts_eq_ok_iff.2 ⟨tool, hmem, hplain tool hmem, htakes⟩

/-- No tool of the clipboard has an argument that keeps it from starting. -/
theorem attempts_clipboard (ending : Tool → Ending) :
    clipboard.map (Tool.attempt ending) = clipboard.map fun tool => ⟨tool, ending tool⟩ := rfl

/-- **If none takes it**, the programs that are there are reported, or all three if none is. -/
theorem copy_of_none (h : ∀ tool ∈ clipboard, ending tool ≠ .exited true true) (text : Text) (t : Unit) :
    let there := clipboard.filter fun tool => ending tool ≠ .missing
    ((desktop ending).copy text t).1 = .error (if there.isEmpty
      then .noClipboard ["wl-copy", "xclip", "xsel"] else .clipboardFailed (there.map Tool.program)) := by
  have hnone : ∀ a ∈ clipboard.map (Tool.attempt ending), ¬Takes a := by
    rw [attempts_clipboard, List.forall_mem_map]
    exact h
  have hcopy : ((desktop ending).copy text t).1 = copyWith (clipboard.map (Tool.attempt ending)) := rfl
  have hpresent : present (clipboard.map (Tool.attempt ending)) =
      (clipboard.filter fun tool => ending tool ≠ .missing).map Tool.program := by
    rw [attempts_clipboard, present, programs, List.filter_map, List.map_map]
    rfl
  rw [hcopy, (copyWith_of_none hnone).2, hpresent, List.isEmpty_map]
  rfl

/-- **The tools of the clipboard are tried** up to the first that takes the text. -/
theorem made_clipboard {before behind : List Tool} {tool : Tool} (hsplit : clipboard = before ++ tool :: behind)
    (hbefore : ∀ b ∈ before, ending b ≠ .exited true true) (htakes : ending tool = .exited true true) :
    (made (clipboard.map (Tool.attempt ending))).map Attempt.tool = before ++ [tool] := by
  have hpassed : ∀ a ∈ before.map fun tool => (⟨tool, ending tool⟩ : Attempt), ¬Takes a := by
    rw [List.forall_mem_map]
    exact hbefore
  have htaken : Takes ⟨tool, ending tool⟩ := htakes
  rw [attempts_clipboard, hsplit, List.map_append, List.map_cons, (copyWith_of_first hpassed htaken _).1]
  simp [Function.comp_def]

theorem notifyWith_eq_ok_iff {a : Attempt} : notifyWith a = .ok () ↔ ∃ tookAll, a.ending = .exited true tookAll := by
  unfold notifyWith
  cases a.ending with
  | missing => simp
  | unstartable fault => simp
  | exited success tookAll => cases success <;> simp

/-- **A notification is sent** just if no part of it holds a null character and the notifier exits with success. -/
theorem notify_eq_ok_iff (title message : Text) (t : Unit) :
    ((desktop ending).notify title message t).1 = .ok () ↔ '\x00' ∉ title ∧ '\x00' ∉ message ∧
      ∃ tookAll, ending ⟨"notify-send", [title, message]⟩ = .exited true tookAll := by
  have hplain : (∀ argument ∈ (notifier title message).arguments, '\x00' ∉ argument) ↔
      '\x00' ∉ title ∧ '\x00' ∉ message := by
    have harguments : (notifier title message).arguments = [title, message] := rfl
    rw [harguments, List.forall_mem_cons, List.forall_mem_singleton]
  have hattempt := attempt_iff ending (notifier title message) (fun e => ∃ tookAll, e = .exited true tookAll)
    (fun ⟨_, h⟩ => nomatch h)
  unfold desktop
  dsimp only
  rw [notifyWith_eq_ok_iff, hattempt, hplain, and_assoc]
  rfl

end Tools
end CommandComposer
