import CommandComposer.Proofs.LineReading
/-!
# InputLines — an input is read line by line

An input is cut behind each of its line feeds (`Cut`, `pieces`).  A line feed is a character of its own wherever it
stands (`ofBytes?_append_lineFeed`), so reading a line takes one piece, whatever its bytes, and gives what that piece
alone says (`Cut.readLine_eq`).  Reading again and again gives a result for each piece in turn and then the end of the
input for ever (`readLines_of_cut`), and lines that were written are read as they were, however they were ended
(`lines_of_input`).
-/
namespace CommandComposer
namespace Text

theorem toBytes_append (s t : Text) : toBytes (s ++ t) = toBytes s ++ toBytes t := by
  rw [toBytes_eq_flatMap, toBytes_eq_flatMap, toBytes_eq_flatMap, List.flatMap_append]

theorem toBytes_ne_nil : ∀ {t : Text}, t ≠ [] → t.toBytes ≠ []
  | [], h => absurd rfl h
  | c :: t, _ => by
    rw [toBytes_eq_flatMap, List.flatMap_cons]
    exact List.append_ne_nil_of_left_ne_nil String.utf8EncodeChar_ne_nil _

theorem toBytes_singleton (c : Char) : toBytes [c] = String.utf8EncodeChar c := by
  rw [toBytes_eq_flatMap, List.flatMap_singleton]

theorem toBytes_lineFeed : toBytes ['\n'] = [Terminal.lineFeed] := by
  rw [toBytes_singleton]
  decide

theorem ofBytes?_eq_some_iff {bytes : List UInt8} {t : Text} : ofBytes? bytes = some t ↔ t.toBytes = bytes := by
  constructor
  · intro h
    obtain ⟨s, hs, rfl⟩ := Option.map_eq_some_iff.1 h
    rw [String.fromUTF8?] at hs
    split at hs
    · cases hs
      rw [toBytes, String.ofList_toList, String.toUTF8_eq_toByteArray, String.fromUTF8]
    · cases hs
  · rintro rfl
    exact ofBytes?_toBytes t

/-- **A text whose bytes end in a line feed ends in one**: no other character has that byte. -/
theorem exists_of_toBytes_eq {t : Text} {bytes : List UInt8} (h : t.toBytes = bytes ++ [Terminal.lineFeed]) :
    ∃ u : Text, t = u ++ ['\n'] ∧ u.toBytes = bytes := by
  rcases List.eq_nil_or_concat' t with rfl | ⟨u, c, rfl⟩
  · cases bytes <;> cases h
  · have hend := congrArg List.getLast? h
    rw [toBytes_append, toBytes_singleton, List.getLast?_append_of_ne_nil _ String.utf8EncodeChar_ne_nil,
      List.getLast?_concat] at hend
    obtain rfl := lineFeed_of_mem_utf8EncodeChar (List.mem_of_getLast? hend)
    rw [toBytes_append, toBytes_lineFeed] at h
    exact ⟨u, rfl, List.append_cancel_right h⟩

theorem ofBytes?_append_lineFeed (bytes : List UInt8) :
    ofBytes? (bytes ++ [Terminal.lineFeed]) = (ofBytes? bytes).map (· ++ ['\n']) := by
  cases hbytes : ofBytes? bytes with
  | some t =>
    rw [ofBytes?_eq_some_iff] at hbytes
    rw [Option.map_some, ofBytes?_eq_some_iff, toBytes_append, hbytes, toBytes_lineFeed]
  | none =>
    rw [Option.map_none, Option.eq_none_iff_forall_ne_some]
    intro t ht
    obtain ⟨u, -, hu⟩ := exists_of_toBytes_eq (ofBytes?_eq_some_iff.1 ht)
    rw [← hu, ofBytes?_toBytes] at hbytes
    cases hbytes

end Text

namespace Terminal

open Text

/-- **An input cut behind each line feed**; what stands behind the last one, if anything does, is a piece too. -/
inductive Cut : List UInt8 → List (List UInt8) → Prop where
  | none : Cut [] []
  | last (piece : List UInt8) (hne : piece ≠ []) (hpiece : lineFeed ∉ piece) : Cut piece [piece]
  | line (body input : List UInt8) (pieces : List (List UInt8)) (hbody : lineFeed ∉ body) (h : Cut input pieces) :
      Cut (body ++ lineFeed :: input) ((body ++ [lineFeed]) :: pieces)

def pieces : List UInt8 → List (List UInt8)
  | [] => []
  | b :: input =>
    if b = lineFeed then [b] :: pieces input
    else
      match pieces input with
      | [] => [[b]]
      | piece :: rest => (b :: piece) :: rest

/-- What `n` readings give, and the input behind them. -/
def readLines : Nat → List UInt8 → List (Except Error Text) × List UInt8
  | 0, input => ([], input)
  | n + 1, input => ((readLine input).1 :: (readLines n (readLine input).2).1, (readLines n (readLine input).2).2)

/-- **What the bytes of a line say**: its text without the carriage returns and line feeds at the end, if they are a
text. -/
inductive ReadsAs (piece : List UInt8) : Except Error Text → Prop where
  | text (t ending : Text) (hpiece : piece = (t ++ ending).toBytes) (hending : ∀ c ∈ ending, c = '\r' ∨ c = '\n')
      (ht : ∀ c ∈ t.getLast?, c ≠ '\r' ∧ c ≠ '\n') : ReadsAs piece (.ok t)
  | noText (h : ∀ t : Text, piece ≠ t.toBytes) : ReadsAs piece (.error (.stream .notText))

/-- **Lines as they are written**: none holds a line feed or ends in a carriage return; each is ended by a line feed,
with or without a carriage return in front of it, but the last one need not be ended if it is not empty. -/
inductive Written : List Text → List UInt8 → Prop where
  | none : Written [] []
  | unended (t : Text) (hne : t ≠ []) (hline : '\n' ∉ t) (hend : t.getLast? ≠ some '\r') : Written [t] t.toBytes
  | ended (t ending : Text) (lines : List Text) (bytes : List UInt8) (hline : '\n' ∉ t) (hend : t.getLast? ≠ some '\r')
      (hending : ending = "\n" ∨ ending = "\r\n") (h : Written lines bytes) :
      Written (t :: lines) (t.toBytes ++ ending.toBytes ++ bytes)

theorem flatten_of_cut {input : List UInt8} {cut : List (List UInt8)} (h : Cut input cut) : cut.flatten = input := by
  induction h with
  | none => rfl
  | last piece hne hpiece => simp
  | line body input pieces hbody _ ih => simp [ih]

theorem cut_pieces : ∀ input : List UInt8, Cut input (pieces input)
  | [] => .none
  | b :: input => by
    have ih := cut_pieces input
    rw [pieces]
    by_cases hb : b = lineFeed
    · rw [if_pos hb, hb]
      exact .line [] input _ List.not_mem_nil ih
    · rw [if_neg hb]
      generalize pieces input = cut at ih
      cases ih with
      | none => exact .last [b] (List.cons_ne_nil _ _) (by simpa using Ne.symm hb)
      | last _ hne hpiece => exact .last (b :: input) (List.cons_ne_nil _ _) (by simp [hpiece, Ne.symm hb])
      | line body rest cut hbody h => exact .line (b :: body) rest cut (by simp [hbody, Ne.symm hb]) h

theorem readsAs_lineText (piece : List UInt8) : ReadsAs piece (lineText piece) := by
  rw [lineText]
  cases hpiece : ofBytes? piece with
  | some t =>
    refine .text (t.dropEndWhile endsLine) (t.rtakeWhile endsLine) ?_ (fun c hc => ?_) (fun c hc => ?_)
    · rw [dropEndWhile_eq_rdropWhile, List.rdropWhile_append_rtakeWhile]
      exact (ofBytes?_eq_some_iff.1 hpiece).symm
    · simpa [endsLine] using List.mem_rtakeWhile_imp hc
    · obtain ⟨hne, rfl⟩ := List.mem_getLast?_eq_getLast hc
      simpa [endsLine, dropEndWhile_eq_rdropWhile] using List.rdropWhile_last_not endsLine t hne
  | none =>
    refine .noText fun t ht => ?_
    rw [ht, ofBytes?_toBytes] at hpiece
    cases hpiece

theorem lineText_append_lineFeed (bytes : List UInt8) : lineText (bytes ++ [lineFeed]) = lineText bytes := by
  rw [lineText, lineText, ofBytes?_append_lineFeed]
  cases ofBytes? bytes with
  | none => rfl
  | some t => exact congrArg Except.ok (dropEndWhile_append (List.forall_mem_singleton.2 rfl) t)

/-- **One reading takes one piece**, whatever its bytes are. -/
theorem Cut.readLine_eq {input piece : List UInt8} {rest : List (List UInt8)} (h : Cut input (piece :: rest)) :
    readLine input = (lineText piece, rest.flatten) ∧ Cut rest.flatten rest := by
  cases h with
  | last _ hne hpiece => exact ⟨by rw [readLine_of_ne_nil hne, cutLine_of_not_mem hpiece, List.flatten_nil], .none⟩
  | line body input _ hbody h =>
    have hne : body ++ lineFeed :: input ≠ [] := List.append_ne_nil_of_right_ne_nil _ (List.cons_ne_nil _ _)
    rw [readLine_of_ne_nil hne, cutLine_append hbody, lineText_append_lineFeed, flatten_of_cut h]
    exact ⟨rfl, h⟩

/-- **Reading again and again**, by induction on how often: the pieces in turn, and then the end of the input. -/
theorem readLines_of_cut : ∀ (n : Nat) {input : List UInt8} {cut : List (List UInt8)}, Cut input cut →
    readLines n input = ((cut.map lineText).take n ++ List.replicate (n - cut.length) (.error .inputClosed),
      (cut.drop n).flatten)
  | 0, input, cut, h => by
    rw [readLines, List.drop_zero, flatten_of_cut h]
    simp
  | n + 1, input, [], h => by
    obtain rfl := flatten_of_cut h
    have ih := readLines_of_cut n h
    have hclosed : readLine [] = (.error .inputClosed, []) := rfl
    rw [List.flatten_nil] at ih ⊢
    rw [readLines, hclosed, ih]
    simp [List.replicate_succ]
  | n + 1, input, piece :: rest, h => by
    obtain ⟨hread, hrest⟩ := h.readLine_eq
    rw [readLines, hread, readLines_of_cut n hrest]
    simp

theorem lineText_of_written {t ending : Text} (hline : '\n' ∉ t) (hend : t.getLast? ≠ some '\r')
    (hending : ∀ c ∈ ending, endsLine c = true) : lineText (t ++ ending).toBytes = .ok t := by
  rw [lineText, ofBytes?_toBytes]
  refine congrArg Except.ok ((dropEndWhile_append hending t).trans ?_)
  rw [dropEndWhile_eq_rdropWhile, List.rdropWhile_eq_self_iff]
  intro hne hlast
  simp only [endsLine, Bool.or_eq_true, beq_iff_eq] at hlast
  rcases hlast with hlast | hlast
  · exact hend (by rw [List.getLast?_eq_getLast_of_ne_nil hne, hlast])
  · exact hline (hlast ▸ List.getLast_mem hne)

/-- **What was written is cut into its lines**, by induction on how it was written. -/
theorem Written.exists_cut {lines : List Text} {input : List UInt8} (h : Written lines input) :
    ∃ cut, Cut input cut ∧ cut.map lineText = lines.map Except.ok := by
  induction h with
  | none => exact ⟨[], .none, rfl⟩
  | unended t hne hline hend =>
    have hread : lineText (t ++ []).toBytes = .ok t := lineText_of_written hline hend nofun
    rw [List.append_nil] at hread
    exact ⟨[t.toBytes], .last _ (toBytes_ne_nil hne) (lineFeed_not_mem_toBytes hline), congrArg ([·]) hread⟩
  | ended t ending lines bytes hline hend hending _ ih =>
    obtain ⟨cut, hcut, hlines⟩ := ih
    -- a carriage return in front of the line feed is part of the piece, but not of what it reads as
    obtain ⟨cr, hcr, rfl⟩ : ∃ cr : Text, (∀ c ∈ cr, c = '\r') ∧ ending = cr ++ ['\n'] := by
      rcases hending with rfl | rfl
      · exact ⟨[], nofun, rfl⟩
      · exact ⟨['\r'], List.forall_mem_singleton.2 rfl, rfl⟩
    have hbody : '\n' ∉ t ++ cr := by
      intro hmem
      rcases List.mem_append.1 hmem with hmem | hmem
      · exact hline hmem
      · exact absurd (hcr _ hmem) (by decide)
    have hends : ∀ c ∈ cr ++ ['\n'], endsLine c = true := by
      intro c hc
      rcases List.mem_append.1 hc with hc | hc
      · rw [hcr c hc]
        rfl
      · rw [List.mem_singleton.1 hc]
        rfl
    have hpiece : t.toBytes ++ (cr ++ ['\n']).toBytes = (t ++ cr).toBytes ++ [lineFeed] := by
      rw [toBytes_append, toBytes_append, toBytes_lineFeed, List.append_assoc]
    have hread := lineText_of_written hline hend hends
    rw [toBytes_append, hpiece] at hread
    rw [hpiece, List.append_assoc, List.singleton_append]
    refine ⟨_, .line _ bytes cut (lineFeed_not_mem_toBytes hbody) hcut, ?_⟩
    rw [List.map_cons, List.map_cons, hread, hlines]

/-- **The lines of an input.**  Reading again and again gives a result for each piece of the input, cut behind each line
feed, one after the other, and leaves the pieces behind; then the input is closed for ever.  What a piece reads as
depends on its bytes alone: on its text, without the carriage returns and line feeds at the end, if it is one.  So lines
that were written are read, and nothing else is. -/
theorem lines_of_input (input : List UInt8) :
    Cut input (pieces input) ∧
    (∀ n, readLines n input =
      (((pieces input).map lineText).take n ++ List.replicate (n - (pieces input).length) (.error .inputClosed),
        ((pieces input).drop n).flatten)) ∧
    (∀ piece ∈ pieces input, ReadsAs piece (lineText piece)) ∧
    ∀ lines, Written lines input → ∀ n,
      (readLines n input).1 =
        (lines.map Except.ok).take n ++ List.replicate (n - lines.length) (.error .inputClosed) := by
  refine ⟨cut_pieces input, fun n => readLines_of_cut n (cut_pieces input), fun piece _ => readsAs_lineText piece, ?_⟩
  intro lines h n
  obtain ⟨cut, hcut, hlines⟩ := h.exists_cut
  have hlength : cut.length = lines.length := by simpa using congrArg List.length hlines
  rw [readLines_of_cut n hcut, hlines, hlength]

/-- A line that is ended by both, an empty one, and one that is not ended and holds a carriage return. -/
theorem lines_of_input_mixed :
    Written ["a", "", "b\rc"]
      (toBytes "a" ++ toBytes "\r\n" ++ (toBytes "" ++ toBytes "\n" ++ toBytes "b\rc")) ∧
    (readLines 5 (toBytes "a" ++ toBytes "\r\n" ++ (toBytes "" ++ toBytes "\n" ++ toBytes "b\rc"))).1 =
      [.ok "a", .ok "", .ok "b\rc", .error .inputClosed, .error .inputClosed] := by
  have hlast : Written ["b\rc"] (toBytes "b\rc") := .unended _ (by decide) (by decide) (by decide)
  have hempty : Written ["", "b\rc"] (toBytes "" ++ toBytes "\n" ++ toBytes "b\rc") :=
    .ended _ _ _ _ (by decide) (by decide) (.inl rfl) hlast
  have hwritten : Written ["a", "", "b\rc"]
      (toBytes "a" ++ toBytes "\r\n" ++ (toBytes "" ++ toBytes "\n" ++ toBytes "b\rc")) :=
    .ended _ _ _ _ (by decide) (by decide) (.inr rfl) hempty
  obtain ⟨-, -, -, hread⟩ := lines_of_input
    (toBytes "a" ++ toBytes "\r\n" ++ (toBytes "" ++ toBytes "\n" ++ toBytes "b\rc"))
  exact ⟨hwritten, (hread _ hwritten 5).trans rfl⟩

/-- A line that is no text does not touch the lines around it. -/
example : readLines 4 [97, 10, 0xFF, 13, 10, 98] =
    ([.ok "a", .error (.stream .notText), .ok "b", .error .inputClosed], []) := by decide +kernel

end Terminal
end CommandComposer
