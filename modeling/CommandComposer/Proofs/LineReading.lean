import Mathlib.Data.List.DropRight
import CommandComposer.Proofs.Numerals
import CommandComposer.Proofs.Trimming
import CommandComposer.Terminal.Line
/-!
# LineReading — a line that is typed is read

A text without a line feed is one line: its bytes have no line feed in them (`lineFeed_not_mem_toBytes`), so the line
ends where it was ended, and decoding it gives the text but for what ends lines (`readLine_typed`), which trimming drops
anyway (`trim_dropEndWhile_endsLine`).  A number written as a numeral is read as itself (`read?_ofNat`), so a menu's
entry is picked by its number (`selection?_ofNat`).
-/
namespace CommandComposer
namespace Text

theorem dropEndWhile_append {p : Char → Bool} {u : Text} (hu : ∀ c ∈ u, p c = true) (s : Text) :
    dropEndWhile p (s ++ u) = dropEndWhile p s := by
  unfold dropEndWhile
  rw [List.reverse_append, List.dropWhile_append_of_pos (fun c hc => hu c (List.mem_reverse.1 hc))]

theorem trim_append {u : Text} (hu : ∀ c ∈ u, isBlank c = true) (s : Text) : (s ++ u).trim = s.trim := by
  rw [trim, trim, List.dropWhile_append]
  split
  · rename_i hs
    rw [List.dropWhile_eq_nil_iff.2 hu, List.isEmpty_iff.1 hs]
  · exact dropEndWhile_append hu _

theorem ofBytes?_toBytes (t : Text) : ofBytes? (toBytes t) = some t := by
  have hbytes : (⟨(toBytes t).toArray⟩ : ByteArray) = (String.ofList t).toByteArray := by
    rw [toBytes, Array.toArray_toList, String.toUTF8_eq_toByteArray]
  rw [ofBytes?, hbytes, String.fromUTF8?, dif_pos (String.ofList t).isValidUTF8]
  exact congrArg some String.toList_ofList

theorem toBytes_eq_flatMap (t : Text) : toBytes t = t.flatMap String.utf8EncodeChar := by
  rw [toBytes, String.toUTF8_eq_toByteArray, String.toByteArray_ofList, List.utf8Encode, List.data_toByteArray]

/-- **The line feed is a byte of no character but its own**: every other byte below 128 is a character, and the bytes of
the characters from there on are above it. -/
theorem lineFeed_of_mem_utf8EncodeChar {c : Char} (h : (10 : UInt8) ∈ String.utf8EncodeChar c) : c = '\n' := by
  have hval : c.val.toNat = 10 := by
    unfold String.utf8EncodeChar at h
    dsimp only at h
    split at h
    · simp only [List.mem_singleton, ← UInt8.toNat_inj, UInt8.toNat_ofNat', UInt8.reduceToNat] at h
      omega
    · split at h
      · simp only [List.mem_cons, List.not_mem_nil, or_false, ← UInt8.toNat_inj, UInt8.toNat_ofNat',
          UInt8.reduceToNat] at h
        omega
      · split at h
        all_goals
          simp only [List.mem_cons, List.not_mem_nil, or_false, ← UInt8.toNat_inj, UInt8.toNat_ofNat',
            UInt8.reduceToNat] at h
          omega
  exact Char.ext (UInt32.toNat_inj.1 hval)

theorem lineFeed_not_mem_toBytes {t : Text} (h : '\n' ∉ t) : Terminal.lineFeed ∉ toBytes t := by
  rw [toBytes_eq_flatMap]
  intro hmem
  obtain ⟨c, hc, hbyte⟩ := List.mem_flatMap.1 hmem
  exact h (lineFeed_of_mem_utf8EncodeChar hbyte ▸ hc)

end Text

namespace Numeral

theorem trim_ofNat (n : Nat) : (ofNat n).trim = ofNat n :=
  Text.Trimmed.trim_eq
    ⟨fun _ hc => isBlank_of_isDigit (isDigit_of_mem_ofNat (List.mem_of_mem_head? hc)),
      fun _ hc => isBlank_of_isDigit (isDigit_of_mem_ofNat (List.mem_of_mem_getLast? hc))⟩

theorem lineFeed_not_mem_ofNat (n : Nat) : '\n' ∉ ofNat n := fun h => absurd (isDigit_of_mem_ofNat h) (by decide)

theorem read?_ofNat {limit n : Nat} (h : n ≤ limit) : read? limit (ofNat n) = some n := by
  have hvalue : value (ofNat n) = n := Nat.ofDigitChars_ten_toDigits
  have hread := read?_of_value_le (isNumeral_ofNat n) (hvalue.trans_le h)
  rwa [hvalue] at hread

end Numeral

namespace Terminal

open Text

theorem isBlank_of_endsLine {c : Char} (h : endsLine c = true) : isBlank c = true := by
  simp only [endsLine, Bool.or_eq_true, beq_iff_eq] at h
  rcases h with rfl | rfl
  · decide
  · decide

theorem trim_dropEndWhile_endsLine (t : Text) : (t.dropEndWhile endsLine).trim = t.trim := by
  conv => rhs; rw [← List.rdropWhile_append_rtakeWhile (p := endsLine) (l := t)]
  exact (trim_append (fun c hc => isBlank_of_endsLine (List.mem_rtakeWhile_imp hc)) _).symm

theorem cutLine_append {bytes : List UInt8} (h : lineFeed ∉ bytes) (rest : List UInt8) :
    cutLine (bytes ++ lineFeed :: rest) = (bytes, rest) := by
  have hplain : ∀ b ∈ bytes, decide (b ≠ lineFeed) = true := fun b hb => decide_eq_true (fun heq => h (heq ▸ hb))
  rw [cutLine, List.takeWhile_append_of_pos hplain, List.dropWhile_append_of_pos hplain]
  simp

theorem cutLine_of_not_mem {bytes : List UInt8} (h : lineFeed ∉ bytes) : cutLine bytes = (bytes, []) := by
  have hplain : ∀ b ∈ bytes, decide (b ≠ lineFeed) = true := fun b hb => decide_eq_true (fun heq => h (heq ▸ hb))
  rw [cutLine, List.takeWhile_eq_self_iff.2 hplain, List.dropWhile_eq_nil_iff.2 hplain]
  rfl

theorem readLine_of_ne_nil : ∀ {input : List UInt8}, input ≠ [] →
    readLine input = (lineText (cutLine input).1, (cutLine input).2)
  | [], h => absurd rfl h
  | _ :: _, _ => rfl

/-- **A text that is typed as a line is read**, but for what ends lines. -/
theorem readLine_typed {t : Text} (h : '\n' ∉ t) (rest : List UInt8) :
    readLine (t.toBytes ++ lineFeed :: rest) = (.ok (t.dropEndWhile endsLine), rest) := by
  rw [readLine_of_ne_nil (List.append_ne_nil_of_right_ne_nil _ (List.cons_ne_nil _ _)),
    cutLine_append (lineFeed_not_mem_toBytes h), lineText, ofBytes?_toBytes]

/-- **An entry is picked by its number**, counted from one. -/
theorem selection?_ofNat {i count : Nat} (hi : i < count) (hcount : count ≤ Numeral.word64) :
    selection? ((Numeral.ofNat (i + 1)).dropEndWhile endsLine) count = some i := by
  rw [selection?, trim_dropEndWhile_endsLine, Numeral.trim_ofNat, Numeral.read?_ofNat (Nat.le_trans hi hcount)]
  exact if_pos ⟨Nat.le_add_left _ _, hi⟩

end Terminal
end CommandComposer
