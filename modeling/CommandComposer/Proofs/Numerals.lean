import Mathlib.Data.List.Induction
import Mathlib.Data.List.TakeWhile
import CommandComposer.Text.Form
/-!
# Numerals — what a numeral is worth

A numeral stands for the number that its digits spell (`value`).  Reading one within a limit gives that number, and
fails just if the number is above the limit (`read?_eq_some_iff`), so being within bounds is being worth a number within
them (`isBounded_eq_true_iff`).  Dropping zeros in front changes nothing of the value (`value_dropZeros`) and leaves no
zero that the numeral can do without (`canonical_dropZeros`); as there is one such numeral for a value (`ofNat_value`),
numerals are compared by their values (`numerals_mean_values`).
-/
namespace CommandComposer
namespace Numeral

def IsDigits (t : Text) : Prop := t ≠ [] ∧ ∀ c ∈ t, '0' ≤ c ∧ c ≤ '9'

/-- A numeral with no zero in front that it can do without. -/
def Canonical (t : Text) : Prop := isNumeral t = true ∧ (t = ['0'] ∨ t.head? ≠ some '0')

/-- **The number that a numeral stands for.** -/
def value (t : Text) : Nat := Nat.ofDigitChars 10 t 0

theorem isNumeral_iff {t : Text} : isNumeral t = true ↔ IsDigits t := by
  simp [isNumeral, IsDigits, Char.isDigit, Char.le_def]

theorem isDigit_of_isNumeral {t : Text} (h : isNumeral t = true) : ∀ c ∈ t, c.isDigit = true := by
  rw [isNumeral, Bool.and_eq_true, List.all_eq_true] at h
  exact h.2

theorem isBlank_of_isDigit {c : Char} (h : c.isDigit = true) : Text.isBlank c = false := by
  have hrange : 48 ≤ c.toNat ∧ c.toNat ≤ 57 := by
    simpa [Char.isDigit, UInt32.le_iff_toNat_le] using h
  simp only [Text.isBlank, Bool.or_eq_false_iff, Bool.and_eq_false_iff, decide_eq_false_iff_not, beq_eq_false_iff_ne]
  omega

theorem canonical_dropZeros {t : Text} (h : isNumeral t = true) : Canonical (dropZeros t) := by
  have hdigits := isDigit_of_isNumeral h
  unfold dropZeros
  split
  · exact ⟨rfl, .inl rfl⟩
  · rename_i c r hdrop
    refine ⟨?_, .inr ?_⟩
    · rw [isNumeral, Bool.and_eq_true, List.all_eq_true, ← hdrop]
      exact ⟨by simp [hdrop], fun d hd => hdigits d ((List.dropWhile_sublist _).subset hd)⟩
    · have hhead := List.head?_dropWhile_not (· == '0') t
      rw [hdrop] at hhead
      simpa using hhead

theorem value_dropWhile_zeros : ∀ t : Text, value (t.dropWhile (· == '0')) = value t
  | [] => rfl
  | c :: t => by
    by_cases hc : c = '0'
    · subst hc
      exact value_dropWhile_zeros t
    · rw [List.dropWhile_cons_of_neg (by simpa using hc)]

/-- **Zeros in front are worth nothing.** -/
theorem value_dropZeros (t : Text) : value (dropZeros t) = value t := by
  rw [← value_dropWhile_zeros t]
  unfold dropZeros
  split
  · rename_i hdrop
    rw [hdrop]
    rfl
  · rename_i c r hdrop
    rw [hdrop]

theorem eq_of_readFrom {limit m : Nat} : ∀ (t : Text) (n : Nat), readFrom limit n t = some m →
    m = Nat.ofDigitChars 10 t n
  | [], _, h => (Option.some.inj h).symm
  | c :: t, n, h => by
    rw [readFrom] at h
    split at h
    · exact eq_of_readFrom t _ h
    · cases h

theorem read?_of_isNumeral {limit : Nat} {t : Text} (ht : isNumeral t = true) : read? limit t = readFrom limit 0 t := by
  have hplus : ∀ u, t ≠ '+' :: u := by
    rintro u rfl
    exact absurd (isDigit_of_isNumeral ht '+' List.mem_cons_self) (by decide)
  unfold read?
  split
  · exact absurd rfl (hplus _)
  · exact absurd rfl (hplus _)
  · rfl
  · cases ht

theorem eq_value_of_read? {limit m : Nat} {t : Text} (ht : isNumeral t = true) (h : read? limit t = some m) :
    m = value t := by
  rw [read?_of_isNumeral ht] at h
  exact eq_of_readFrom t 0 h

theorem readFrom_digits {limit : Nat} : ∀ (t : Text) (n : Nat), (∀ c ∈ t, c.isDigit = true) →
    Nat.ofDigitChars 10 t n ≤ limit → readFrom limit n t = some (Nat.ofDigitChars 10 t n)
  | [], n, _, _ => by rw [readFrom, Nat.ofDigitChars_nil]
  | c :: t, n, hdigits, hlimit => by
    rw [Nat.ofDigitChars_cons] at hlimit ⊢
    have hle : 10 * n + digit c ≤ limit := by
      rw [Nat.ofDigitChars_eq_ofDigitChars_zero] at hlimit
      have hpow : 1 ≤ 10 ^ t.length := Nat.one_le_pow _ _ (by decide)
      have := Nat.mul_le_mul_right (10 * n + digit c) hpow
      rw [digit] at this ⊢
      omega
    rw [readFrom, if_pos ⟨hdigits c List.mem_cons_self, hle⟩]
    exact readFrom_digits t _ (fun d hd => hdigits d (List.mem_cons_of_mem _ hd)) hlimit

theorem read?_of_value_le {limit : Nat} {t : Text} (ht : isNumeral t = true) (h : value t ≤ limit) :
    read? limit t = some (value t) := by
  rw [read?_of_isNumeral ht]
  exact readFrom_digits t 0 (isDigit_of_isNumeral ht) h

/-- What was read is within the limit, as every step of the reading was. -/
theorem le_of_readFrom {limit m : Nat} : ∀ (t : Text) (n : Nat), n ≤ limit → readFrom limit n t = some m →
    m ≤ limit ∧ ∀ c ∈ t, c.isDigit = true
  | [], n, hn, h => by
    cases h
    exact ⟨hn, nofun⟩
  | c :: t, n, _, h => by
    rw [readFrom] at h
    split at h
    · rename_i hstep
      obtain ⟨hm, hdigits⟩ := le_of_readFrom t _ hstep.2 h
      exact ⟨hm, List.forall_mem_cons.2 ⟨hstep.1, hdigits⟩⟩
    · cases h

theorem numeral_of_readFrom {limit n : Nat} {c : Char} {t : Text} (h : readFrom limit 0 (c :: t) = some n) :
    isNumeral (c :: t) = true ∧ value (c :: t) = n ∧ n ≤ limit := by
  obtain ⟨hn, hdigits⟩ := le_of_readFrom _ _ (Nat.zero_le _) h
  refine ⟨?_, (eq_of_readFrom _ _ h).symm, hn⟩
  rw [isNumeral, Bool.and_eq_true, List.all_eq_true]
  exact ⟨rfl, hdigits⟩

/-- **A number that is read** is worth what the numeral is, with a plus sign or without one; what is worth more than the
limit is no number, and nothing else overflows. -/
theorem read?_eq_some_iff {limit n : Nat} {t : Text} :
    read? limit t = some n ↔
      ∃ digits, isNumeral digits = true ∧ (t = digits ∨ t = '+' :: digits) ∧ value digits = n ∧ n ≤ limit := by
  constructor
  · intro h
    unfold read? at h
    split at h
    · obtain ⟨hnumeral, hvalue⟩ := numeral_of_readFrom h
      exact ⟨_, hnumeral, .inr rfl, hvalue⟩
    · cases h
    · obtain ⟨hnumeral, hvalue⟩ := numeral_of_readFrom h
      exact ⟨_, hnumeral, .inl rfl, hvalue⟩
    · cases h
  · rintro ⟨digits, hnumeral, rfl | rfl, rfl, hn⟩
    · exact read?_of_value_le hnumeral hn
    · have hplus : read? limit ('+' :: digits) = readFrom limit 0 digits := by
        cases digits with
        | nil => cases hnumeral
        | cons c digits => rfl
      rw [hplus]
      exact readFrom_digits digits 0 (isDigit_of_isNumeral hnumeral) hn

theorem read?_eq_none {limit : Nat} {t : Text} (ht : isNumeral t = true) (h : limit < value t) :
    read? limit t = none := by
  cases hread : read? limit t with
  | none => rfl
  | some n =>
    obtain ⟨-, -, -, -, hn⟩ := read?_eq_some_iff.1 hread
    rw [eq_value_of_read? ht hread] at hn
    omega

/-- **Being within bounds** is being a numeral that fits a word and is worth a number within them. -/
theorem isBounded_eq_true_iff {b : Bounds} {t : Text} :
    isBounded b t = true ↔ isNumeral t = true ∧ value t ≤ word32 ∧ b.low ≤ value t ∧ value t ≤ b.high := by
  rw [isBounded, Bool.and_eq_true]
  refine and_congr_right fun ht => ?_
  by_cases hfits : value t ≤ word32
  · rw [read?_of_value_le ht hfits]
    simp [Bounds.holds, hfits]
  · rw [read?_eq_none ht (by omega)]
    simp [hfits]

theorem isBounded_eq_true {b : Bounds} {t : Text} (h : isBounded b t = true) :
    isNumeral t = true ∧ b.low ≤ value t ∧ value t ≤ b.high := by
  obtain ⟨ht, -, hrange⟩ := isBounded_eq_true_iff.1 h
  exact ⟨ht, hrange⟩

/-- Bounds that fit a word themselves leave nothing of it to check. -/
theorem isBounded_iff {b : Bounds} (hb : b.high ≤ word32) {t : Text} :
    isBounded b t = true ↔ isNumeral t = true ∧ b.low ≤ value t ∧ value t ≤ b.high := by
  refine ⟨isBounded_eq_true, fun ⟨ht, hlow, hhigh⟩ => ?_⟩
  exact isBounded_eq_true_iff.2 ⟨ht, hhigh.trans hb, hlow, hhigh⟩

theorem isDigit_of_mem_ofNat {n : Nat} {c : Char} (h : c ∈ ofNat n) : c.isDigit = true :=
  Nat.isDigit_of_mem_toDigits (by decide) (by decide) h

theorem isNumeral_ofNat (n : Nat) : isNumeral (ofNat n) = true := by
  have hne : ofNat n ≠ [] := Nat.toDigits_ne_nil
  rw [isNumeral, Bool.and_eq_true, List.all_eq_true]
  exact ⟨by simpa using hne, fun c hc => isDigit_of_mem_ofNat hc⟩

theorem digitChar_digit {c : Char} (h : c.isDigit = true) : digit c < 10 ∧ (digit c).digitChar = c := by
  have hrange : 48 ≤ c.toNat ∧ c.toNat ≤ 57 := by
    simpa [Char.isDigit, UInt32.le_iff_toNat_le] using h
  have hdigit : digit c = c.toNat - 48 := rfl
  have hlt : digit c < 10 := by omega
  refine ⟨hlt, Char.ext (UInt32.toNat_inj.1 ?_)⟩
  have hchar : (digit c).digitChar.toNat = 48 + digit c := Nat.toNat_digitChar_of_lt_ten hlt
  change (digit c).digitChar.toNat = c.toNat
  omega

theorem value_append_digit (t : Text) (c : Char) : value (t ++ [c]) = 10 * value t + digit c := by
  rw [value, Nat.ofDigitChars_append, Nat.ofDigitChars_cons, Nat.ofDigitChars_nil]
  rfl

theorem value_pos {c : Char} {t : Text} (hc : c.isDigit = true) (hne : c ≠ '0') : 0 < value (c :: t) := by
  obtain ⟨-, hchar⟩ := digitChar_digit hc
  have hpos : 0 < digit c := by
    by_contra hzero
    have heq : digit c = 0 := by omega
    rw [heq] at hchar
    exact hne hchar.symm
  rw [value, Nat.ofDigitChars_cons, Nat.ofDigitChars_eq_ofDigitChars_zero, Nat.mul_zero, Nat.zero_add]
  exact Nat.add_pos_left (Nat.mul_pos (Nat.pow_pos (by decide)) hpos) _

/-- **A canonical numeral is the numeral of its value**, by the last digit. -/
theorem ofNat_value {t : Text} (h : Canonical t) : ofNat (value t) = t := by
  induction t using List.reverseRecOn with
  | nil => cases h.1
  | append_singleton t c ih =>
    have hdigits := isDigit_of_isNumeral h.1
    obtain ⟨hlt, hchar⟩ := digitChar_digit (hdigits c (List.mem_append_right _ List.mem_cons_self))
    rw [value_append_digit, ofNat]
    cases t with
    | nil =>
      have hzero : value [] = 0 := rfl
      rw [hzero, Nat.mul_zero, Nat.zero_add, Nat.toDigits_of_lt_base hlt, hchar]
      rfl
    | cons d t =>
      have hd := hdigits d List.mem_cons_self
      have hne : d ≠ '0' := by
        rcases h.2 with heq | hhead
        · simp at heq
        · simpa using hhead
      have hcanonical : Canonical (d :: t) := by
        refine ⟨?_, .inr (by simpa using hne)⟩
        rw [isNumeral, Bool.and_eq_true, List.all_eq_true]
        exact ⟨rfl, fun x hx => hdigits x (List.mem_append_left _ hx)⟩
      have ih := ih hcanonical
      rw [ofNat] at ih
      rw [← Nat.toDigits_append_toDigits (by decide) (value_pos hd hne) hlt, ih, Nat.toDigits_of_lt_base hlt, hchar]

theorem dropZeros_eq_ofNat {t : Text} (h : isNumeral t = true) : dropZeros t = ofNat (value t) := by
  have hsame := ofNat_value (canonical_dropZeros h)
  rwa [value_dropZeros, eq_comm] at hsame

theorem eq_dropZeros_iff {t u : Text} (h : isNumeral t = true) : u = dropZeros t ↔ Canonical u ∧ value u = value t := by
  constructor
  · rintro rfl
    exact ⟨canonical_dropZeros h, value_dropZeros t⟩
  · rintro ⟨hcanonical, hvalue⟩
    rw [dropZeros_eq_ofNat h, ← hvalue, ofNat_value hcanonical]

theorem isBounded_dropZeros (b : Bounds) {t : Text} (h : isNumeral t = true) :
    isBounded b (dropZeros t) = isBounded b t := by
  have hdrop := (canonical_dropZeros h).1
  rw [Bool.eq_iff_iff, isBounded_eq_true_iff, isBounded_eq_true_iff, value_dropZeros, h, hdrop]

/-- **Numerals mean their values, at any length.**  A text is within bounds of 32 bits just if it is digits that are
worth a number within them, however many zeros stand in front; whatever the bounds, what does not fit 32 bits is not
within them.  Dropping zeros gives the one numeral of the same value that has none to drop, so it changes nothing the
second time, is within the same bounds, and is the same for two numerals just if they are worth the same. -/
theorem numerals_mean_values (t : Text) :
    (∀ low high : UInt32, isBounded ⟨low.toNat, high.toNat⟩ t = true ↔
      IsDigits t ∧ low.toNat ≤ value t ∧ value t ≤ high.toNat) ∧
    (∀ b : Bounds, word32 < value t → isBounded b t = false) ∧
    (IsDigits t →
      (∀ u, u = dropZeros t ↔ Canonical u ∧ value u = value t) ∧
      dropZeros (dropZeros t) = dropZeros t ∧
      (∀ b : Bounds, isBounded b (dropZeros t) = isBounded b t) ∧
      ∀ u, IsDigits u → (dropZeros t = dropZeros u ↔ value t = value u)) := by
  refine ⟨fun low high => ?_, fun b hlarge => ?_, fun ht => ?_⟩
  · have hfits : high.toNat ≤ word32 := Nat.le_of_lt_succ high.toNat_lt
    rw [isBounded_iff hfits, isNumeral_iff]
  · rw [Bool.eq_false_iff]
    intro hbounded
    obtain ⟨-, hfits, -⟩ := isBounded_eq_true_iff.1 hbounded
    omega
  · have hnumeral := isNumeral_iff.2 ht
    have hcanonical := canonical_dropZeros hnumeral
    refine ⟨fun u => eq_dropZeros_iff hnumeral, ?_, fun b => isBounded_dropZeros b hnumeral, fun u hu => ?_⟩
    · exact ((eq_dropZeros_iff hcanonical.1).2 ⟨hcanonical, rfl⟩).symm
    · rw [eq_dropZeros_iff (isNumeral_iff.2 hu), value_dropZeros]
      exact and_iff_right hcanonical

/-- The largest number of 32 bits behind zeros, and the next number. -/
theorem numerals_mean_values_word :
    IsDigits "0004294967295" ∧ isBounded ⟨1, 4294967295⟩ "0004294967295" = true ∧
    isBounded ⟨1, 4294967295⟩ "4294967295" = true ∧
    (dropZeros "0004294967295" = dropZeros "4294967295" ↔ value "0004294967295" = value "4294967295") ∧
    word32 < value "4294967296" ∧ isBounded ⟨0, 5000000000⟩ "4294967296" = false := by
  have hdigits : IsDigits "0004294967295" := isNumeral_iff.1 rfl
  have hplain : IsDigits "4294967295" := isNumeral_iff.1 rfl
  have hlarge : word32 < value "4294967296" := by decide
  obtain ⟨hbounded, -, hdrop⟩ := numerals_mean_values "0004294967295"
  obtain ⟨-, hsame, hbounds, hequal⟩ := hdrop hdigits
  obtain ⟨-, hoverflow, -⟩ := numerals_mean_values "4294967296"
  have hfirst : isBounded ⟨1, 4294967295⟩ "0004294967295" = true :=
    (hbounded 1 4294967295).2 ⟨hdigits, by decide, by decide⟩
  exact ⟨hdigits, hfirst, (hbounds _).trans hfirst, hequal _ hplain, hlarge, hoverflow _ hlarge⟩

end Numeral
end CommandComposer
