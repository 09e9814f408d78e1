import CommandComposer.Text.Form
/-!
# Literals — literals are read back

A reader of JSON string literals and of compact lists of them: between quotation marks stand characters that are
neither marks, backslashes nor control characters, and escapes, a code unit of a surrogate pair only with its partner.
What is written of a text or of texts is read as just these, whatever stands behind it (`readLiteral_encode`,
`readList_encodeList`).
-/
namespace CommandComposer
namespace Quoted

def hexValue? (c : Char) : Option Nat :=
  if '0' ≤ c ∧ c ≤ '9' then some (c.toNat - '0'.toNat)
  else if 'a' ≤ c ∧ c ≤ 'f' then some (c.toNat - 'a'.toNat + 10)
  else if 'A' ≤ c ∧ c ≤ 'F' then some (c.toNat - 'A'.toNat + 10)
  else none

/-- The code unit that four hexadecimal digits give. -/
def unit? (a b c d : Char) : Option Nat := do
  let a ← hexValue? a
  let b ← hexValue? b
  let c ← hexValue? c
  let d ← hexValue? d
  return ((a * 16 + b) * 16 + c) * 16 + d

/-- The character that a letter behind a backslash stands for. -/
def escaped? : Char → Option Char
  | '"' => some '"'
  | '\\' => some '\\'
  | '/' => some '/'
  | 'b' => some '\x08'
  | 'f' => some '\x0c'
  | 'n' => some '\n'
  | 'r' => some '\r'
  | 't' => some '\t'
  | _ => none

def isHigh (unit : Nat) : Bool := decide (0xD800 ≤ unit ∧ unit ≤ 0xDBFF)

def isLow (unit : Nat) : Bool := decide (0xDC00 ≤ unit ∧ unit ≤ 0xDFFF)

/-- The character of a surrogate pair. -/
def paired (high low : Nat) : Char := Char.ofNat (0x10000 + (high - 0xD800) * 0x400 + (low - 0xDC00))

def withFirst (c : Char) (r : Text × Text) : Text × Text := (c :: r.1, r.2)

/-- **Reading inside a literal**: its text up to the mark that ends it, and what stands behind that. -/
def readInside : Text → Option (Text × Text)
  | [] => none
  | '"' :: rest => some ([], rest)
  | '\\' :: 'u' :: a :: b :: c :: d :: t =>
    match unit? a b c d with
    | none => none
    | some n =>
      if isHigh n then
        match t with
        | '\\' :: 'u' :: e :: f :: g :: h :: t =>
          match unit? e f g h with
          | none => none
          | some m => if isLow m then (readInside t).map (withFirst (paired n m)) else none
        | _ => none
      else if isLow n then none
      else (readInside t).map (withFirst (Char.ofNat n))
  | '\\' :: c :: t =>
    match escaped? c with
    | none => none
    | some c => (readInside t).map (withFirst c)
  | c :: t => if c.toNat < 0x20 then none else (readInside t).map (withFirst c)

/-- **The text of the literal at the start**, and what stands behind the literal. -/
def readLiteral : Text → Option (Text × Text)
  | '"' :: t => readInside t
  | _ => none

/-- **The text that a literal decodes to.** -/
def decode? (t : Text) : Option Text :=
  match readLiteral t with
  | some (s, []) => some s
  | _ => none

theorem hexValue?_hexDigit : ∀ n < 16, hexValue? (hexDigit n) = some n := by decide

theorem unit?_control {c : Char} (h : c.toNat < 0x20) :
    unit? '0' '0' (hexDigit (c.toNat / 16)) (hexDigit (c.toNat % 16)) = some c.toNat := by
  have h0 : hexValue? '0' = some 0 := rfl
  have hhigh := hexValue?_hexDigit (c.toNat / 16) (by omega)
  have hlow := hexValue?_hexDigit (c.toNat % 16) (Nat.mod_lt _ (by decide))
  simp only [unit?, h0, hhigh, hlow, Option.bind_eq_bind, Option.bind_some, Option.pure_def, Option.some.injEq]
  omega

theorem readInside_plain {c : Char} (hmark : c ≠ '"') (hslash : c ≠ '\\') (h : ¬ c.toNat < 0x20) (t : Text) :
    readInside (c :: t) = (readInside t).map (withFirst c) := by
  simp [readInside, hslash, h]

theorem readInside_escaped {c d : Char} (h : escaped? d = some c) (t : Text) :
    readInside ('\\' :: d :: t) = (readInside t).map (withFirst c) := by
  have hunit : d ≠ 'u' := by
    rintro rfl
    cases h
  simp [readInside, hunit, h]

/-- **How a character is written**: as a letter behind a backslash, as its digits behind an escaped letter, or as
itself. -/
theorem encodeChar_cases (c : Char) :
    (∃ d : Char, escaped? d = some c ∧ 0x20 ≤ d.toNat ∧ encodeChar c = ['\\', d]) ∨
    (c.toNat < 0x20 ∧
      encodeChar c = ['\\', 'u', '0', '0', hexDigit (c.toNat / 16), hexDigit (c.toNat % 16)]) ∨
    (c ≠ '\\' ∧ c ≠ '"' ∧ 0x20 ≤ c.toNat ∧ encodeChar c = [c]) := by
  by_cases hnamed : c ∈ ['"', '\\', '\x08', '\x0c', '\n', '\r', '\t']
  · simp only [List.mem_cons, List.not_mem_nil, or_false] at hnamed
    rcases hnamed with rfl | rfl | rfl | rfl | rfl | rfl | rfl
    all_goals exact .inl ⟨_, rfl, by decide, rfl⟩
  · simp only [List.mem_cons, List.not_mem_nil, or_false, not_or] at hnamed
    obtain ⟨hmark, hslash, h8, hc, hn, hr, ht⟩ := hnamed
    rw [encodeChar, if_neg hmark, if_neg hslash, if_neg h8, if_neg hc, if_neg hn, if_neg hr, if_neg ht]
    by_cases hcontrol : c.toNat < 0x20
    · exact .inr (.inl ⟨hcontrol, if_pos hcontrol⟩)
    · exact .inr (.inr ⟨hslash, hmark, by omega, if_neg hcontrol⟩)

/-- **One character is read back**, whatever stands behind it. -/
theorem readInside_encodeChar (c : Char) (t : Text) :
    readInside (encodeChar c ++ t) = (readInside t).map (withFirst c) := by
  rcases encodeChar_cases c with ⟨d, hd, -, h⟩ | ⟨hcontrol, h⟩ | ⟨hslash, hmark, hplain, h⟩
  · rw [h]
    exact readInside_escaped hd t
  · have hhigh : isHigh c.toNat = false := decide_eq_false (by omega)
    have hlow : isLow c.toNat = false := decide_eq_false (by omega)
    rw [h]
    simp only [List.cons_append, List.nil_append, readInside, unit?_control hcontrol, hhigh, hlow,
      Bool.false_eq_true, if_false, Char.ofNat_toNat]
  · rw [h]
    exact readInside_plain hmark hslash (by omega) t

theorem readInside_encoded : ∀ s rest : Text, readInside (s.flatMap encodeChar ++ '"' :: rest) = some (s, rest)
  | [], _ => rfl
  | c :: s, rest => by
    rw [List.flatMap_cons, List.append_assoc, readInside_encodeChar, readInside_encoded s rest]
    rfl

/-- **What is written of a text is read as that text**, and the reading ends where the literal does. -/
theorem readLiteral_encode (s rest : Text) : readLiteral (encode s ++ rest) = some (s, rest) := by
  rw [encode, List.cons_append, List.cons_append, List.append_assoc]
  exact readInside_encoded s rest

theorem decode?_encode (s : Text) : decode? (encode s) = some s := by
  rw [decode?, ← List.append_nil (encode s), readLiteral_encode]

theorem length_lt_of_readOn {c : Char} {t s rest : Text}
    (ht : ∀ s rest, readInside t = some (s, rest) → rest.length < t.length)
    (h : (readInside t).map (withFirst c) = some (s, rest)) : rest.length < t.length := by
  obtain ⟨⟨s', rest'⟩, hread, heq⟩ := Option.map_eq_some_iff.1 h
  cases heq
  exact ht s' rest' hread

theorem length_readInside_lt (t : Text) : ∀ s rest, readInside t = some (s, rest) → rest.length < t.length := by
  fun_induction readInside t with
  | case2 rest =>
    rintro _ _ ⟨⟩
    exact Nat.lt_succ_self _
  | case5 | case9 | case11 | case13 =>
    rename_i ih
    intro s rest h
    have := length_lt_of_readOn ih h
    simp only [List.length_cons]
    omega
  | _ => nofun

theorem length_readLiteral_lt {t s rest : Text} (h : readLiteral t = some (s, rest)) : rest.length < t.length := by
  unfold readLiteral at h
  split at h
  · exact Nat.lt_succ_of_lt (length_readInside_lt _ _ _ h)
  · cases h

/-- The literals behind the opening bracket of a list, with a comma between each two, and what stands behind the
bracket that closes it. -/
def readItems (t : Text) : Option (List Text × Text) :=
  match _h : readLiteral t with
  | some (item, ']' :: rest) => some ([item], rest)
  | some (item, ',' :: rest) => (readItems rest).map (fun r => (item :: r.1, r.2))
  | _ => none
termination_by t.length
decreasing_by exact Nat.lt_of_succ_lt (length_readLiteral_lt _h)

/-- **The texts of the list of literals at the start**, and what stands behind the list. -/
def readList : Text → Option (List Text × Text)
  | '[' :: ']' :: rest => some ([], rest)
  | '[' :: t => readItems t
  | _ => none

/-- **The texts that a list of literals decodes to.** -/
def decodeList? (t : Text) : Option (List Text) :=
  match readList t with
  | some (items, []) => some items
  | _ => none

theorem readItems_last {t item rest : Text} (h : readLiteral t = some (item, ']' :: rest)) :
    readItems t = some ([item], rest) := by
  rw [readItems]
  split <;> simp_all

theorem readItems_next {t item rest : Text} (h : readLiteral t = some (item, ',' :: rest)) :
    readItems t = (readItems rest).map (fun r => (item :: r.1, r.2)) := by
  rw [readItems]
  split <;> simp_all

theorem readItems_encoded : ∀ (s : Text) (ss : List Text) (rest : Text),
    readItems (Text.join "," ((s :: ss).map encode) ++ ']' :: rest) = some (s :: ss, rest)
  | s, [], rest => by
    rw [List.map_singleton, Text.join, List.intercalate_singleton]
    exact readItems_last (readLiteral_encode s _)
  | s, s' :: ss, rest => by
    have hjoin : Text.join "," ((s :: s' :: ss).map encode) ++ ']' :: rest =
        encode s ++ ',' :: (Text.join "," ((s' :: ss).map encode) ++ ']' :: rest) := by
      rw [List.map_cons, List.map_cons, Text.join, List.intercalate_cons_cons, List.append_assoc, List.append_assoc]
      rfl
    rw [hjoin, readItems_next (readLiteral_encode s _), readItems_encoded s' ss rest]
    rfl

/-- **What is written of texts is read as these texts**, and the reading ends where the list does. -/
theorem readList_encodeList (ss : List Text) (rest : Text) : readList (encodeList ss ++ rest) = some (ss, rest) := by
  rw [encodeList, List.cons_append, List.cons_append, List.append_assoc]
  cases ss with
  | nil => rfl
  | cons s ss =>
    have hitems := readItems_encoded s ss rest
    generalize hencoded : Text.join "," ((s :: ss).map encode) = t at hitems
    -- a literal opens with its mark, so the list does not close at once
    have hopen : ∃ u, t = '"' :: u := by
      rw [← hencoded, List.map_cons, Text.join]
      cases ss with
      | nil => exact ⟨_, by rw [List.map_nil, List.intercalate_singleton, encode]; rfl⟩
      | cons s' ss => exact ⟨_, by rw [List.map_cons, List.intercalate_cons_cons, encode]; rfl⟩
    obtain ⟨u, rfl⟩ := hopen
    exact hitems

theorem decodeList?_encodeList (ss : List Text) : decodeList? (encodeList ss) = some ss := by
  rw [decodeList?, ← List.append_nil (encodeList ss), readList_encodeList]

end Quoted
end CommandComposer
