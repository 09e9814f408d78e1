import Mathlib.Data.List.DropRight
import CommandComposer.Catalog
/-!
# Trimming — texts without white space around them

Trimming leaves a text that neither opens nor ends with white space (`trimmed_trim`) and leaves such a text alone
(`Trimmed.trim_eq`).  A block's normal form ends without white space but may open with it, or with the namespace, if
the namespace in front of it is dropped; it is its own normal form exactly when it opens with neither
(`normalBlock_eq_self_iff`).
-/
namespace CommandComposer
namespace Text

def OpensPlain (t : Text) : Prop := ∀ c ∈ t.head?, isBlank c = false

def EndsPlain (t : Text) : Prop := ∀ c ∈ t.getLast?, isBlank c = false

/-- **No white space around a text.** -/
def Trimmed (t : Text) : Prop := t.OpensPlain ∧ t.EndsPlain

theorem dropEndWhile_eq_rdropWhile (p : Char → Bool) (t : Text) : dropEndWhile p t = List.rdropWhile p t := rfl

theorem opensPlain_dropWhile (t : Text) : OpensPlain (t.dropWhile isBlank) := by
  intro c hc
  have h := List.head?_dropWhile_not isBlank t
  rwa [Option.mem_def.1 hc] at h

theorem endsPlain_dropEndWhile (t : Text) : EndsPlain (dropEndWhile isBlank t) := by
  intro c hc
  obtain ⟨hne, rfl⟩ := List.mem_getLast?_eq_getLast hc
  simpa [dropEndWhile_eq_rdropWhile] using List.rdropWhile_last_not isBlank t hne

theorem OpensPlain.of_start {s t : Text} (h : t.OpensPlain) (hs : s <+: t) : s.OpensPlain := by
  intro c hc
  obtain ⟨u, rfl⟩ := hs
  cases s with
  | nil => cases hc
  | cons a s => exact h c hc

theorem EndsPlain.of_end {s t : Text} (h : t.EndsPlain) (hs : s <:+ t) : s.EndsPlain := by
  intro c hc
  obtain ⟨u, rfl⟩ := hs
  refine h c ?_
  rw [List.getLast?_append, Option.mem_def.1 hc]
  rfl

theorem trimmed_trim (t : Text) : t.trim.Trimmed :=
  ⟨(opensPlain_dropWhile t).of_start (List.rdropWhile_prefix _ _), endsPlain_dropEndWhile _⟩

theorem OpensPlain.dropWhile_eq {t : Text} (h : t.OpensPlain) : t.dropWhile isBlank = t := by
  cases t with
  | nil => rfl
  | cons c t => exact List.dropWhile_cons_of_neg (by simp [h c rfl])

theorem EndsPlain.dropEndWhile_eq {t : Text} (h : t.EndsPlain) : dropEndWhile isBlank t = t := by
  rw [dropEndWhile_eq_rdropWhile, List.rdropWhile_eq_self_iff]
  intro hne
  simp [h _ (List.getLast?_eq_getLast_of_ne_nil hne)]

theorem Trimmed.trim_eq {t : Text} (h : t.Trimmed) : t.trim = t := by
  rw [trim, h.1.dropWhile_eq, h.2.dropEndWhile_eq]

theorem trim_trim (t : Text) : t.trim.trim = t.trim := (trimmed_trim t).trim_eq

theorem EndsPlain.allBlank_eq_false {t : Text} (h : t.EndsPlain) (hne : t ≠ []) : t.allBlank = false := by
  rw [allBlank, List.all_eq_false]
  exact ⟨t.getLast hne, List.getLast_mem hne, by simp [h _ (List.getLast?_eq_getLast_of_ne_nil hne)]⟩

theorem trim_infix (t : Text) : t.trim <:+: t :=
  (List.rdropWhile_prefix _ _).isInfix.trans (List.dropWhile_suffix _).isInfix

theorem trim_eq_nil_iff {t : Text} : t.trim = [] ↔ t.allBlank = true := by
  rw [trim, dropEndWhile_eq_rdropWhile, List.rdropWhile_eq_nil_iff, allBlank, List.all_eq_true]
  constructor
  · intro h
    have hopens := opensPlain_dropWhile t
    cases hdrop : t.dropWhile isBlank with
    | nil => exact List.dropWhile_eq_nil_iff.1 hdrop
    | cons c r =>
      rw [hdrop] at h hopens
      have hblank := h c List.mem_cons_self
      rw [hopens c rfl] at hblank
      cases hblank
  · intro h c hc
    exact h c ((List.dropWhile_sublist _).subset hc)

theorem trim_ne_nil_iff {t : Text} : t.trim ≠ [] ↔ t.allBlank = false := by
  rw [ne_eq, trim_eq_nil_iff, Bool.not_eq_true]

theorem allBlank_trim_iff {t : Text} : t.trim.allBlank = true ↔ t.trim = [] := by
  rw [← trim_eq_nil_iff, trim_trim]

theorem EndsPlain.trim_suffix {t : Text} (h : t.EndsPlain) : t.trim <:+ t := by
  have hs := List.dropWhile_suffix (l := t) isBlank
  rw [trim, (h.of_end hs).dropEndWhile_eq]
  exact hs

end Text

theorem dropHead_suffix (head t : Text) : dropHead head t <:+ t := by
  unfold dropHead
  split
  · exact List.drop_suffix _ _
  · exact List.suffix_refl _

theorem normalBlock_suffix (name : Text) : normalBlock name <:+ name.trim := dropHead_suffix _ _

theorem normalBlock_trim (name : Text) : normalBlock name.trim = normalBlock name := by
  rw [normalBlock, Text.trim_trim, normalBlock]

theorem endsPlain_normalBlock (name : Text) : (normalBlock name).EndsPlain :=
  (Text.trimmed_trim name).2.of_end (normalBlock_suffix name)

theorem dropHead_eq_self_iff {head t : Text} (hne : head ≠ []) : dropHead head t = t ↔ ¬ head <+: t := by
  unfold dropHead
  split
  · rename_i h
    have hle := (List.isPrefixOf_iff_prefix.1 h).length_le
    have hpos := List.length_pos_of_ne_nil hne
    refine iff_of_false (fun heq => ?_) (fun hn => hn (List.isPrefixOf_iff_prefix.1 h))
    have := congrArg List.length heq
    rw [List.length_drop] at this
    omega
  · rename_i h
    exact iff_of_true rfl (fun hp => h (List.isPrefixOf_iff_prefix.2 hp))

/-- **A block's normal form is its own** exactly when it opens neither with white space nor with the namespace. -/
theorem normalBlock_eq_self_iff {b : Text} (hb : b.EndsPlain) :
    normalBlock b = b ↔ b.OpensPlain ∧ ¬ blockNamespace <+: b := by
  constructor
  · intro h
    have hs := normalBlock_suffix b
    rw [h] at hs
    have ht : b.trim = b := hb.trim_suffix.eq_of_length_le hs.length_le
    refine ⟨ht ▸ (Text.trimmed_trim b).1, ?_⟩
    rwa [normalBlock, ht, dropHead_eq_self_iff (by decide)] at h
  · rintro ⟨ho, hn⟩
    rw [normalBlock, Text.Trimmed.trim_eq ⟨ho, hb⟩]
    exact (dropHead_eq_self_iff (by decide)).2 hn

end CommandComposer
