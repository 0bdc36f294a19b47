import Mathlib.Data.List.TakeWhile
import ScriptHost.Text.Space

/-! # Trimming

What trimming takes off both ends of a text is white space (`exists_trimChars`), and white space at
the ends makes no difference to what it leaves. So what has been trimmed stays as it is, and that is
what has no white space at the ends (`trimChars_eq_self`). -/

namespace ScriptHost.Text

/-- Only white space stands in a text. -/
def IsBlank (cs : List Char) : Prop := ∀ c ∈ cs, isSpace c = true

theorem trimStart_append {cs : List Char} (h : IsBlank cs) (rest : List Char) :
    trimStart (cs ++ rest) = trimStart rest := by
  unfold trimStart
  rw [List.dropWhile_append, List.dropWhile_eq_nil_iff.mpr h]
  rfl

theorem trimEnd_append {cs : List Char} (h : IsBlank cs) (rest : List Char) :
    trimEnd (rest ++ cs) = trimEnd rest := by
  have hreverse : IsBlank cs.reverse := fun c hc => h c (List.mem_reverse.mp hc)
  have hdrop := trimStart_append hreverse rest.reverse
  unfold trimStart at hdrop
  unfold trimEnd
  rw [List.reverse_append, hdrop]

/-! White space at the ends makes no difference. -/

theorem trimChars_append_left {before : List Char} (h : IsBlank before) (cs : List Char) :
    trimChars (before ++ cs) = trimChars cs := by
  unfold trimChars
  rw [trimStart_append h]

theorem trimChars_append_right {after : List Char} (h : IsBlank after) (cs : List Char) :
    trimChars (cs ++ after) = trimChars cs := by
  unfold trimChars trimStart
  rw [List.dropWhile_append]
  split
  · next hempty => rw [List.isEmpty_iff.mp hempty, List.dropWhile_eq_nil_iff.mpr h]
  · exact trimEnd_append h _

/-- A text is what trimming leaves, between white space. -/
theorem exists_trimChars (cs : List Char) : ∃ before after, IsBlank before ∧ IsBlank after ∧
    cs = before ++ trimChars cs ++ after := by
  refine ⟨cs.takeWhile isSpace, ((trimStart cs).reverse.takeWhile isSpace).reverse, ?_, ?_, ?_⟩
  · intro c hc
    exact List.mem_takeWhile_imp hc
  · intro c hc
    exact List.mem_takeWhile_imp (List.mem_reverse.mp hc)
  · have hend : trimStart cs = trimEnd (trimStart cs) ++
        ((trimStart cs).reverse.takeWhile isSpace).reverse := by
      unfold trimEnd
      rw [← List.reverse_append, List.takeWhile_append_dropWhile, List.reverse_reverse]
    unfold trimChars
    rw [List.append_assoc, ← hend]
    exact List.takeWhile_append_dropWhile.symm

theorem trimChars_sublist (cs : List Char) : (trimChars cs).Sublist cs := by
  obtain ⟨before, after, -, -, hcs⟩ := exists_trimChars cs
  calc (trimChars cs).Sublist (before ++ trimChars cs) := List.sublist_append_right _ _
    List.Sublist _ (before ++ trimChars cs ++ after) := List.sublist_append_left _ _
    _ = cs := hcs.symm

/-- **What has been trimmed stays as it is.** -/
theorem trimChars_trimChars (cs : List Char) : trimChars (trimChars cs) = trimChars cs := by
  obtain ⟨before, after, hbefore, hafter, hcs⟩ := exists_trimChars cs
  calc trimChars (trimChars cs)
      = trimChars (before ++ trimChars cs) := (trimChars_append_left hbefore _).symm
    _ = trimChars (before ++ trimChars cs ++ after) := (trimChars_append_right hafter _).symm
    _ = trimChars cs := by rw [← hcs]

/-! ## The ends of what has been trimmed -/

theorem dropWhile_eq_self {p : Char → Bool} {cs : List Char} (h : ∀ c ∈ cs.head?, p c = false) :
    cs.dropWhile p = cs := by
  cases cs with
  | nil => rfl
  | cons c cs => rw [List.dropWhile_cons, h c rfl, if_neg Bool.false_ne_true]

/-- Dropping stops where it has to. -/
theorem stays_of_mem_head?_dropWhile {p : Char → Bool} {cs : List Char} {c : Char}
    (h : c ∈ (cs.dropWhile p).head?) : p c = false := by
  have hhead := List.head?_dropWhile_not p cs
  rw [Option.mem_def.mp h] at hhead
  exact hhead

theorem not_isSpace_of_mem_head?_trimChars {cs : List Char} {c : Char}
    (h : c ∈ (trimChars cs).head?) : isSpace c = false := by
  have hfront : trimChars cs <+: trimStart cs := by
    have hsuffix := List.dropWhile_suffix isSpace (l := (trimStart cs).reverse)
    rwa [← List.reverse_prefix, List.reverse_reverse] at hsuffix
  obtain ⟨after, hafter⟩ := hfront
  have hhead : c ∈ (trimStart cs).head? := by
    rw [← hafter, List.head?_append, Option.mem_def.mp h]
    rfl
  exact stays_of_mem_head?_dropWhile hhead

theorem not_isSpace_of_mem_getLast?_trimChars {cs : List Char} {c : Char}
    (h : c ∈ (trimChars cs).getLast?) : isSpace c = false := by
  unfold trimChars trimEnd at h
  rw [List.getLast?_reverse] at h
  exact stays_of_mem_head?_dropWhile h

/-- **A text without white space at the ends is left as it is.** -/
theorem trimChars_eq_self {cs : List Char} (hfront : ∀ c ∈ cs.head?, isSpace c = false)
    (hback : ∀ c ∈ cs.getLast?, isSpace c = false) : trimChars cs = cs := by
  unfold trimChars trimStart trimEnd
  rw [dropWhile_eq_self hfront, dropWhile_eq_self (by rwa [List.head?_reverse]),
    List.reverse_reverse]

@[simp] theorem trim_trim (s : String) : trim (trim s) = trim s := by
  unfold trim
  rw [String.toList_ofList, trimChars_trimChars]

end ScriptHost.Text
