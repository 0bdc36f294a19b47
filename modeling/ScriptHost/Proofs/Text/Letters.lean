import ScriptHost.Text.Ascii
import ScriptHost.Text.Utf8

/-! # Letters and bytes

Lower-casing moves the upper-case ASCII letters up by 32 and leaves all other characters alone
(`toNat_toLower`), so a text keeps its length in bytes. `EqualFold` is equality of names that may be
missing, but for the case of their letters. A byte below 128 stands for a character by
itself wherever it is met in UTF-8, and so a dot is never found within another character
(`suffix_of_utf8`). -/

namespace ScriptHost.Text

/-! ## Lower case -/

theorem toNat_toLower (c : Char) :
    c.toLower.toNat = if 65 ≤ c.toNat ∧ c.toNat ≤ 90 then c.toNat + 32 else c.toNat := by
  unfold Char.toLower
  split
  · next h =>
      have hge : 65 ≤ c.toNat := UInt32.le_iff_toNat_le.mp h.1
      have hle : c.toNat ≤ 90 := UInt32.le_iff_toNat_le.mp h.2
      rw [if_pos ⟨hge, hle⟩]
      show (c.val + 32).toNat = c.val.toNat + 32
      rw [UInt32.toNat_add]
      apply Nat.mod_eq_of_lt
      show c.toNat + 32 < 2 ^ 32
      omega
  · next h =>
      rw [if_neg]
      rintro ⟨hge, hle⟩
      exact h ⟨UInt32.le_iff_toNat_le.mpr hge, UInt32.le_iff_toNat_le.mpr hle⟩

theorem toLower_not_upper (c : Char) : ¬ (65 ≤ c.toLower.toNat ∧ c.toLower.toNat ≤ 90) := by
  rw [toNat_toLower]
  split <;> omega

theorem toLower_toLower (c : Char) : c.toLower.toLower = c.toLower := by
  rw [← Char.toNat_inj, toNat_toLower c.toLower, if_neg (toLower_not_upper c)]

@[simp] theorem lower_lower (s : String) : lower (lower s) = lower s := by
  unfold lower
  rw [String.toList_ofList, List.map_map]
  exact congrArg String.ofList (List.map_congr_left fun c _ => toLower_toLower c)

theorem toLower_eq_dot_iff {c : Char} : c.toLower = '.' ↔ c = '.' := by
  have hdot : '.'.toNat = 46 := rfl
  rw [← Char.toNat_inj, ← Char.toNat_inj, toNat_toLower, hdot]
  split
  · constructor
    · intro h
      omega
    · intro h
      omega
  · rfl

theorem utf8Size_toLower (c : Char) : c.toLower.utf8Size = c.utf8Size := by
  have hlow : ∀ d : Char, d.toNat ≤ 127 → d.utf8Size = 1 := fun d hd =>
    Char.utf8Size_eq_one_iff.mpr (UInt32.le_iff_toNat_le.mpr hd)
  by_cases h : 65 ≤ c.toNat ∧ c.toNat ≤ 90
  · have hmoved : c.toLower.toNat = c.toNat + 32 := by rw [toNat_toLower, if_pos h]
    rw [hlow c (by omega), hlow c.toLower (by omega)]
  · have hsame : c.toLower.toNat = c.toNat := by rw [toNat_toLower, if_neg h]
    rw [Char.toNat_inj.mp hsame]

/-- Lower-casing a text keeps its length in bytes. -/
theorem utf8ByteSize_lower (s : String) : (lower s).utf8ByteSize = s.utf8ByteSize := by
  have hchars : ∀ cs : List Char, (String.ofList (cs.map Char.toLower)).utf8ByteSize =
      (String.ofList cs).utf8ByteSize := by
    intro cs
    induction cs with
    | nil => rfl
    | cons c cs ih =>
        rw [List.map_cons, String.ofList_cons, String.ofList_cons, String.utf8ByteSize_append,
          String.utf8ByteSize_append, ih, String.utf8ByteSize_singleton,
          String.utf8ByteSize_singleton, utf8Size_toLower]
  unfold lower
  rw [hchars, String.ofList_toList]

/-! ## Equality but for case -/

/-- Two texts differ in nothing but the case of their ASCII letters, or both are missing. -/
def EqualFold (a b : Option String) : Prop :=
  a.map lower = b.map lower

instance (a b : Option String) : Decidable (EqualFold a b) :=
  inferInstanceAs (Decidable (a.map lower = b.map lower))

theorem EqualFold.symm {a b : Option String} (h : EqualFold a b) : EqualFold b a :=
  Eq.symm h

theorem equalFold_none_iff {b : Option String} : EqualFold none b ↔ b = none := by
  cases b <;> simp [EqualFold]

theorem equalFold_some_iff {x : String} {b : Option String} :
    EqualFold (some x) b ↔ ∃ y, b = some y ∧ lower x = lower y := by
  cases b <;> simp [EqualFold]

/-- Texts that are equal to the same texts are equal. -/
theorem equalFold_of_forall {a b : Option String}
    (h : ∀ x, EqualFold a (some x) ↔ EqualFold b (some x)) : EqualFold a b := by
  cases a with
  | some x => exact ((h x).mp rfl).symm
  | none =>
      cases b with
      | some x => exact (h x).mpr rfl
      | none => rfl

/-! ## Bytes of characters -/

/-- A byte below 128 stands for a character by itself. -/
theorem utf8EncodeChar_of_low {c : Char} {b : UInt8} (hb : b ∈ String.utf8EncodeChar c)
    (hlow : b < 128) : String.utf8EncodeChar c = [b] ∧ c.toNat = b.toNat := by
  have hless : b.toNat < 128 := UInt8.lt_iff_toNat_lt.mp hlow
  -- Every byte of a longer sequence has its highest bit set.
  have hhigh : ∀ n, 128 ≤ n → n < 256 → b ≠ UInt8.ofNat n := by
    rintro n hge hlt rfl
    rw [UInt8.toNat_ofNat'] at hless
    omega
  unfold String.utf8EncodeChar at hb ⊢
  dsimp only at hb ⊢
  split at hb
  · next hascii =>
      rw [if_pos hascii, List.mem_singleton.mp hb, UInt8.toNat_ofNat']
      exact ⟨rfl, (Nat.mod_eq_of_lt (Nat.lt_of_le_of_lt hascii (by decide))).symm⟩
  · exfalso
    split at hb
    · simp only [List.mem_cons, List.not_mem_nil, or_false] at hb
      rcases hb with hb | hb <;> exact hhigh _ (by omega) (by omega) hb
    · split at hb
      · simp only [List.mem_cons, List.not_mem_nil, or_false] at hb
        rcases hb with hb | hb | hb <;> exact hhigh _ (by omega) (by omega) hb
      · simp only [List.mem_cons, List.not_mem_nil, or_false] at hb
        rcases hb with hb | hb | hb | hb <;> exact hhigh _ (by omega) (by omega) hb

/-- Texts of the same bytes are the same. -/
theorem eq_of_utf8 {cs ds : List Char}
    (h : cs.flatMap String.utf8EncodeChar = ds.flatMap String.utf8EncodeChar) : cs = ds := by
  have hbytes : cs.utf8Encode = ds.utf8Encode := by
    unfold List.utf8Encode
    rw [h]
  rw [← String.ofList_inj, ← String.toByteArray_inj]
  exact hbytes

/-- **Where bytes end in those of a dot and a text, the characters do.** The induction is on the
characters before; a dot within the bytes of one of them is that character. -/
theorem suffix_of_utf8 {cs ds : List Char}
    (h : ('.' :: ds).flatMap String.utf8EncodeChar <:+ cs.flatMap String.utf8EncodeChar) :
    '.' :: ds <:+ cs := by
  have hdot : String.utf8EncodeChar '.' = [46] := by decide
  induction cs with
  | nil =>
      rw [List.flatMap_nil, List.suffix_nil, List.flatMap_cons, hdot] at h
      cases h
  | cons c cs ih =>
      obtain ⟨before, hbefore⟩ := h
      rw [List.flatMap_cons (x := c)] at hbefore
      have hlater : ∀ more, cs.flatMap String.utf8EncodeChar =
          more ++ ('.' :: ds).flatMap String.utf8EncodeChar → '.' :: ds <:+ c :: cs := by
        intro more hmore
        exact (ih ⟨more, hmore.symm⟩).trans (List.suffix_cons c cs)
      rcases List.append_eq_append_iff.mp hbefore with ⟨within, hc, hrest⟩ | ⟨more, -, hrest⟩
      · cases within with
        | nil => exact hlater [] hrest.symm
        | cons b within =>
            have hb : b = 46 := by
              rw [List.flatMap_cons, hdot, List.singleton_append, List.cons_append] at hrest
              exact (List.cons.inj hrest).1.symm
            have hmem : b ∈ String.utf8EncodeChar c := by
              rw [hc]
              exact List.mem_append_right _ List.mem_cons_self
            obtain ⟨hchar, -⟩ := utf8EncodeChar_of_low hmem (by rw [hb]; decide)
            -- The dot is all there is to the character, so nothing stands before it.
            rw [hchar] at hc
            have hnil : before = [] := by
              cases before with
              | nil => rfl
              | cons x xs => simp at hc
            rw [hnil, List.nil_append, ← List.flatMap_cons] at hbefore
            exact (eq_of_utf8 hbefore) ▸ List.suffix_refl ('.' :: ds)
      · exact hlater more hrest

end ScriptHost.Text
