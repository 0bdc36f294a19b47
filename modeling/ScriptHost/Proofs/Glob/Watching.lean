import ScriptHost.Proofs.Engine.Precedence
import ScriptHost.Proofs.Glob.Suffix
import ScriptHost.Proofs.Text.Letters

/-! # Which paths are watched

A watch set of plain extensions has one glob for each of them, in their order, and selects the paths
that end in a dot and one of them (`WatchSet.selects_suffixes`). Globs look at bytes, and as text
that means the same (`Glob.endsIn_iff`). A script whose extension an engine is found by, in whatever
case it is written, is selected by every set that has the extensions of that engine. -/

namespace ScriptHost

namespace Glob

/-! ## Bytes and text -/

/-- Folding has nothing to change in lower case. -/
theorem foldByte_toLower {c : Char} {b : UInt8} (hb : b ∈ String.utf8EncodeChar c.toLower) :
    foldByte b = b := by
  unfold foldByte
  split
  · next h =>
      have hge : 65 ≤ b.toNat := UInt8.le_iff_toNat_le.mp h.1
      have hle : b.toNat ≤ 90 := UInt8.le_iff_toNat_le.mp h.2
      have hlow : b < 128 := UInt8.lt_iff_toNat_lt.mpr (Nat.lt_of_le_of_lt hle (by decide))
      obtain ⟨-, hchar⟩ := Text.utf8EncodeChar_of_low hb hlow
      exact absurd ⟨hchar ▸ hge, hchar ▸ hle⟩ (Text.toLower_not_upper c)
  · rfl

/-- **Folding the bytes of a text is lower-casing the text.** -/
theorem fold_encode (s : String) :
    (Text.encode s).map foldByte = Text.encode (Text.lower s) := by
  rw [← fold_lower]
  refine (List.map_congr_left ?_).trans (List.map_id _)
  intro b hb
  unfold Text.encode at hb
  rw [Text.toList_lower, List.flatMap_map] at hb
  obtain ⟨c, -, hb⟩ := List.mem_flatMap.mp hb
  exact foldByte_toLower hb

/-- **What it is to end in an extension**: to go on behind a dot with that extension, in whatever
case its ASCII letters are written. -/
theorem endsIn_iff {path e : String} :
    EndsIn path e ↔
      ∃ front tail, path = front ++ "." ++ tail ∧ Text.lower tail = Text.lower e := by
  have hdotted : (Text.lower ("." ++ e)).toList = '.' :: (Text.lower e).toList := by
    rw [Text.toList_lower, Text.toList_lower, String.toList_append, List.map_append]
    rfl
  unfold EndsIn
  rw [fold_encode, fold_encode]
  unfold Text.encode
  rw [hdotted]
  constructor
  · intro h
    obtain ⟨front, hfront⟩ := Text.suffix_of_utf8 h
    rw [Text.toList_lower path] at hfront
    obtain ⟨before, rest, hpath, -, hrest⟩ := List.map_eq_append_iff.mp hfront.symm
    obtain ⟨c, tail, rfl, hc, htail⟩ := List.map_eq_cons_iff.mp hrest
    rw [Text.toLower_eq_dot_iff.mp hc] at hpath
    refine ⟨String.ofList before, String.ofList tail, ?_, ?_⟩
    · rw [← String.toList_inj, hpath]
      simp
    · rw [← String.toList_inj, Text.toList_lower, String.toList_ofList, htail]
  · rintro ⟨front, tail, rfl, htail⟩
    rw [← htail]
    refine ⟨(Text.lower front).toList.flatMap String.utf8EncodeChar, ?_⟩
    rw [← List.flatMap_append]
    simp

end Glob

/-- An engine that is found by an extension claims it in the form in which it is looked up. -/
theorem Snapshot.mem_extensions_of_byExtension? {generation : Nat} {ds : List Descriptor}
    {x : String} {d : Descriptor} (h : (build generation ds).byExtension? x = some d) :
    Association.extension.lookupForm x ∈ d.extensions := by
  unfold byExtension? at h
  rw [owner?_build] at h
  have hclaims := List.find?_some h
  exact List.contains_iff_mem.mp hclaims

namespace WatchSet

/-! ## The globs of a set -/

theorem glob_lt {a b : String} (h : a < b) : glob a < glob b := by
  rw [String.lt_iff] at h ⊢
  unfold glob
  rw [String.toList_append, String.toList_append]
  exact List.append_left_lt h

/-- Plain extensions have one glob each, in their order. -/
theorem patterns_eq {w : WatchSet} (h : ∀ e ∈ w.extensions, Glob.IsPlain e) :
    w.patterns = w.extensions.names.map glob ∧ w.patterns.Pairwise (· < ·) := by
  have hall : w.patterns = w.extensions.names.map glob := by
    unfold patterns
    rw [List.filter_eq_self]
    intro g hg
    obtain ⟨e, he, rfl⟩ := List.mem_map.mp hg
    rw [Glob.tokens?_glob (h e he)]
    rfl
  refine ⟨hall, ?_⟩
  rw [hall, List.pairwise_map]
  exact w.extensions.increasing.imp glob_lt

/-- **A set of plain extensions selects just the paths that end in one of them.** -/
theorem selects_suffixes {w : WatchSet} (h : ∀ e ∈ w.extensions, Glob.IsPlain e) :
    w.patterns = w.extensions.names.map glob ∧ w.patterns.Pairwise (· < ·) ∧
      (∀ path, w.selects path = true ↔ ∃ e ∈ w.extensions, Glob.EndsIn path e) ∧
      (∀ path, w.selects path = true ↔ ∃ e ∈ w.extensions, ∃ front tail,
        path = front ++ "." ++ tail ∧ Text.lower tail = Text.lower e) ∧
      (∀ path x, Path.extension? path = some x →
        Association.extension.lookupForm x ∈ w.extensions → w.selects path = true) ∧
      ∀ (generation : Nat) (ds : List Descriptor) (path x : String) (d : Descriptor),
        Path.extension? path = some x →
        (Snapshot.build generation ds).byExtension? x = some d →
        (∀ e ∈ d.extensions, e ∈ w.extensions) → w.selects path = true := by
  obtain ⟨hpatterns, hsorted⟩ := patterns_eq h
  have hown : ∀ path x, Path.extension? path = some x →
      Association.extension.lookupForm x ∈ w.extensions → w.selects path = true := by
    intro path x hx hmem
    exact selects_of_extension (isShallow_of_isPlain h) hx hmem (h _ hmem)
  refine ⟨hpatterns, hsorted, selects_iff h, ?_, hown, ?_⟩
  · intro path
    simp only [selects_iff h, Glob.endsIn_iff]
  · intro generation ds path x d hx hd hclaims
    exact hown path x hx (hclaims _ (Snapshot.mem_extensions_of_byExtension? hd))

/-- Behind a line end, in another case, and with a letter beyond ASCII, whose case counts. -/
theorem selects_suffixes_accented :
    let w : WatchSet := ⟨.ofList ["é", "x"]⟩
    (∀ e ∈ w.extensions, Glob.IsPlain e) ∧ w.patterns = ["**/*.x", "**/*.é"] ∧
      w.selects "/a\nb/.X" = true ∧ w.selects "c.é" = true ∧ w.selects "c.É" = false := by
  intro w
  have hmem : ∀ e, e ∈ w.extensions ↔ e = "é" ∨ e = "x" := by
    intro e
    simp [w]
  have hplain : ∀ e ∈ w.extensions, Glob.IsPlain e := by
    intro e he
    rcases (hmem e).mp he with rfl | rfl
    · simp [Glob.IsPlain, Glob.isMeta]
    · simp [Glob.IsPlain, Glob.isMeta]
  obtain ⟨hpatterns, -, hbytes, htext, -, -⟩ := selects_suffixes hplain
  refine ⟨hplain, hpatterns.trans (by cbv), ?_, ?_, ?_⟩
  · exact (htext _).mpr ⟨"x", by simp [hmem], "/a\nb/", "X", by decide, by decide⟩
  · exact (htext _).mpr ⟨"é", by simp [hmem], "c", "é", by decide, rfl⟩
  · rw [Bool.eq_false_iff]
    intro hselects
    obtain ⟨e, he, hends⟩ := (hbytes _).mp hselects
    unfold Glob.EndsIn at hends
    rcases (hmem e).mp he with rfl | rfl <;> revert hends <;> decide

end WatchSet

end ScriptHost
