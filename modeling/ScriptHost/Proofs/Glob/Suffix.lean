import ScriptHost.Path
import ScriptHost.Text.Ascii
import ScriptHost.Watch

/-! # Watching a suffix

The glob of an extension that holds no glob characters selects exactly the paths that end in a dot
and that extension, whatever the case of their ASCII letters: the folders and the stars in front
stand for anything. So a set of such extensions selects the paths that end in one of them, and in
particular every path whose own extension is in the set. -/

namespace ScriptHost

namespace Glob

/-! ## Reading plain text -/

/-- The characters that mean something else in a glob than themselves. -/
def isMeta (c : Char) : Bool :=
  c == '*' || c == '?' || c == '[' || c == ']' || c == '\x7b' || c == '\x7d' || c == '\\'

def IsPlain (text : String) : Prop := ∀ c ∈ text.toList, isMeta c = false

/-- Outside braces plain characters stand for themselves. -/
theorem read_plain {cs : List Char} (h : ∀ c ∈ cs, isMeta c = false) (previous : Option Char)
    (branch : List Token) :
    read .plain previous ⟨branch, []⟩ cs = some (branch.reverse ++ cs.map .literal) := by
  induction cs generalizing previous branch with
  | nil =>
      rw [read]
      simp [Draft.inBraces]
  | cons c cs ih =>
      have hc : isMeta c = false := h c List.mem_cons_self
      have hcs : ∀ x ∈ cs, isMeta x = false := fun x hx => h x (List.mem_cons_of_mem c hx)
      simp only [isMeta, Bool.or_eq_false_iff, beq_eq_false_iff_ne, ne_eq] at hc
      obtain ⟨⟨⟨⟨⟨⟨hstar, hmark⟩, hopen⟩, _⟩, hbrace⟩, hend⟩, hescape⟩ := hc
      have hpush : read .plain (some c) ⟨.literal c :: branch, []⟩ cs =
          some (branch.reverse ++ (c :: cs).map .literal) := by
        rw [ih hcs]
        simp
      unfold read
      simp only [hstar, hmark, hopen, hbrace, hend, hescape, if_false]
      -- A comma ends a branch within braces only.
      split
      · next hcomma => simpa [Draft.comma, Draft.push, hcomma] using hpush
      · exact hpush

/-- Two stars and a slash at the start are folders. -/
theorem read_folders (rest : List Char) :
    read .plain none .start ('*' :: '*' :: '/' :: rest) =
      read .plain (some '/') ⟨[.folders], []⟩ rest := by
  have hstars : Draft.start.stars none ('/' :: rest) = (⟨[.folders], []⟩, rest) := rfl
  rw [read.eq_def]
  simp [hstars]

theorem tokens?_glob {e : String} (h : IsPlain e) :
    tokens? (WatchSet.glob e) =
      some (.folders :: .anyMany :: .literal '.' :: e.toList.map .literal) := by
  have hlist : (WatchSet.glob e).toList = '*' :: '*' :: '/' :: '*' :: '.' :: e.toList := by
    simp [WatchSet.glob]
  have hplain : ∀ c ∈ '.' :: e.toList, isMeta c = false := by
    intro c hc
    rcases List.mem_cons.mp hc with rfl | hc
    · decide
    · exact h c hc
  have hread := read_plain hplain (some '*') [.anyMany, .folders]
  unfold tokens?
  rw [hlist, read_folders, read.eq_def]
  simpa [Draft.push] using hread

/-! ## What plain text stands for -/

theorem matches_bytes_iff {bs xs : Bytes} :
    (bytes bs).Matches xs ↔ xs.map foldByte = bs.map foldByte := by
  induction bs generalizing xs with
  | nil =>
      constructor
      · intro h
        cases h
        rfl
      · intro h
        rw [List.map_nil, List.map_eq_nil_iff] at h
        rw [h]
        exact .nothing
  | cons b bs ih =>
      constructor
      · intro h
        cases h with
        | seq hb hbs =>
            cases hb with
            | one hx =>
                rw [List.map_append, ih.mp hbs]
                simpa using hx
      · intro h
        cases xs with
        | nil => cases h
        | cons x xs =>
            rw [List.map_cons, List.map_cons, List.cons.injEq] at h
            exact .seq (.one (by simpa using h.1)) (ih.mpr h.2)

theorem matches_literals_iff {cs : List Char} {xs : Bytes} :
    (sequence (cs.map .literal)).Matches xs ↔
      xs.map foldByte = (cs.flatMap String.utf8EncodeChar).map foldByte := by
  induction cs generalizing xs with
  | nil =>
      rw [List.flatMap_nil]
      exact @matches_bytes_iff [] xs
  | cons c cs ih =>
      rw [List.flatMap_cons, List.map_append]
      constructor
      · intro h
        cases h with
        | seq hc hcs =>
            rw [List.map_append, matches_bytes_iff.mp hc, ih.mp hcs]
      · intro h
        obtain ⟨front, rest, rfl, hfront, hrest⟩ := List.map_eq_append_iff.mp h
        exact .seq (matches_bytes_iff.mpr hfront) (ih.mpr hrest)

/-- Whether a path ends in a dot and an extension, but for the case of ASCII letters. -/
def EndsIn (path e : String) : Prop :=
  (Text.encode ("." ++ e)).map foldByte <:+ (Text.encode path).map foldByte

/-- **The glob of a plain extension accepts the paths that end in it.** -/
theorem accepts_glob_iff {e : String} (h : IsPlain e) (path : String) :
    accepts (WatchSet.glob e) path = true ↔ EndsIn path e := by
  have hencode : Text.encode ("." ++ e) = ('.' :: e.toList).flatMap String.utf8EncodeChar := by
    simp [Text.encode]
  have hpattern : pattern? (WatchSet.glob e) =
      some (sequence (.folders :: .anyMany :: ('.' :: e.toList).map .literal)) := by
    unfold pattern?
    rw [tokens?_glob h]
    rfl
  unfold accepts EndsIn
  rw [hpattern]
  simp only [Pattern.accepts_iff, hencode]
  generalize Text.encode path = bs
  constructor
  · intro hm
    rw [sequence, sequence] at hm
    cases hm with
    -- Folders and stars in front match any bytes, so only the rest says something of the path.
    | seq _ hm =>
        cases hm with
        | seq _ hliterals =>
            rw [matches_literals_iff] at hliterals
            rw [List.map_append, List.map_append, hliterals]
            exact ⟨_, List.append_assoc ..⟩
  · rintro ⟨front, hfront⟩
    obtain ⟨before, suffix, hsplit, _, hsuffix⟩ := List.map_eq_append_iff.mp hfront.symm
    rw [hsplit]
    show Pattern.Matches _ ([] ++ (before ++ suffix))
    exact .seq (.left (.left .nothing)) (.seq (.many before) (matches_literals_iff.mpr hsuffix))

theorem depth?_glob {e : String} (h : IsPlain e) : depth? (WatchSet.glob e) = some 5 := by
  have hliterals : ∀ cs : List Char, (sequenceNesting (cs.map .literal)).depth = 0 := by
    intro cs
    induction cs with
    | nil => rfl
    | cons c cs ih => simp [sequenceNesting, Token.nesting, Nesting.beside, Nesting.bytes, ih]
  have hdepth : (sequenceNesting (.literal '.' :: e.toList.map .literal)).depth = 0 :=
    hliterals ('.' :: e.toList)
  have hfolders : Token.nesting .folders = ⟨1, 4⟩ := rfl
  have hstar : Token.nesting .anyMany = ⟨1, 1⟩ := rfl
  unfold depth?
  rw [tokens?_glob h, Option.map_some, sequenceNesting, sequenceNesting, hfolders, hstar]
  simp only [Nesting.beside, hdepth]
  decide

/-! ## The case of letters -/

/-- Folding bytes forgets what lower-casing a character changes. -/
theorem fold_toLower (c : Char) :
    (String.utf8EncodeChar c.toLower).map foldByte = (String.utf8EncodeChar c).map foldByte := by
  by_cases h : 65 ≤ c.toNat ∧ c.toNat ≤ 90
  · obtain ⟨n, hn, rfl⟩ : ∃ n, (65 ≤ n ∧ n ≤ 90) ∧ c = Char.ofNat n :=
      ⟨c.toNat, h, (Char.ofNat_toNat c).symm⟩
    have hall : ∀ k < 26, (String.utf8EncodeChar (Char.ofNat (65 + k)).toLower).map foldByte =
        (String.utf8EncodeChar (Char.ofNat (65 + k))).map foldByte := by
      decide
    have := hall (n - 65) (by omega)
    rwa [show 65 + (n - 65) = n by omega] at this
  · have hsame : c.toLower = c := by
      unfold Char.toLower
      rw [dif_neg]
      intro hc
      exact h ⟨UInt32.le_iff_toNat_le.mp hc.1, UInt32.le_iff_toNat_le.mp hc.2⟩
    rw [hsame]

theorem fold_lower (s : String) :
    (Text.encode (Text.lower s)).map foldByte = (Text.encode s).map foldByte := by
  unfold Text.encode
  rw [Text.toList_lower]
  induction s.toList with
  | nil => rfl
  | cons c cs ih =>
      rw [List.map_cons, List.flatMap_cons, List.flatMap_cons, List.map_append, List.map_append, ih,
        fold_toLower]

end Glob

/-! ## Sets of plain extensions -/

/-- What the extension of a path is: what stands behind a dot at its end. -/
theorem Path.eq_of_extension? {path e : String} (h : Path.extension? path = some e) :
    ∃ front, path.toList = front ++ '.' :: e.toList := by
  have hlast : ∃ front, path.toList = front ++ Path.lastSegment path.toList := by
    unfold Path.lastSegment
    cases hs : Path.splitLast? '/' path.toList with
    | none => exact ⟨[], rfl⟩
    | some parts =>
        obtain ⟨above, name⟩ := parts
        refine ⟨above ++ ['/'], ?_⟩
        simpa using (Path.splitLast?_eq_some_iff.mp hs).1
  obtain ⟨front, hfront⟩ := hlast
  unfold Path.extension? at h
  split at h
  · next b bs c ext hs =>
      cases h
      refine ⟨front ++ b :: bs, ?_⟩
      rw [hfront, (Path.splitLast?_eq_some_iff.mp hs).1]
      simp
  · cases h

namespace WatchSet

/-- An extension free of glob characters has its glob among the patterns. -/
theorem glob_mem_patterns {w : WatchSet} {e : String} (he : e ∈ w.extensions)
    (h : Glob.IsPlain e) : glob e ∈ w.patterns := by
  unfold patterns
  rw [List.mem_filter]
  refine ⟨List.mem_map_of_mem he, ?_⟩
  rw [Glob.tokens?_glob h]
  rfl

/-- A set of plain extensions has nothing that nests too deep. -/
theorem isShallow_of_isPlain {w : WatchSet} (h : ∀ e ∈ w.extensions, Glob.IsPlain e) :
    w.isShallow = true := by
  unfold isShallow
  rw [List.all_eq_true]
  intro g hg
  obtain ⟨e, he, rfl⟩ := List.mem_map.mp (List.mem_filter.mp hg).1
  rw [Glob.depth?_glob (h e he)]
  decide

/-- **A set of plain extensions selects the paths that end in one of them.** -/
theorem selects_iff {w : WatchSet} (h : ∀ e ∈ w.extensions, Glob.IsPlain e) (path : String) :
    w.selects path = true ↔ ∃ e ∈ w.extensions, Glob.EndsIn path e := by
  unfold selects
  rw [isShallow_of_isPlain h, Bool.true_and, List.any_eq_true]
  constructor
  · rintro ⟨g, hg, haccepts⟩
    obtain ⟨e, he, rfl⟩ := List.mem_map.mp (List.mem_filter.mp hg).1
    exact ⟨e, he, (Glob.accepts_glob_iff (h e he) path).mp haccepts⟩
  · rintro ⟨e, he, hends⟩
    exact ⟨_, glob_mem_patterns he (h e he), (Glob.accepts_glob_iff (h e he) path).mpr hends⟩

/-- **A path is selected for its own extension**, in whatever case it is written. -/
theorem selects_of_extension {w : WatchSet} {path e : String} (hw : w.isShallow = true)
    (hpath : Path.extension? path = some e) (he : Text.lower e ∈ w.extensions)
    (h : Glob.IsPlain (Text.lower e)) : w.selects path = true := by
  obtain ⟨front, hfront⟩ := Path.eq_of_extension? hpath
  have hencode : ∀ s : String, Text.encode ("." ++ s) = Text.encode "." ++ Text.encode s := by
    intro s
    simp [Text.encode]
  have hends : Glob.EndsIn path (Text.lower e) := by
    unfold Glob.EndsIn
    rw [hencode, List.map_append, Glob.fold_lower, ← List.map_append, ← hencode]
    refine ⟨(front.flatMap String.utf8EncodeChar).map Glob.foldByte, ?_⟩
    rw [← List.map_append]
    simp [Text.encode, hfront]
  unfold selects
  rw [hw, Bool.true_and, List.any_eq_true]
  exact ⟨_, glob_mem_patterns he h, (Glob.accepts_glob_iff h path).mpr hends⟩

end WatchSet

end ScriptHost
