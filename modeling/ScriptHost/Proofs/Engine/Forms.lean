import ScriptHost.Cache.Script
import ScriptHost.Proofs.Engine.Keys
import ScriptHost.Proofs.Text.Trim
import ScriptHost.Sample.Scene

/-! # The forms of keys

A declared extension or mime type is trimmed, loses the dots in front and gets lower-case letters,
each once and in this order. What comes out is normal (`Association.IsNormal`) but for one thing:
white space may have been hidden behind the dots, and then the form begins with it
(`beginsBlank_form_iff`). A text is its own form just if it is normal (`form?_eq_self_iff`), so
normalizing a list again changes nothing if and only if no text in it hides white space. -/

namespace ScriptHost

/-! ## White space at the ends -/

namespace Text

def BeginsBlank (s : String) : Prop :=
  ∃ c, s.toList.head? = some c ∧ isSpace c = true

def EndsBlank (s : String) : Prop :=
  ∃ c, s.toList.getLast? = some c ∧ isSpace c = true

theorem not_isSpace_of_printable {c : Char} (hlow : 32 < c.toNat) (hhigh : c.toNat < 127) :
    isSpace c = false := by
  simp only [isSpace, Bool.or_eq_false_iff, Bool.and_eq_false_iff, beq_eq_false_iff_ne,
    decide_eq_false_iff_not]
  omega

theorem isSpace_toLower (c : Char) : isSpace c.toLower = isSpace c := by
  have hlower := toNat_toLower c
  split at hlower
  · rw [not_isSpace_of_printable (by omega) (by omega),
      not_isSpace_of_printable (by omega) (by omega)]
  · rw [Char.toNat_inj.mp hlower]

end Text

namespace Association

open Text (BeginsBlank EndsBlank)

/-! ## Forms -/

/-- What is left of a declared text without white space at the ends and then without dots in front.
-/
def stripped (declared : String) : List Char :=
  (Text.trimChars declared.toList).dropWhile (· == '.')

theorem form?_eq_some_iff {declared form : String} : form? declared = some form ↔
    stripped declared ≠ [] ∧ form.toList = (stripped declared).map Char.toLower := by
  have hform : form.toList = (stripped declared).map Char.toLower ↔
      Text.lower (String.ofList (stripped declared)) = form := by
    rw [← String.toList_inj, Text.toList_lower, String.toList_ofList, eq_comm]
  have hempty : Text.lower (String.ofList (stripped declared)) = "" ↔ stripped declared = [] := by
    rw [← String.toList_inj, Text.toList_lower, String.toList_ofList]
    simp
  show (if Text.lower (String.ofList (stripped declared)) = "" then none
    else some (Text.lower (String.ofList (stripped declared)))) = some form ↔ _
  by_cases hstripped : stripped declared = []
  · rw [if_pos (hempty.mpr hstripped)]
    simp [hstripped]
  · rw [if_neg (hempty.not.mpr hstripped), hform, Option.some.injEq, and_iff_right hstripped]

/-- The dots in front of a declared text hide white space behind them. -/
def HidesBlank (declared : String) : Prop :=
  ∃ dots c rest, Text.trimChars declared.toList = dots ++ c :: rest ∧ (∀ d ∈ dots, d = '.') ∧
    Text.isSpace c = true

theorem hidesBlank_iff {declared : String} :
    HidesBlank declared ↔ (stripped declared).head?.any Text.isSpace = true := by
  rw [Option.any_eq_true]
  unfold stripped
  constructor
  · rintro ⟨dots, c, rest, htrimmed, hdots, hc⟩
    have hdot : (c == '.') = false := by
      refine beq_eq_false_iff_ne.mpr ?_
      rintro rfl
      exact absurd hc (by decide)
    rw [htrimmed, List.dropWhile_append_of_pos (by simpa using hdots), List.dropWhile_cons, hdot]
    exact ⟨c, rfl, hc⟩
  · rintro ⟨c, hhead, hc⟩
    obtain ⟨rest, hrest⟩ := List.head?_eq_some_iff.mp hhead
    refine ⟨(Text.trimChars declared.toList).takeWhile (· == '.'), c, rest, ?_, ?_, hc⟩
    · rw [← hrest, List.takeWhile_append_dropWhile]
    · intro d hd
      simpa using List.mem_takeWhile_imp hd

instance (declared : String) : Decidable (HidesBlank declared) :=
  decidable_of_iff _ hidesBlank_iff.symm

/-- A key on which no step of normalizing has anything to do. -/
structure IsNormal (key : String) : Prop where
  nonempty : key ≠ ""
  lower : Text.lower key = key
  undotted : key.toList.head? ≠ some '.'
  front : ¬ BeginsBlank key
  back : ¬ EndsBlank key

theorem form_ne_empty {declared form : String} (h : form? declared = some form) : form ≠ "" := by
  obtain ⟨hne, hform⟩ := form?_eq_some_iff.mp h
  rintro rfl
  exact hne (List.map_eq_nil_iff.mp hform.symm)

theorem form_undotted {declared form : String} (h : form? declared = some form) :
    form.toList.head? ≠ some '.' := by
  obtain ⟨-, hform⟩ := form?_eq_some_iff.mp h
  rw [hform, List.head?_map]
  intro hdot
  obtain ⟨c, hc, hlower⟩ := Option.map_eq_some_iff.mp hdot
  have hstays := Text.stays_of_mem_head?_dropWhile hc
  rw [Text.toLower_eq_dot_iff.mp hlower] at hstays
  cases hstays

/-- **A form does not end with white space**, since the end is left alone after trimming. -/
theorem form_back {declared form : String} (h : form? declared = some form) :
    ¬ EndsBlank form := by
  obtain ⟨hne, hform⟩ := form?_eq_some_iff.mp h
  rintro ⟨c, hc, hspace⟩
  rw [hform, List.getLast?_map] at hc
  obtain ⟨d, hd, rfl⟩ := Option.map_eq_some_iff.mp hc
  rw [Text.isSpace_toLower] at hspace
  obtain ⟨dots, hdots⟩ : stripped declared <:+ Text.trimChars declared.toList :=
    List.dropWhile_suffix _
  have hlast : d ∈ (Text.trimChars declared.toList).getLast? := by
    rw [← hdots, List.getLast?_append_of_ne_nil _ hne]
    exact hd
  rw [Text.not_isSpace_of_mem_getLast?_trimChars hlast] at hspace
  cases hspace

/-- **A form begins with white space just if it was hidden behind dots.** -/
theorem beginsBlank_form_iff {declared form : String} (h : form? declared = some form) :
    BeginsBlank form ↔ HidesBlank declared := by
  obtain ⟨-, hform⟩ := form?_eq_some_iff.mp h
  rw [hidesBlank_iff, Option.any_eq_true]
  unfold BeginsBlank
  rw [hform, List.head?_map]
  simp [Text.isSpace_toLower]

theorem isNormal_form_iff {declared form : String} (h : form? declared = some form) :
    IsNormal form ↔ ¬ HidesBlank declared := by
  rw [← beginsBlank_form_iff h]
  exact ⟨IsNormal.front,
    fun hfront => ⟨form_ne_empty h, lower_form h, form_undotted h, hfront, form_back h⟩⟩

theorem HidesBlank.exists_form {declared : String} (h : HidesBlank declared) :
    ∃ form, form? declared = some form := by
  obtain ⟨c, hc, -⟩ := (Option.any_eq_true _ _).mp (hidesBlank_iff.mp h)
  refine ⟨_, form?_eq_some_iff.mpr ⟨?_, (String.toList_ofList).trans rfl⟩⟩
  intro hnil
  rw [hnil] at hc
  cases hc

theorem stripped_of_isNormal {key : String} (h : IsNormal key) : stripped key = key.toList := by
  have hblank : ∀ c, Text.isSpace c ≠ true → Text.isSpace c = false := fun c => by simp
  unfold stripped
  rw [Text.trimChars_eq_self (fun c hc => hblank c fun hs => h.front ⟨c, hc, hs⟩)
    fun c hc => hblank c fun hs => h.back ⟨c, hc, hs⟩]
  refine Text.dropWhile_eq_self fun c hc => beq_eq_false_iff_ne.mpr ?_
  rintro rfl
  exact h.undotted hc

/-- **The normal texts are those that are their own forms.** -/
theorem form?_eq_self_iff {key : String} : form? key = some key ↔ IsNormal key := by
  constructor
  · intro h
    refine (isNormal_form_iff h).mpr fun hhides => ?_
    obtain ⟨c, hc, hspace⟩ := (beginsBlank_form_iff h).mpr hhides
    -- Nothing has been taken off, so the text was trimmed already.
    have hlength := congrArg List.length (form?_eq_some_iff.mp h).2
    rw [List.length_map] at hlength
    have hdots := (List.dropWhile_sublist (l := Text.trimChars key.toList) (· == '.')).length_le
    have htrimmed : Text.trimChars key.toList = key.toList :=
      (Text.trimChars_sublist key.toList).eq_of_length_le (hlength.trans_le hdots)
    rw [← htrimmed] at hc
    rw [Text.not_isSpace_of_mem_head?_trimChars hc] at hspace
    cases hspace
  · intro h
    have hlower := congrArg String.toList h.lower
    rw [Text.toList_lower] at hlower
    refine form?_eq_some_iff.mpr ⟨?_, ?_⟩
    · rw [stripped_of_isNormal h]
      exact fun hnil => h.nonempty (String.toList_inj.mp hnil)
    · rw [stripped_of_isNormal h, hlower]

/-! ## Lists of forms -/

theorem some_of_filterMap_eq_self {f : String → Option String} {l : List String}
    (h : l.filterMap f = l) : ∀ s ∈ l, f s = some s := by
  induction l with
  | nil => simp
  | cons s l ih =>
      cases hs : f s with
      | none =>
          rw [List.filterMap_cons_none hs] at h
          -- Then there is one less than there should be.
          have hlength := List.length_filterMap_le f l
          rw [h, List.length_cons] at hlength
          omega
      | some t =>
          rw [List.filterMap_cons_some hs] at h
          obtain ⟨rfl, hrest⟩ := List.cons.inj h
          exact List.forall_mem_cons.mpr ⟨hs, ih hrest⟩

/-- **Normalizing leaves a list as it is just if its texts are normal and none is repeated.** -/
theorem normalize_eq_self_iff {l : List String} :
    normalize l = l ↔ l.Nodup ∧ ∀ key ∈ l, IsNormal key := by
  constructor
  · intro h
    refine ⟨h ▸ nodup_normalize l, fun key hkey => form?_eq_self_iff.mp ?_⟩
    have hsub : l.Sublist (l.filterMap form?) := by
      have hdups := eraseDups_sublist (l.filterMap form?)
      rwa [← normalize, h] at hdups
    have hforms := hsub.eq_of_length_le (List.length_filterMap_le form? l)
    exact some_of_filterMap_eq_self hforms.symm key hkey
  · rintro ⟨hnodup, hnormal⟩
    have hforms : l.filterMap form? = l := by
      rw [List.filterMap_congr fun key hkey => form?_eq_self_iff.mpr (hnormal key hkey)]
      exact List.filterMap_some
    rw [normalize, hforms, eraseDups_eq_self hnodup]

theorem mem_normalize {declared : List String} {key : String} :
    key ∈ normalize declared ↔ ∃ s ∈ declared, form? s = some key := by
  rw [normalize, List.mem_eraseDups, List.mem_filterMap]

/-- **The keys made of a list are normal just if no text in it hides white space.** -/
theorem normal_normalize_iff (declared : List String) :
    (∀ key ∈ normalize declared, IsNormal key) ↔ ∀ s ∈ declared, ¬ HidesBlank s := by
  constructor
  · intro h s hs hhides
    obtain ⟨form, hform⟩ := hhides.exists_form
    exact (isNormal_form_iff hform).mp (h form (mem_normalize.mpr ⟨s, hs, hform⟩)) hhides
  · intro h key hkey
    obtain ⟨s, hs, hform⟩ := mem_normalize.mp hkey
    exact (isNormal_form_iff hform).mpr (h s hs)

theorem normalize_normalize_iff (declared : List String) :
    normalize (normalize declared) = normalize declared ↔ ∀ s ∈ declared, ¬ HidesBlank s := by
  rw [normalize_eq_self_iff, and_iff_right (nodup_normalize declared), normal_normalize_iff]

end Association

/-! ## The keys of an engine -/

/-- What a registration declares of one kind: what it says itself, or else the factory. -/
def Properties.declared (p : Properties) (f : Factory) : Association → List String
  | .extension => p.extensions.getD f.extensions
  | .name => p.names.getD f.names
  | .mimeType => p.mimeTypes.getD f.mimeTypes

instance (f : Factory) (p : Properties) : Decidable (f.Unfit p) :=
  inferInstanceAs (Decidable (_ ∨ _))

/-- An engine's associations as those of another registration. -/
def Descriptor.properties (d : Descriptor) : Properties where
  rank := d.priority.rank
  names := some d.names
  extensions := some d.extensions
  mimeTypes := some d.mimeTypes
  compatibleLanguages := some d.compatibleLanguages

namespace Descriptor

open Association (IsNormal HidesBlank normalize)

variable {f : Factory} {origin : Origin} {id : Nat} {p : Properties} {d : Descriptor}

/-- What is taken down of an engine that is fit to be registered. -/
def ofDeclared (f : Factory) (origin : Origin) (id : Nat) (p : Properties) : Descriptor where
  factory := f
  engineName := Text.trim f.engineName
  engineVersion := f.engineVersion
  names := p.declared f .name
  extensions := normalize (p.declared f .extension)
  mimeTypes := normalize (p.declared f .mimeType)
  languageName := f.languageName
  languageVersion := f.languageVersion
  compatibleLanguages := p.compatibleLanguages.getD f.compatibleLanguages
  supportsCompilation := f.supportsCompilation
  origin
  priority := ⟨p.rank, id⟩

theorem capture_eq_ok_iff :
    capture f origin id p = .ok d ↔ ¬ f.Unfit p ∧ d = ofDeclared f origin id p := by
  unfold capture Factory.Unfit
  dsimp only
  split
  · next hname => simp [hname]
  · next hname =>
      split
      · next hnone => simp [hnone]
      · next hsome =>
          rw [and_iff_right (not_or.mpr ⟨hname, hsome⟩), Except.ok.injEq, eq_comm]
          rfl

theorem claims_of_capture (h : capture f origin id p = .ok d) {kind : Association}
    (hkind : kind ≠ .name) : d.claims kind = normalize (p.declared f kind) := by
  obtain ⟨-, rfl⟩ := capture_eq_ok_iff.mp h
  cases kind with
  | extension => rfl
  | name => exact absurd rfl hkind
  | mimeType => rfl

/-- The associations of an engine give its factory the same engine again just if normalizing them
changes nothing. -/
theorem capture_again_iff (h : capture f origin id p = .ok d) (origin' : Origin) (id' : Nat) :
    capture f origin' id' d.properties =
        .ok { d with origin := origin', priority := ⟨d.priority.rank, id'⟩ } ↔
      ∀ kind ≠ .name, normalize (d.claims kind) = d.claims kind := by
  constructor
  · intro hagain kind hkind
    have hclaims := claims_of_capture hagain hkind
    cases kind with
    | extension => exact hclaims.symm
    | name => exact absurd rfl hkind
    | mimeType => exact hclaims.symm
  · intro hsame
    have hextensions : normalize d.extensions = d.extensions := hsame .extension (by decide)
    have hmimeTypes : normalize d.mimeTypes = d.mimeTypes := hsame .mimeType (by decide)
    obtain ⟨hfit, rfl⟩ := capture_eq_ok_iff.mp h
    refine capture_eq_ok_iff.mpr ⟨?_, ?_⟩
    · unfold Factory.Unfit properties at *
      simp only [Option.getD_some, hextensions, hmimeTypes]
      exact hfit
    · rw [ofDeclared.eq_def f origin' id']
      exact (congrArg₂ (fun extensions mimeTypes =>
        { ofDeclared f origin id p with
          extensions, mimeTypes, origin := origin', priority := ⟨p.rank, id'⟩ })
        hextensions hmimeTypes).symm

/-- **The extensions and mime types of an engine are normal but for white space that dots have
hidden.** They are not empty, in lower case, without dots in front and white space at the end, and
listed once. They are normal, and normalizing them again changes nothing, if and only if nothing
that was declared hides white space; and if and only if that holds of both kinds, the factory can be
registered with the associations of its engine and has the same engine. A script cache keeps the
additional extensions that it is given in just these forms. -/
theorem normal_unless_hidden (h : capture f origin id p = .ok d) :
    (∀ kind ≠ .name, (d.claims kind).Nodup ∧ ∀ key ∈ d.claims kind,
      key ≠ "" ∧ Text.lower key = key ∧ key.toList.head? ≠ some '.' ∧ ¬ Text.EndsBlank key) ∧
    (∀ kind ≠ .name, (∀ key ∈ d.claims kind, IsNormal key) ↔
      ∀ s ∈ p.declared f kind, ¬ HidesBlank s) ∧
    (∀ kind ≠ .name, normalize (d.claims kind) = d.claims kind ↔
      ∀ s ∈ p.declared f kind, ¬ HidesBlank s) ∧
    (∀ origin' id', capture f origin' id' d.properties =
        .ok { d with origin := origin', priority := ⟨d.priority.rank, id'⟩ } ↔
      ∀ kind ≠ .name, ∀ s ∈ p.declared f kind, ¬ HidesBlank s) ∧
    ∀ capacity declared key,
      key ∈ (ScriptCache.new capacity declared).additional ↔ key ∈ normalize declared := by
  have hagain : ∀ kind ≠ .name, normalize (d.claims kind) = d.claims kind ↔
      ∀ s ∈ p.declared f kind, ¬ HidesBlank s := by
    intro kind hkind
    rw [claims_of_capture h hkind, Association.normalize_normalize_iff]
  refine ⟨fun kind hkind => ?_, fun kind hkind => ?_, hagain, fun origin' id' => ?_, ?_⟩
  · rw [claims_of_capture h hkind]
    refine ⟨Association.nodup_normalize _, fun key hkey => ?_⟩
    obtain ⟨s, -, hform⟩ := Association.mem_normalize.mp hkey
    exact ⟨Association.form_ne_empty hform, Association.lower_form hform,
      Association.form_undotted hform, Association.form_back hform⟩
  · rw [claims_of_capture h hkind, Association.normal_normalize_iff]
  · rw [capture_again_iff h]
    exact forall_congr' fun kind => forall_congr' fun hkind => hagain kind hkind
  · intro capacity declared key
    rw [Association.mem_normalize]
    unfold ScriptCache.new
    rw [NameSet.mem_ofList, List.mem_filterMap]

/-- White space around a text and within it hides nothing. -/
theorem normal_unless_hidden_padded :
    let f := { Sample.plainFactory "a" with extensions := [" .X ", "x", "..Y z"] }
    ∃ d, capture f .platform 1 {} = .ok d ∧ d.extensions = ["x", "y z"] ∧
      (∀ key ∈ d.extensions, IsNormal key) ∧
      capture f .dynamic 2 d.properties =
        .ok { d with origin := .dynamic, priority := ⟨0, 2⟩ } := by
  intro f
  have hshown : ∀ kind ≠ .name, ∀ s ∈ ({} : Properties).declared f kind, ¬ HidesBlank s := by
    intro kind hkind
    cases kind with
    | extension =>
        show ∀ s ∈ [" .X ", "x", "..Y z"], ¬ HidesBlank s
        decide
    | name => exact absurd rfl hkind
    | mimeType => exact List.forall_mem_nil _
  have hfit : ¬ f.Unfit {} := by decide
  have hcapture : capture f .platform 1 {} = .ok (ofDeclared f .platform 1 {}) :=
    capture_eq_ok_iff.mpr ⟨hfit, rfl⟩
  obtain ⟨-, hnormal, -, hagain, -⟩ := normal_unless_hidden hcapture
  exact ⟨_, hcapture, by decide,
    (hnormal .extension (by decide)).mpr (hshown .extension (by decide)),
    (hagain .dynamic 2).mpr hshown⟩

/-- Behind a dot white space stays until the form is normalized once more, and then there may be
nothing left. -/
theorem hidden_blank_stays :
    (∃ d, capture { Sample.plainFactory "a" with extensions := [". x"] } .dynamic 1 {} = .ok d ∧
      d.extensions = [" x"] ∧ normalize d.extensions = ["x"]) ∧
    ∃ d, let f := { Sample.plainFactory "a" with names := [], extensions := [". ."] }
      capture f .dynamic 1 {} = .ok d ∧
      capture f .dynamic 2 d.properties = .error (.noAssociations "a") := by
  refine ⟨⟨_, capture_eq_ok_iff.mpr ⟨by decide, rfl⟩, by decide, by decide⟩,
    ⟨_, capture_eq_ok_iff.mpr ⟨by decide, rfl⟩, ?_⟩⟩
  cbv

end Descriptor

end ScriptHost
