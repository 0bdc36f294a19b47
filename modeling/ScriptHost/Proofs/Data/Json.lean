import Mathlib.Data.List.Basic
import ScriptHost.Data.Json

/-! # What a JSON text is

The compact JSON text of a value, told by its parts. In a string every character stands for itself
except quotes, backslashes and controls (`Data.Escape`); items are separated by commas, and so are
fields, each behind its name and a colon (`Data.IsJson`). Every value has one text of this kind, and
it is the one that is written (`Data.isJson_iff`). How the digits of a number are found is a matter
of its own. -/

namespace ScriptHost.Data

/-! ## Strings -/

/-- How a character stands in a JSON string. -/
inductive Escape : Char → String → Prop
  | plain {c : Char} (hcontrol : 0x20 ≤ c.toNat) (hquote : c ≠ '"') (hbackslash : c ≠ '\\') :
      Escape c (String.singleton c)
  | quote : Escape '"' "\\\""
  | backslash : Escape '\\' "\\\\"
  | lineFeed : Escape '\n' "\\n"
  | carriageReturn : Escape '\r' "\\r"
  | tab : Escape '\t' "\\t"
  | backspace : Escape (Char.ofNat 0x08) "\\b"
  | formFeed : Escape (Char.ofNat 0x0C) "\\f"
  /-- A control without a letter, by four digits in base sixteen. -/
  | control {n : Nat} (hn : n < 0x20) (hletter : n ∉ [0x08, 0x09, 0x0A, 0x0C, 0x0D]) :
      Escape (Char.ofNat n)
        ("\\u00" ++ String.ofList [Nat.digitChar (n / 16), Nat.digitChar (n % 16)])

/-- The controls, one by one. -/
theorem jsonChar_control {n : Nat} (hn : n < 0x20)
    (hletter : n ∉ [0x08, 0x09, 0x0A, 0x0C, 0x0D]) : jsonChar (Char.ofNat n) =
      "\\u00" ++ String.ofList [Nat.digitChar (n / 16), Nat.digitChar (n % 16)] := by
  revert n
  decide +kernel

theorem jsonChar_plain {c : Char} (hcontrol : 0x20 ≤ c.toNat) (hquote : c ≠ '"')
    (hbackslash : c ≠ '\\') : jsonChar c = String.singleton c := by
  have hne : ∀ d : Char, d.toNat < 0x20 → c ≠ d := by
    rintro d hd rfl
    omega
  unfold jsonChar
  rw [if_neg hquote, if_neg hbackslash, if_neg (hne _ (by decide)), if_neg (hne _ (by decide)),
    if_neg (hne _ (by decide)), if_neg (hne _ (by decide)), if_neg (hne _ (by decide)),
    if_neg (by omega), if_neg (by omega)]

/-- **A character is written as it stands in a string.** -/
theorem escape_iff {c : Char} {t : String} : Escape c t ↔ t = jsonChar c := by
  constructor
  · intro h
    cases h with
    | plain hcontrol hquote hbackslash => exact (jsonChar_plain hcontrol hquote hbackslash).symm
    | control hn hletter => exact (jsonChar_control hn hletter).symm
    | _ => decide
  · rintro rfl
    by_cases hcontrol : 0x20 ≤ c.toNat
    · by_cases hquote : c = '"'
      · rw [hquote]
        exact .quote
      by_cases hbackslash : c = '\\'
      · rw [hbackslash]
        exact .backslash
      rw [jsonChar_plain hcontrol hquote hbackslash]
      exact .plain hcontrol hquote hbackslash
    · have hn : c.toNat < 0x20 := by omega
      have hc : c = Char.ofNat c.toNat := (Char.ofNat_toNat c).symm
      generalize c.toNat = n at hn hc
      subst hc
      by_cases hletter : n ∈ [0x08, 0x09, 0x0A, 0x0C, 0x0D]
      · simp only [List.mem_cons, List.not_mem_nil, or_false] at hletter
        rcases hletter with rfl | rfl | rfl | rfl | rfl
        · exact .backspace
        · exact .tab
        · exact .lineFeed
        · exact .formFeed
        · exact .carriageReturn
      · rw [jsonChar_control hn hletter]
        exact .control hn hletter

/-- How characters stand in a JSON string, one behind the other. -/
inductive Escaped : List Char → String → Prop
  | nil : Escaped [] ""
  | cons {c : Char} {cs : List Char} {t u : String} (hc : Escape c t) (hcs : Escaped cs u) :
      Escaped (c :: cs) (t ++ u)

theorem escaped_iff {cs : List Char} {t : String} :
    Escaped cs t ↔ t = String.join (cs.map jsonChar) := by
  induction cs generalizing t with
  | nil =>
      constructor
      · rintro ⟨⟩
        rfl
      · rintro rfl
        exact .nil
  | cons c cs ih =>
      rw [List.map_cons, String.join_cons]
      constructor
      · rintro (_ | ⟨hc, hcs⟩)
        rw [escape_iff.mp hc, ih.mp hcs]
      · rintro rfl
        exact .cons (escape_iff.mpr rfl) (ih.mpr rfl)

/-! ## Values -/

mutual
/-- The compact JSON text of a value. -/
inductive IsJson : Data → String → Prop
  | null : IsJson .null "null"
  | yes : IsJson (.bool true) "true"
  | no : IsJson (.bool false) "false"
  | int (n : Int) : IsJson (.int n) (toString n)
  | real (x : Double) : IsJson (.real x) x.decimal
  | text {s t : String} (h : Escaped s.toList t) : IsJson (.text s) ("\"" ++ t ++ "\"")
  | list {items : List Data} {ts : List String} (h : AreItems items ts) :
      IsJson (.list items) ("[" ++ String.intercalate "," ts ++ "]")
  | record {fields : List (String × Data)} {ts : List String} (h : AreFields fields ts) :
      IsJson (.record fields) ("\x7b" ++ String.intercalate "," ts ++ "\x7d")

inductive AreItems : List Data → List String → Prop
  | nil : AreItems [] []
  | cons {d : Data} {ds : List Data} {t : String} {ts : List String} (h : IsJson d t)
      (hs : AreItems ds ts) : AreItems (d :: ds) (t :: ts)

inductive AreFields : List (String × Data) → List String → Prop
  | nil : AreFields [] []
  | cons {name : String} {d : Data} {fs : List (String × Data)} {n t : String} {ts : List String}
      (hname : Escaped name.toList n) (h : IsJson d t) (hs : AreFields fs ts) :
      AreFields ((name, d) :: fs) (("\"" ++ n ++ "\"" ++ ":" ++ t) :: ts)
end

mutual
/-- **A value is written as its JSON text**, and there is no other. -/
theorem isJson_iff : ∀ {d : Data} {t : String}, IsJson d t ↔ t = d.json
  | .null, t => ⟨fun h => by cases h; rfl, fun h => h ▸ .null⟩
  | .bool true, t => ⟨fun h => by cases h; rfl, fun h => h ▸ .yes⟩
  | .bool false, t => ⟨fun h => by cases h; rfl, fun h => h ▸ .no⟩
  | .int n, t => ⟨fun h => by cases h; rfl, fun h => h ▸ .int n⟩
  | .real x, t => ⟨fun h => by cases h; rfl, fun h => h ▸ .real x⟩
  | .text s, t => by
    constructor
    · intro h
      cases h with
      | text h =>
          rw [escaped_iff.mp h]
          rfl
    · rintro rfl
      exact .text (escaped_iff.mpr rfl)
  | .list items, t => by
    constructor
    · intro h
      cases h with
      | list h =>
          rw [areItems_iff.mp h]
          rfl
    · rintro rfl
      exact .list (areItems_iff.mpr rfl)
  | .record fields, t => by
    constructor
    · intro h
      cases h with
      | record h =>
          rw [areFields_iff.mp h]
          rfl
    · rintro rfl
      exact .record (areFields_iff.mpr rfl)

theorem areItems_iff : ∀ {ds : List Data} {ts : List String}, AreItems ds ts ↔ ts = jsonItems ds
  | [], ts => ⟨fun h => by cases h; rfl, fun h => h ▸ .nil⟩
  | d :: ds, ts => by
    constructor
    · rintro (_ | ⟨h, hs⟩)
      rw [isJson_iff.mp h, areItems_iff.mp hs]
      rfl
    · rintro rfl
      exact .cons (isJson_iff.mpr rfl) (areItems_iff.mpr rfl)

theorem areFields_iff : ∀ {fs : List (String × Data)} {ts : List String},
    AreFields fs ts ↔ ts = jsonFields fs
  | [], ts => ⟨fun h => by cases h; rfl, fun h => h ▸ .nil⟩
  | (name, d) :: fs, ts => by
    constructor
    · rintro (_ | ⟨hname, h, hs⟩)
      rw [escaped_iff.mp hname, isJson_iff.mp h, areFields_iff.mp hs]
      rfl
    · rintro rfl
      exact .cons (escaped_iff.mpr rfl) (isJson_iff.mpr rfl) (areFields_iff.mpr rfl)
end

end ScriptHost.Data
