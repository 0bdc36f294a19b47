import ScriptHost.Text.Utf8

/-!
# Patterns of bytes

What a glob asks of a path, byte by byte. `Matches` says which texts a pattern describes, and
`acceptsThen` tries every way to continue. `accepts` decides the same with one verdict for each end
of the path, so its work grows only with the product of the lengths of pattern and path. The main
statement, `accepts_iff`, is that it decides `Matches`.
-/

namespace ScriptHost

inductive Pattern where
  /-- The empty text. -/
  | nothing
  /-- One byte that passes a test. -/
  | one (allowed : UInt8 → Bool)
  /-- Any bytes. -/
  | many
  | seq (first second : Pattern)
  | either (left right : Pattern)

namespace Pattern

/-- Whether some end of the bytes, the whole and the empty one included, passes a test. -/
def anyTail (k : Bytes → Bool) : Bytes → Bool
  | [] => k []
  | b :: bs => k (b :: bs) || anyTail k bs

/-- Whether the bytes begin with a text of the pattern such that `k` accepts the rest. -/
def acceptsThen : Pattern → (Bytes → Bool) → Bytes → Bool
  | nothing, k, bs => k bs
  | one _, _, [] => false
  | one allowed, k, b :: bs => allowed b && k bs
  | many, k, bs => anyTail k bs
  | seq first second, k, bs => first.acceptsThen (second.acceptsThen k) bs
  | either left right, k, bs => left.acceptsThen k bs || right.acceptsThen k bs

/-! ## One verdict for each end -/

/-- The verdicts of a test on the ends of the bytes, longest first. -/
def table (k : Bytes → Bool) : Bytes → List Bool
  | [] => [k []]
  | b :: bs => k (b :: bs) :: table k bs

/-- An end passes behind one byte if it begins with an allowed one and the next end passes. -/
def shift (allowed : UInt8 → Bool) : Bytes → List Bool → List Bool
  | b :: bs, _ :: ks => (allowed b && ks.headD false) :: shift allowed bs ks
  | _, _ => [false]

/-- An end passes behind any bytes if it or a shorter one passes. -/
def sweep : List Bool → List Bool
  | [] => []
  | k :: ks =>
    let later := sweep ks
    (k || later.headD false) :: later

/-- The verdicts on the ends that begin with a text of the pattern, from those on what follows. -/
def verdicts : Pattern → Bytes → List Bool → List Bool
  | nothing, _, ks => ks
  | one allowed, bs, ks => shift allowed bs ks
  | many, _, ks => sweep ks
  | seq first second, bs, ks => first.verdicts bs (second.verdicts bs ks)
  | either left right, bs, ks =>
    List.zipWith (· || ·) (left.verdicts bs ks) (right.verdicts bs ks)

/-- Whether the bytes as a whole are a text of the pattern. -/
def accepts (p : Pattern) (bs : Bytes) : Bool :=
  (p.verdicts bs (table List.isEmpty bs)).headD false

theorem head?_table (k : Bytes → Bool) (bs : Bytes) : (table k bs).head? = some (k bs) := by
  cases bs <;> rfl

theorem shift_table (allowed : UInt8 → Bool) (k : Bytes → Bool) (bs : Bytes) :
    shift allowed bs (table k bs) = table (acceptsThen (one allowed) k) bs := by
  induction bs with
  | nil => rfl
  | cons b bs ih => simp [table, shift, acceptsThen, ih, head?_table]

theorem sweep_table (k : Bytes → Bool) (bs : Bytes) :
    sweep (table k bs) = table (anyTail k) bs := by
  induction bs with
  | nil => simp [table, sweep, anyTail]
  | cons b bs ih => simp [table, sweep, anyTail, ih, head?_table]

theorem zipWith_table (j k : Bytes → Bool) (bs : Bytes) :
    List.zipWith (· || ·) (table j bs) (table k bs) = table (fun cs => j cs || k cs) bs := by
  induction bs with
  | nil => rfl
  | cons b bs ih => simp [table, ih]

/-- The table holds what trying every way to continue would find. -/
theorem verdicts_table (p : Pattern) (k : Bytes → Bool) (bs : Bytes) :
    p.verdicts bs (table k bs) = table (p.acceptsThen k) bs := by
  induction p generalizing k with
  | nothing => rfl
  | one allowed => exact shift_table allowed k bs
  | many => exact sweep_table k bs
  | seq first second ihf ihs => rw [verdicts, ihs, ihf]; rfl
  | either left right ihl ihr => rw [verdicts, ihl, ihr, zipWith_table]; rfl

/-! ## Meaning -/

/-- The texts of a pattern. -/
inductive Matches : Pattern → Bytes → Prop where
  | nothing : Matches nothing []
  | one {allowed b} (h : allowed b = true) : Matches (one allowed) [b]
  | many (bs : Bytes) : Matches many bs
  | seq {first second bs cs} (h : Matches first bs) (h' : Matches second cs) :
    Matches (seq first second) (bs ++ cs)
  | left {left right bs} (h : Matches left bs) : Matches (either left right) bs
  | right {left right bs} (h : Matches right bs) : Matches (either left right) bs

theorem anyTail_iff {k : Bytes → Bool} {bs : Bytes} :
    anyTail k bs = true ↔ ∃ front rest, bs = front ++ rest ∧ k rest = true := by
  induction bs with
  | nil =>
    simp only [anyTail, List.nil_eq, List.append_eq_nil_iff]
    exact ⟨fun h => ⟨[], [], ⟨rfl, rfl⟩, h⟩, fun ⟨_, _, ⟨_, hr⟩, h⟩ => hr ▸ h⟩
  | cons b bs ih =>
    simp only [anyTail, Bool.or_eq_true, ih]
    constructor
    · rintro (h | ⟨front, rest, rfl, h⟩)
      · exact ⟨[], b :: bs, rfl, h⟩
      · exact ⟨b :: front, rest, rfl, h⟩
    · rintro ⟨front, rest, he, h⟩
      cases front with
      | nil => exact .inl (he ▸ h)
      | cons x front =>
        simp only [List.cons_append, List.cons.injEq] at he
        exact .inr ⟨front, rest, he.2, h⟩

theorem acceptsThen_iff {p : Pattern} {k : Bytes → Bool} {bs : Bytes} :
    p.acceptsThen k bs = true ↔
      ∃ front rest, bs = front ++ rest ∧ p.Matches front ∧ k rest = true := by
  induction p generalizing k bs with
  | nothing =>
    refine ⟨fun h => ⟨[], bs, rfl, .nothing, h⟩, fun ⟨front, rest, he, hm, h⟩ => ?_⟩
    cases hm
    exact he ▸ h
  | one allowed =>
    cases bs with
    | nil =>
      simp only [acceptsThen, Bool.false_eq_true, false_iff]
      rintro ⟨front, rest, he, hm, -⟩
      cases hm
      simp at he
    | cons b bs =>
      simp only [acceptsThen, Bool.and_eq_true]
      refine ⟨fun ⟨h, hk⟩ => ⟨[b], bs, rfl, .one h, hk⟩, fun ⟨front, rest, he, hm, hk⟩ => ?_⟩
      cases hm with
      | one h =>
        simp only [List.cons_append, List.nil_append, List.cons.injEq] at he
        exact ⟨he.1 ▸ h, he.2 ▸ hk⟩
  | many =>
    simp only [acceptsThen, anyTail_iff]
    exact ⟨fun ⟨f, r, h, hk⟩ => ⟨f, r, h, .many f, hk⟩, fun ⟨f, r, h, _, hk⟩ => ⟨f, r, h, hk⟩⟩
  | seq first second ihf ihs =>
    simp only [acceptsThen, ihf, ihs]
    constructor
    · rintro ⟨f, _, rfl, hf, g, r, rfl, hg, hk⟩
      exact ⟨f ++ g, r, by simp, .seq hf hg, hk⟩
    · rintro ⟨front, r, rfl, hm, hk⟩
      cases hm with
      | seq hf hg => exact ⟨_, _, List.append_assoc .., hf, _, r, rfl, hg, hk⟩
  | either left right ihl ihr =>
    simp only [acceptsThen, Bool.or_eq_true, ihl, ihr]
    constructor
    · rintro (⟨f, r, rfl, h, hk⟩ | ⟨f, r, rfl, h, hk⟩)
      · exact ⟨f, r, rfl, .left h, hk⟩
      · exact ⟨f, r, rfl, .right h, hk⟩
    · rintro ⟨f, r, rfl, hm, hk⟩
      cases hm with
      | left h => exact .inl ⟨f, r, rfl, h, hk⟩
      | right h => exact .inr ⟨f, r, rfl, h, hk⟩

/-- A text is accepted exactly if it is one of the pattern. -/
theorem accepts_iff {p : Pattern} {bs : Bytes} : p.accepts bs = true ↔ p.Matches bs := by
  simp only [accepts, verdicts_table, List.headD_eq_head?_getD, head?_table, Option.getD_some,
    acceptsThen_iff, List.isEmpty_iff]
  exact ⟨fun ⟨f, _, he, h, hr⟩ => by simpa [he, hr] using h, fun h => ⟨bs, [], by simp, h, rfl⟩⟩

end Pattern

end ScriptHost
