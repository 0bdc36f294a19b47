/-!
# Ordered maps

A map that remembers the order in which its keys were first inserted. Inserting under a key that is
there keeps its place; erasing a key closes the gap and keeps the order of the others. No key occurs
twice, by construction. The lemmas say what each operation does to `get?` and `keys`.
-/

namespace ScriptHost

structure OrderedMap (κ α : Type) where
  entries : List (κ × α)
  nodup : (entries.map Prod.fst).Nodup

namespace OrderedMap

variable {κ α : Type}

def empty : OrderedMap κ α := ⟨[], .nil⟩

instance : Inhabited (OrderedMap κ α) := ⟨empty⟩

def keys (m : OrderedMap κ α) : List κ :=
  m.entries.map Prod.fst

def size (m : OrderedMap κ α) : Nat :=
  m.entries.length

/-- Keeps the entries that pass a test, in their order. -/
def filter (m : OrderedMap κ α) (p : κ → α → Bool) : OrderedMap κ α where
  entries := m.entries.filter fun e => p e.1 e.2
  nodup := m.nodup.sublist (List.filter_sublist.map _)

/-- Changes every value. -/
def mapValues {β : Type} (m : OrderedMap κ α) (f : α → β) : OrderedMap κ β where
  entries := m.entries.map fun e => (e.1, f e.2)
  nodup := by simpa [Function.comp_def] using m.nodup

/-- Drops the entries inserted first. -/
def dropOldest (m : OrderedMap κ α) (n : Nat) : OrderedMap κ α where
  entries := m.entries.drop n
  nodup := m.nodup.sublist ((List.drop_sublist n m.entries).map _)

theorem ext_entries {m n : OrderedMap κ α} (h : m.entries = n.entries) : m = n := by
  cases m; cases n; simp_all

theorem filter_filter (m : OrderedMap κ α) (p q : κ → α → Bool) :
    (m.filter p).filter q = m.filter fun k v => p k v && q k v := by
  refine ext_entries (List.filter_filter.trans (List.filter_congr fun e _ => ?_))
  exact Bool.and_comm _ _

theorem filter_congr {m : OrderedMap κ α} {p q : κ → α → Bool}
    (h : ∀ e ∈ m.entries, p e.1 e.2 = q e.1 e.2) : m.filter p = m.filter q :=
  ext_entries (List.filter_congr h)

theorem filter_eq_self {m : OrderedMap κ α} {p : κ → α → Bool}
    (h : ∀ e ∈ m.entries, p e.1 e.2 = true) : m.filter p = m :=
  ext_entries (List.filter_eq_self.2 h)

@[simp] theorem keys_empty : (empty : OrderedMap κ α).keys = [] := rfl

theorem keys_nodup (m : OrderedMap κ α) : m.keys.Nodup := m.nodup

variable [DecidableEq κ]

def get? (m : OrderedMap κ α) (key : κ) : Option α :=
  (m.entries.find? fun e => e.1 == key).map Prod.snd

def contains (m : OrderedMap κ α) (key : κ) : Bool :=
  m.keys.contains key

/-- Puts a value where a key stands in a list of entries. -/
def replace (key : κ) (value : α) (entries : List (κ × α)) : List (κ × α) :=
  entries.map fun e => if e.1 = key then (key, value) else e

theorem map_fst_replace (key : κ) (value : α) (entries : List (κ × α)) :
    (replace key value entries).map Prod.fst = entries.map Prod.fst := by
  simp only [replace, List.map_map]
  exact List.map_congr_left fun e _ => by
    by_cases h : e.1 = key <;> simp [h]

def insert (m : OrderedMap κ α) (key : κ) (value : α) : OrderedMap κ α :=
  if h : key ∈ m.keys then
    ⟨replace key value m.entries, by rw [map_fst_replace]; exact m.nodup⟩
  else
    ⟨m.entries ++ [(key, value)], by
      simp only [keys] at h
      simp [List.nodup_append, m.nodup]
      exact fun a b hab he => h (List.mem_map.2 ⟨(a, b), hab, he⟩)⟩

def erase (m : OrderedMap κ α) (key : κ) : OrderedMap κ α :=
  m.filter fun k _ => k != key

/-- Inserts the entries of a list one after the other. -/
def insertAll (m : OrderedMap κ α) (entries : List (κ × α)) : OrderedMap κ α :=
  entries.foldl (fun acc e => acc.insert e.1 e.2) m

def ofList (entries : List (κ × α)) : OrderedMap κ α :=
  empty.insertAll entries

/-! ## Views -/

@[simp] theorem get?_empty (k : κ) : (empty : OrderedMap κ α).get? k = none := rfl

theorem contains_iff {m : OrderedMap κ α} {key : κ} : m.contains key = true ↔ key ∈ m.keys := by
  simp [contains]

theorem get?_eq_none_iff {m : OrderedMap κ α} {key : κ} : m.get? key = none ↔ key ∉ m.keys := by
  simp only [get?, keys, Option.map_eq_none_iff, List.find?_eq_none, List.mem_map]
  grind

theorem isSome_get? {m : OrderedMap κ α} {key : κ} : (m.get? key).isSome ↔ key ∈ m.keys := by
  rw [← Option.not_isNone, Bool.not_eq_true', Bool.eq_false_iff, ne_eq, Option.isNone_iff_eq_none,
    get?_eq_none_iff, Classical.not_not]

theorem find?_replace (key k : κ) (value : α) (entries : List (κ × α)) :
    ((replace key value entries).find? fun e => e.1 == k).map Prod.snd =
      if k = key ∧ key ∈ entries.map Prod.fst then some value
      else (entries.find? fun e => e.1 == k).map Prod.snd := by
  induction entries with
  | nil => simp [replace]
  | cons e es ih =>
    simp only [replace, List.map_cons, List.find?_cons, List.mem_cons] at ih ⊢
    grind

theorem get?_insert (m : OrderedMap κ α) (key k : κ) (value : α) :
    (m.insert key value).get? k = if k = key then some value else m.get? k := by
  unfold insert
  split
  · next h =>
    simp only [get?, keys] at h ⊢
    rw [find?_replace]
    simp [h]
  · next h =>
    simp only [get?, keys] at h ⊢
    rw [List.find?_append]
    by_cases hk : k = key
    · subst hk
      have : m.entries.find? (fun e => e.1 == k) = none := by
        simp only [List.find?_eq_none]
        grind
      simp [this]
    · simp [hk, Ne.symm hk]

theorem keys_erase (m : OrderedMap κ α) (key : κ) :
    (m.erase key).keys = m.keys.filter (· != key) := by
  simp [erase, filter, keys, List.filter_map, Function.comp_def]

theorem get?_filter_key (m : OrderedMap κ α) (p : κ → Bool) (k : κ) :
    (m.filter fun key _ => p key).get? k = if p k then m.get? k else none := by
  simp only [filter, get?, List.find?_filter]
  split
  · next h =>
    congr 2
    funext e
    by_cases he : e.1 = k <;> simp [he, h]
  · next h =>
    simp only [Option.map_eq_none_iff, List.find?_eq_none]
    grind

theorem get?_erase (m : OrderedMap κ α) (key k : κ) :
    (m.erase key).get? k = if k = key then none else m.get? k := by
  rw [erase, get?_filter_key m fun x => x != key]
  by_cases h : k = key <;> simp [h]

theorem get?_insertAll (m : OrderedMap κ α) {entries : List (κ × α)}
    (nodup : (entries.map Prod.fst).Nodup) (k : κ) :
    (m.insertAll entries).get? k =
      ((entries.find? fun e => e.1 == k).map Prod.snd).or (m.get? k) := by
  induction entries generalizing m with
  | nil => rfl
  | cons e es ih =>
    obtain ⟨he, hes⟩ := List.nodup_cons.1 nodup
    have hstep : (m.insertAll (e :: es)).get? k = _ := ih (m.insert e.1 e.2) hes
    rw [hstep, get?_insert]
    by_cases hk : e.1 = k
    · subst hk
      have hnone : es.find? (fun x => x.1 == e.1) = none := by
        refine List.find?_eq_none.2 fun x hx hxe => he (List.mem_map.2 ⟨x, hx, ?_⟩)
        exact beq_iff_eq.1 hxe
      simp [hnone]
    · simp [hk, Ne.symm hk]

theorem get?_insertAll_of_not_mem (m : OrderedMap κ α) {entries : List (κ × α)}
    (nodup : (entries.map Prod.fst).Nodup) {k : κ} (hk : k ∉ entries.map Prod.fst) :
    (m.insertAll entries).get? k = m.get? k := by
  have hnone : entries.find? (fun e => e.1 == k) = none := by
    refine List.find?_eq_none.2 fun e he hek => hk (List.mem_map.2 ⟨e, he, ?_⟩)
    exact beq_iff_eq.1 hek
  rw [get?_insertAll m nodup, hnone]
  rfl

/-- A map can be made again from its entries. -/
theorem get?_ofList_entries (m : OrderedMap κ α) (k : κ) :
    (ofList m.entries).get? k = m.get? k := by
  rw [ofList, get?_insertAll empty m.nodup, get?_empty, Option.or_none]
  rfl

/-! ## Entries -/

theorem mem_entries_iff {m : OrderedMap κ α} {key : κ} {value : α} :
    (key, value) ∈ m.entries ↔ m.get? key = some value := by
  obtain ⟨entries, nodup⟩ := m
  simp only [get?]
  induction entries with
  | nil => simp
  | cons e es ih =>
    obtain ⟨he, hes⟩ := List.nodup_cons.1 nodup
    have hout : ∀ v, (e.1, v) ∉ es := fun v hv => he (List.mem_map.2 ⟨_, hv, rfl⟩)
    by_cases hk : e.1 = key
    · subst hk
      simp only [List.mem_cons, List.find?_cons, BEq.rfl, Option.map_some, Option.some.injEq, hout,
        or_false]
      exact ⟨fun h => congrArg Prod.snd h.symm, fun h => Prod.ext rfl h.symm⟩
    · have hne : (key, value) ≠ e := fun h => hk (congrArg Prod.fst h).symm
      simp [hk, hne, ih hes]

theorem get?_mapValues {β : Type} (m : OrderedMap κ α) (f : α → β) (k : κ) :
    (m.mapValues f).get? k = (m.get? k).map f := by
  simp only [mapValues, get?, List.find?_map, Option.map_map]
  rfl

theorem get?_filter (m : OrderedMap κ α) (p : κ → α → Bool) (k : κ) :
    (m.filter p).get? k = (m.get? k).filter (p k) := by
  apply Option.ext
  intro value
  rw [Option.filter_eq_some_iff, ← mem_entries_iff, ← mem_entries_iff]
  exact List.mem_filter

theorem get?_ofList_of_mem {entries : List (κ × α)} (nodup : (entries.map Prod.fst).Nodup) {k : κ}
    {value : α} (h : (k, value) ∈ entries) : (ofList entries).get? k = some value := by
  have hfound : (⟨entries, nodup⟩ : OrderedMap κ α).get? k = some value := mem_entries_iff.1 h
  rw [ofList, get?_insertAll empty nodup, get?_empty, Option.or_none]
  exact hfound

/-- A value can only be found in fewer entries if it can be found in all. -/
theorem get?_of_subset {m n : OrderedMap κ α} (h : m.entries ⊆ n.entries) {key : κ} {value : α}
    (hm : m.get? key = some value) : n.get? key = some value :=
  mem_entries_iff.1 (h (mem_entries_iff.2 hm))

theorem erase_eq_self {m : OrderedMap κ α} {key : κ} (h : key ∉ m.keys) : m.erase key = m := by
  refine filter_eq_self fun e he => ?_
  simp only [bne_iff_ne, ne_eq]
  exact fun hk => h (hk ▸ List.mem_map.2 ⟨e, he, rfl⟩)

theorem replace_perm {entries : List (κ × α)} {key : κ} (nodup : (entries.map Prod.fst).Nodup)
    (h : key ∈ entries.map Prod.fst) (value : α) :
    (replace key value entries).Perm ((entries.filter fun e => e.1 != key) ++ [(key, value)]) := by
  induction entries with
  | nil => simp at h
  | cons e es ih =>
    obtain ⟨he, hes⟩ := List.nodup_cons.1 nodup
    by_cases hk : e.1 = key
    · subst hk
      have hsame : ∀ x ∈ es, (x.1 != e.1) = true := fun x hx => by
        simp only [bne_iff_ne, ne_eq]
        exact fun hx' => he (hx' ▸ List.mem_map.2 ⟨x, hx, rfl⟩)
      have hrest : replace e.1 value es = es := by
        refine (List.map_congr_left fun x hx => ?_).trans (List.map_id _)
        simpa using fun hx' => absurd hx' (by simpa using hsame x hx)
      simp only [replace, List.map_cons, if_true] at hrest ⊢
      rw [hrest, List.filter_cons_of_neg (by simp), List.filter_eq_self.2 hsame]
      exact (List.perm_append_singleton _ _).symm
    · have hmem : key ∈ es.map Prod.fst := by
        simpa [Ne.symm hk] using h
      simp only [replace, List.map_cons, if_neg hk]
      rw [List.filter_cons_of_pos (by simpa using hk), List.cons_append]
      exact (ih hes hmem).cons e

theorem entries_insert_of_not_mem {m : OrderedMap κ α} {key : κ} (h : key ∉ m.keys) (value : α) :
    (m.insert key value).entries = m.entries ++ [(key, value)] := by
  unfold insert
  rw [dif_neg h]

/-- What an insertion leaves, but for the order: the other entries, and the one inserted. -/
theorem entries_insert_perm (m : OrderedMap κ α) (key : κ) (value : α) :
    (m.insert key value).entries.Perm ((m.erase key).entries ++ [(key, value)]) := by
  unfold insert
  split
  · next h => exact replace_perm m.nodup h value
  · next h => rw [erase_eq_self h]

end OrderedMap

end ScriptHost
