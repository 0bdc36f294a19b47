import Mathlib.Data.List.Basic
import ScriptHost.Provider.Registry

/-! # The providers of one context

A context keeps the providers for every engine apart from those for some languages, and sorts the
list again into which one is entered. As long as a number stands for one provider only, what has
been entered decides both lists (`ContextProviders.of`): neither the order in which the providers
came nor those that were removed again leave a trace. -/

namespace ScriptHost

namespace ProviderEntry

/-! ## Sorting -/

theorem le_iff {a b : ProviderEntry} :
    a.le b = true ↔ a.rank < b.rank ∨ (a.rank = b.rank ∧ b.id ≤ a.id) := by
  simp [le]

theorem le_total (a b : ProviderEntry) : (a.le b || b.le a) = true := by
  rw [Bool.or_eq_true, le_iff, le_iff]
  omega

theorem le_trans {a b c : ProviderEntry} (hab : a.le b = true) (hbc : b.le c = true) :
    a.le c = true := by
  rw [le_iff] at *
  omega

/-- Providers that stand level with each other have the same number. -/
theorem id_eq_of_le {a b : ProviderEntry} (hab : a.le b = true) (hba : b.le a = true) :
    a.id = b.id := by
  rw [le_iff] at hab hba
  omega

/-- A number stands for one provider, however often that occurs. -/
def Coherent (es : List ProviderEntry) : Prop :=
  ∀ a ∈ es, ∀ b ∈ es, a.id = b.id → a = b

theorem Coherent.subset {es fs : List ProviderEntry} (h : Coherent fs) (hs : es ⊆ fs) :
    Coherent es :=
  fun a ha b hb hid => h a (hs ha) b (hs hb) hid

def sorted (es : List ProviderEntry) : List ProviderEntry :=
  es.mergeSort le

theorem sorted_perm (es : List ProviderEntry) : (sorted es).Perm es :=
  List.mergeSort_perm _ _

theorem mem_sorted {e : ProviderEntry} {es : List ProviderEntry} : e ∈ sorted es ↔ e ∈ es :=
  (sorted_perm es).mem_iff

theorem pairwise_sorted (es : List ProviderEntry) :
    (sorted es).Pairwise fun a b => a.le b = true := by
  refine List.pairwise_mergeSort ?_ ?_ es
  · intro a b c hab hbc
    exact le_trans hab hbc
  · intro a b
    exact le_total a b

/-- There is one way to sort providers. -/
theorem eq_sorted {es fs : List ProviderEntry} (h : Coherent fs) (hp : es.Perm fs)
    (hs : es.Pairwise fun a b => a.le b = true) : es = sorted fs := by
  refine List.Perm.eq_of_pairwise ?_ hs (pairwise_sorted fs) (hp.trans (sorted_perm fs).symm)
  intro a b ha hb hab hba
  exact h a (hp.mem_iff.mp ha) b (mem_sorted.mp hb) (id_eq_of_le hab hba)

/-- Sorting again after a provider has come in. -/
theorem sorted_concat {es : List ProviderEntry} {e : ProviderEntry} (h : Coherent (es ++ [e])) :
    (sorted es ++ [e]).mergeSort le = sorted (es ++ [e]) := by
  apply eq_sorted h
  · exact (sorted_perm _).trans ((sorted_perm es).append_right [e])
  · exact pairwise_sorted _

theorem sorted_filter {es : List ProviderEntry} (h : Coherent es) (p : ProviderEntry → Bool) :
    (sorted es).filter p = sorted (es.filter p) := by
  apply eq_sorted
  · exact h.subset List.filter_sublist.subset
  · exact (sorted_perm es).filter p
  · exact (pairwise_sorted es).filter p

theorem sorted_part_concat {es : List ProviderEntry} {e : ProviderEntry} (h : Coherent (es ++ [e]))
    {p : ProviderEntry → Bool} (hp : p e = true) :
    sorted ((es ++ [e]).filter p) = (sorted (es.filter p) ++ [e]).mergeSort le := by
  have hlast : (es ++ [e]).filter p = es.filter p ++ [e] := by simp [hp]
  rw [hlast]
  refine (sorted_concat ?_).symm
  rw [← hlast]
  exact h.subset List.filter_sublist.subset

theorem sorted_part_skip {es : List ProviderEntry} {e : ProviderEntry} {p : ProviderEntry → Bool}
    (hp : p e = false) : sorted ((es ++ [e]).filter p) = sorted (es.filter p) := by
  simp [hp]

end ProviderEntry

open ProviderEntry

namespace ContextProviders

/-! ## The two lists -/

/-- What a context holds once some providers have been entered. -/
def of (es : List ProviderEntry) : ContextProviders where
  generic := sorted (es.filter fun e => e.languages.isEmpty)
  keyed := sorted (es.filter fun e => !e.languages.isEmpty)

theorem of_nil : of [] = empty := by
  simp [of, empty, sorted]

theorem insert_of {es : List ProviderEntry} {e : ProviderEntry} (h : Coherent (es ++ [e])) :
    (of es).insert e = of (es ++ [e]) := by
  cases hlanguages : e.languages.isEmpty with
  | true =>
      show insert _ e = ⟨_, _⟩
      rw [sorted_part_concat h (by simpa using hlanguages), sorted_part_skip (by simp [hlanguages]),
        insert, if_pos hlanguages]
      rfl
  | false =>
      show insert _ e = ⟨_, _⟩
      rw [sorted_part_skip (by simpa using hlanguages), sorted_part_concat h (by simp [hlanguages]),
        insert, if_neg (by simp [hlanguages])]
      rfl

theorem remove_of {es : List ProviderEntry} (h : Coherent es) (id : Nat) :
    (of es).remove id = of (es.filter fun e => e.id != id) := by
  have hpart : ∀ p : ProviderEntry → Bool, (sorted (es.filter p)).filter (·.id != id) =
      sorted ((es.filter fun e => e.id != id).filter p) := by
    intro p
    rw [sorted_filter (h.subset List.filter_sublist.subset), List.filter_filter, List.filter_filter]
    simp only [Bool.and_comm]
  show (⟨_, _⟩ : ContextProviders) = ⟨_, _⟩
  rw [← hpart, ← hpart]
  rfl

theorem mem_of {es : List ProviderEntry} {e : ProviderEntry} :
    e ∈ (of es).generic ∨ e ∈ (of es).keyed ↔ e ∈ es := by
  simp only [of, mem_sorted, List.mem_filter]
  cases e.languages.isEmpty <;> simp

theorem isEmpty_of (es : List ProviderEntry) : (of es).isEmpty = es.isEmpty := by
  rw [Bool.eq_iff_iff, isEmpty, Bool.and_eq_true, List.isEmpty_iff, List.isEmpty_iff,
    List.isEmpty_iff]
  simp only [List.eq_nil_iff_forall_not_mem]
  constructor
  · rintro ⟨hgeneric, hkeyed⟩ e he
    rcases mem_of.mpr he with he | he
    · exact hgeneric e he
    · exact hkeyed e he
  · intro hes
    exact ⟨fun e he => hes e (mem_of.mp (.inl he)), fun e he => hes e (mem_of.mp (.inr he))⟩

theorem holds_of (es : List ProviderEntry) (id : Nat) :
    (of es).holds id = true ↔ ∃ e ∈ es, e.id = id := by
  simp only [holds, Bool.or_eq_true, List.any_eq_true, beq_iff_eq]
  constructor
  · rintro (⟨e, he, hid⟩ | ⟨e, he, hid⟩)
    · exact ⟨e, mem_of.mp (.inl he), hid⟩
    · exact ⟨e, mem_of.mp (.inr he), hid⟩
  · rintro ⟨e, he, hid⟩
    rcases mem_of.mpr he with he | he
    · exact .inl ⟨e, he, hid⟩
    · exact .inr ⟨e, he, hid⟩

/-! ## What is kept for a context -/

/-- What is kept for a context in which some providers have been entered: nothing, if there are
none. -/
def bucket (es : List ProviderEntry) : Option ContextProviders :=
  if es.isEmpty then none else some (of es)

theorem bucket_of_mem {es : List ProviderEntry} {e : ProviderEntry} (he : e ∈ es) :
    bucket es = some (of es) := by
  cases es with
  | nil => cases he
  | cons _ _ => rfl

theorem bucket_eq_some {es : List ProviderEntry} {c : ContextProviders}
    (h : bucket es = some c) : of es = c := by
  cases es with
  | nil => cases h
  | cons _ _ => exact Option.some.inj h

theorem getD_bucket (es : List ProviderEntry) : (bucket es).getD empty = of es := by
  cases es with
  | nil => exact of_nil.symm
  | cons e es => rfl

theorem remove_bucket {es : List ProviderEntry} (h : Coherent es) (id : Nat) :
    ((bucket es).map fun c => c.remove id).filter (fun c => !c.isEmpty) =
      bucket (es.filter fun e => e.id != id) := by
  cases es with
  | nil => rfl
  | cons e es =>
      show Option.filter _ (some ((of (e :: es)).remove id)) = _
      rw [remove_of h, Option.filter_some, isEmpty_of]
      unfold bucket
      cases (List.filter (fun e => e.id != id) (e :: es)).isEmpty <;> rfl

end ContextProviders

open ContextProviders

namespace ProviderRegistry

/-- Entering a provider under some names, not all of them different, enters it in a context as often
as the context is named. -/
theorem get?_foldl_insert (names : List String) {e : ProviderEntry} {name : String}
    {contexts : OrderedMap String ContextProviders} {es : List ProviderEntry}
    (h : contexts.get? name = bucket es) (hcoherent : Coherent (es ++ [e])) :
    (names.foldl (fun cs n => cs.insert n (((cs.get? n).getD .empty).insert e))
        contexts).get? name =
      bucket (es ++ List.replicate (names.count name) e) := by
  induction names generalizing contexts es with
  | nil => simpa using h
  | cons n ns ih =>
      rw [List.foldl_cons]
      by_cases hn : name = n
      · subst hn
        have hstep : (contexts.insert name
            (((contexts.get? name).getD .empty).insert e)).get? name = bucket (es ++ [e]) := by
          rw [OrderedMap.get?_insert, if_pos rfl, h, getD_bucket, insert_of hcoherent,
            bucket_of_mem (by simp : e ∈ es ++ [e])]
        have hsame : Coherent (es ++ [e] ++ [e]) := hcoherent.subset (by simp)
        rw [ih hstep hsame, List.count_cons_self, List.replicate_succ, List.append_assoc,
          List.singleton_append]
      · have hstep : (contexts.insert n (((contexts.get? n).getD .empty).insert e)).get? name =
            bucket es := by
          rw [OrderedMap.get?_insert, if_neg hn, h]
        rw [ih hstep hcoherent, List.count_cons_of_ne (Ne.symm hn)]

end ProviderRegistry

end ScriptHost
