import Mathlib.Data.List.Basic
import Mathlib.Data.List.Perm.Basic

/-! # Lists with repeats

What comes of entering each of some things as often as it asks for it, one after the other
(`repeated`). Nothing is lost or repeated just where everything asks once
(`length_repeated_eq_iff`, `map_repeated_eq_iff`), and of a list without its repeats nothing is
repeated (`nodup_eraseDups`). -/

namespace ScriptHost

variable {α : Type} {times : α → Nat} {l : List α}

/-- Each of some things, as often as is said. -/
def repeated (times : α → Nat) (l : List α) : List α :=
  l.flatMap fun a => List.replicate (times a) a

theorem repeated_cons (times : α → Nat) (a : α) (l : List α) :
    repeated times (a :: l) = List.replicate (times a) a ++ repeated times l :=
  List.flatMap_cons

theorem repeated_perm (times : α → Nat) {l k : List α} (h : l.Perm k) :
    (repeated times l).Perm (repeated times k) :=
  h.flatMap_right _

/-- Repeats stay together, so an order that holds between equals is kept. -/
theorem pairwise_repeated {R : α → α → Prop} (hrefl : ∀ a, R a a) (h : l.Pairwise R) :
    (repeated times l).Pairwise R := by
  refine List.pairwise_flatMap.mpr ⟨fun a _ => ?_, h.imp ?_⟩
  · exact List.pairwise_replicate.mpr (.inr (hrefl a))
  · intro a b hab x hx y hy
    rw [List.eq_of_mem_replicate hx, List.eq_of_mem_replicate hy]
    exact hab

theorem repeated_eq_self (h : ∀ a ∈ l, times a = 1) : repeated times l = l := by
  induction l with
  | nil => rfl
  | cons a l ih =>
      rw [repeated_cons, h a List.mem_cons_self, ih fun b hb => h b (List.mem_cons_of_mem a hb)]
      rfl

/-- What does not ask at all can be left out. -/
theorem repeated_filter {p : α → Bool} (h : ∀ a ∈ l, p a = false → times a = 0) :
    repeated times (l.filter p) = repeated times l := by
  induction l with
  | nil => rfl
  | cons a l ih =>
      have htail := ih fun b hb => h b (List.mem_cons_of_mem a hb)
      cases hp : p a with
      | true => rw [List.filter_cons_of_pos hp, repeated_cons, repeated_cons, htail]
      | false =>
          rw [List.filter_cons_of_neg (by simp [hp]), repeated_cons, htail,
            h a List.mem_cons_self hp]
          rfl

theorem length_le_repeated (hpos : ∀ a ∈ l, 0 < times a) :
    l.length ≤ (repeated times l).length := by
  induction l with
  | nil => exact Nat.le_refl 0
  | cons a l ih =>
      have hhead := hpos a List.mem_cons_self
      have htail := ih fun b hb => hpos b (List.mem_cons_of_mem a hb)
      rw [repeated_cons, List.length_append, List.length_replicate, List.length_cons]
      omega

/-- **There are as many as there were if and only if nothing is repeated**, where everything occurs
at all. -/
theorem length_repeated_eq_iff (hpos : ∀ a ∈ l, 0 < times a) :
    (repeated times l).length = l.length ↔ ∀ a ∈ l, times a = 1 := by
  constructor
  · intro hlength
    induction l with
    | nil => simp
    | cons a l ih =>
        have hhead := hpos a List.mem_cons_self
        have hrest : ∀ b ∈ l, 0 < times b := fun b hb => hpos b (List.mem_cons_of_mem a hb)
        have htail := length_le_repeated hrest
        rw [repeated_cons, List.length_append, List.length_replicate, List.length_cons] at hlength
        refine List.forall_mem_cons.mpr ⟨by omega, ih hrest (by omega)⟩
  · intro h
    rw [repeated_eq_self h]

/-- The same for what is made of them. -/
theorem map_repeated_eq_iff {β : Type} (f : α → β) (hpos : ∀ a ∈ l, 0 < times a) :
    (repeated times l).map f = l.map f ↔ ∀ a ∈ l, times a = 1 := by
  constructor
  · intro hsame
    have hlength := congrArg List.length hsame
    rw [List.length_map, List.length_map] at hlength
    exact (length_repeated_eq_iff hpos).mp hlength
  · intro h
    rw [repeated_eq_self h]

/-- The first occurrence of each element is left. -/
theorem nodup_eraseDups {β : Type} [BEq β] [LawfulBEq β] (l : List β) : l.eraseDups.Nodup := by
  match l with
  | [] => exact List.nodup_nil
  | b :: l =>
      have hshorter : (l.filter fun c => !c == b).length < l.length + 1 :=
        Nat.lt_succ_of_le (List.length_filter_le _ _)
      rw [List.eraseDups_cons, List.nodup_cons, List.mem_eraseDups]
      exact ⟨by simp, nodup_eraseDups (l.filter fun c => !c == b)⟩
termination_by l.length

/-- Nothing changes places when repeats are taken out. -/
theorem eraseDups_sublist {β : Type} [BEq β] (l : List β) : l.eraseDups.Sublist l := by
  match l with
  | [] => exact .slnil
  | b :: l =>
      have hshorter : (l.filter fun c => !c == b).length < l.length + 1 :=
        Nat.lt_succ_of_le (List.length_filter_le _ _)
      rw [List.eraseDups_cons]
      exact ((eraseDups_sublist _).trans List.filter_sublist).cons_cons b
termination_by l.length

theorem eraseDups_eq_self {β : Type} [BEq β] [LawfulBEq β] {l : List β} (h : l.Nodup) :
    l.eraseDups = l := by
  induction l with
  | nil => rfl
  | cons b l ih =>
      obtain ⟨hb, hl⟩ := List.nodup_cons.mp h
      have hfilter : (l.filter fun c => !c == b) = l := by
        refine List.filter_eq_self.mpr fun c hc => ?_
        simpa using fun heq : c = b => hb (heq ▸ hc)
      rw [List.eraseDups_cons, hfilter, ih hl]

end ScriptHost
