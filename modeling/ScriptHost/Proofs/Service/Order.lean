import Mathlib.Data.List.Basic
import ScriptHost.Service

/-! # The order of services

Whoever asks a directory puts its answer in order: only the services of the capability asked for,
higher rankings first, and lower numbers first among equal rankings. Services level in both stay as
the directory listed them. So there is one way to put an answer in order, whatever strays and
repeated numbers it holds, and everyone who does finds the same list (`Service.arranged_iff`). -/

namespace ScriptHost

namespace Service

/-! ## Comparing services -/

theorem le_iff {a b : Service} :
    a.le b = true ↔ b.ranking < a.ranking ∨ (a.ranking = b.ranking ∧ a.id ≤ b.id) := by
  simp [le]

theorem le_total (a b : Service) : (a.le b || b.le a) = true := by
  rw [Bool.or_eq_true, le_iff, le_iff]
  omega

theorem le_trans {a b c : Service} (hab : a.le b = true) (hbc : b.le c = true) :
    a.le c = true := by
  rw [le_iff] at *
  omega

/-- Whether a service has a ranking and a number. -/
def standsAt (ranking : Int) (id : Nat) (s : Service) : Bool :=
  s.ranking = ranking && s.id = id

theorem standsAt_iff {ranking : Int} {id : Nat} {s : Service} :
    s.standsAt ranking id = true ↔ s.ranking = ranking ∧ s.id = id := by
  simp [standsAt]

/-- A service comes neither before nor after those with its ranking and number. -/
theorem standsAt_iff_le {a b : Service} :
    b.standsAt a.ranking a.id = true ↔ a.le b = true ∧ b.le a = true := by
  rw [standsAt_iff, le_iff, le_iff]
  omega

/-! ## Answers in order -/

/-- What a directory has answered, in order. -/
structure Arranged (capability : Capability) (answer found : List Service) : Prop where
  /-- Just the services of the capability, each as often as it was answered. -/
  perm : found.Perm (answer.filter fun s => s.capability = capability)
  sorted : found.Pairwise fun a b =>
    b.ranking < a.ranking ∨ (a.ranking = b.ranking ∧ a.id ≤ b.id)
  /-- Services that are level stay as they were answered. -/
  stable : ∀ ranking id, found.filter (standsAt ranking id) =
    (answer.filter fun s => s.capability = capability).filter (standsAt ranking id)

theorem pairwise_ordered (capability : Capability) (answer : List Service) :
    (ordered capability answer).Pairwise fun a b => a.le b = true := by
  refine List.pairwise_mergeSort ?_ ?_ _
  · intro a b c hab hbc
    exact le_trans hab hbc
  · intro a b
    exact le_total a b

theorem arranged_ordered (capability : Capability) (answer : List Service) :
    Arranged capability answer (ordered capability answer) where
  perm := List.mergeSort_perm _ _
  sorted := (pairwise_ordered capability answer).imp fun h => le_iff.mp h
  stable := by
    intro ranking id
    unfold ordered
    generalize answer.filter (fun s => s.capability = capability) = services
    -- Level services are a list in order, so sorting leaves them in their order.
    have hlevel : (services.filter (standsAt ranking id)).Pairwise fun a b => a.le b = true := by
      refine List.pairwise_of_forall_mem_list ?_
      intro a ha b hb
      have hat := standsAt_iff.mp (List.mem_filter.mp ha).2
      have hbt := standsAt_iff.mp (List.mem_filter.mp hb).2
      rw [le_iff]
      omega
    have hsub : (services.filter (standsAt ranking id)).Sublist (services.mergeSort le) := by
      refine List.sublist_mergeSort ?_ le_total hlevel List.filter_sublist
      intro a b c hab hbc
      exact le_trans hab hbc
    have hfiltered := hsub.filter (standsAt ranking id)
    simp only [List.filter_filter, Bool.and_self] at hfiltered
    refine (hfiltered.eq_of_length ?_).symm
    exact ((List.mergeSort_perm services le).filter _).length_eq.symm

theorem mem_iff_of_filter_standsAt {xs ys : List Service}
    (h : ∀ ranking id, xs.filter (standsAt ranking id) = ys.filter (standsAt ranking id))
    (s : Service) : s ∈ xs ↔ s ∈ ys := by
  have hs : s.standsAt s.ranking s.id = true := standsAt_iff.mpr ⟨rfl, rfl⟩
  calc s ∈ xs ↔ s ∈ xs.filter (standsAt s.ranking s.id) := by
        rw [List.mem_filter, and_iff_left hs]
    _ ↔ s ∈ ys := by rw [h, List.mem_filter, and_iff_left hs]

/-- Nothing in a list in order comes before its first service. -/
theorem head_le {a s : Service} {xs : List Service}
    (hxs : (a :: xs).Pairwise fun a b => a.le b = true) (hs : s ∈ a :: xs) : a.le s = true := by
  rcases List.mem_cons.mp hs with rfl | hs
  · exact le_iff.mpr (by omega)
  · exact List.rel_of_pairwise_cons hxs hs

/-- A list in order is known from its services at each ranking and number. -/
theorem eq_of_filter_standsAt {xs ys : List Service}
    (hxs : xs.Pairwise fun a b => a.le b = true) (hys : ys.Pairwise fun a b => a.le b = true)
    (h : ∀ ranking id, xs.filter (standsAt ranking id) = ys.filter (standsAt ranking id)) :
    xs = ys := by
  induction xs generalizing ys with
  | nil =>
      cases ys with
      | nil => rfl
      | cons b ys => cases (mem_iff_of_filter_standsAt h b).mpr List.mem_cons_self
  | cons a xs ih =>
      cases ys with
      | nil => cases (mem_iff_of_filter_standsAt h a).mp List.mem_cons_self
      | cons b ys =>
          have hab := head_le hxs ((mem_iff_of_filter_standsAt h b).mpr List.mem_cons_self)
          have hba := head_le hys ((mem_iff_of_filter_standsAt h a).mp List.mem_cons_self)
          -- The first services are level, so each is the first of their level.
          have hfirst := h a.ranking a.id
          rw [List.filter_cons_of_pos (standsAt_iff.mpr ⟨rfl, rfl⟩),
            List.filter_cons_of_pos (standsAt_iff_le.mpr ⟨hab, hba⟩)] at hfirst
          obtain rfl : a = b := (List.cons.inj hfirst).1
          refine congrArg (a :: ·) (ih hxs.of_cons hys.of_cons ?_)
          intro ranking id
          have hrest := h ranking id
          rw [List.filter_cons, List.filter_cons] at hrest
          split at hrest
          · exact (List.cons.inj hrest).2
          · exact hrest

/-- **There is one way to put an answer in order.** -/
theorem arranged_iff {capability : Capability} {answer found : List Service} :
    Arranged capability answer found ↔ found = ordered capability answer := by
  constructor
  · intro h
    have hord := arranged_ordered capability answer
    refine eq_of_filter_standsAt (h.sorted.imp fun hab => le_iff.mpr hab)
      (pairwise_ordered capability answer) ?_
    intro ranking id
    rw [h.stable, hord.stable]
  · rintro rfl
    exact arranged_ordered capability answer

/-- Services of other capabilities in an answer make no difference. -/
theorem arranged_congr {capability : Capability} {a b found : List Service}
    (h : (a.filter fun s => s.capability = capability) =
      b.filter fun s => s.capability = capability) :
    Arranged capability a found ↔ Arranged capability b found := by
  rw [arranged_iff, arranged_iff, ordered, ordered, h]

end Service

end ScriptHost
