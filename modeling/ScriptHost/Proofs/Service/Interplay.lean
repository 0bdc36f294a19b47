import ScriptHost.Proofs.Service.Order
import ScriptHost.Service.Cache

/-! # The interplay of a directory and its cache

A look-up that misses in the cache leaves the cache to itself while the directory is asked, and any
number of look-ups can be under way at once: other callers' and those that the directory makes
itself. An `Interplay` holds a directory of any kind, the cache, and the look-ups under way; a
`Step` is one of the moments between which something else can happen. What is known of the directory
is only what it answers, and that a change of services is reported for their capability.

The invariant is `Interplay.Sound`: what is stored is up to date, and so is what has been collected
in the present epoch. -/

namespace ScriptHost

/-! ## What the cache does -/

namespace ServiceCache

theorem get?_invalidate (c : ServiceCache) (capability : Capability) (q : Query) :
    (c.invalidate capability).entries.get? q =
      if q.capability = capability then none else c.entries.get? q := by
  unfold invalidate
  rw [OrderedMap.get?_filter_key c.entries fun q => q.capability != capability]
  by_cases h : q.capability = capability <;> simp [h]

@[simp] theorem epoch_settle (c : ServiceCache) (q : Query) (epoch : Nat) (a : Answer) :
    (c.settle q epoch a).2.epoch = c.epoch := by
  unfold settle
  split
  · rfl
  · dsimp only
    split
    · rfl
    · split <;> rfl

/-- What is stored after a look-up was stored before, or it is an answer collected in this epoch. -/
theorem get?_settle {c : ServiceCache} {q k : Query} {epoch : Nat} {a : Answer}
    {found : List Service} (h : (c.settle q epoch a).2.entries.get? k = some found) :
    c.entries.get? k = some found ∨
      ∃ services, a = .ok services ∧ k = q ∧ epoch = c.epoch ∧
        found = Service.ordered q.capability services := by
  cases a with
  | error e => exact .inl h
  | ok services =>
      simp only [settle] at h
      split at h
      · exact .inl h
      · split at h
        · next hepoch =>
            rw [OrderedMap.get?_insert] at h
            split at h
            · next hk => exact .inr ⟨services, rfl, hk, hepoch.symm, (Option.some.inj h).symm⟩
            · exact .inl h
        · exact .inl h

/-- A look-up returns what has been stored meanwhile, and else the answer it has collected. -/
theorem settle_ok_fst (c : ServiceCache) (q : Query) (epoch : Nat) (services : List Service) :
    (c.settle q epoch (.ok services)).1 =
      (c.entries.get? q).getD (Service.ordered q.capability services) := by
  simp only [settle]
  split
  · next known hknown => rw [hknown, Option.getD_some]
  · next hnone =>
      rw [hnone, Option.getD_none]
      split <;> rfl

theorem remembered_eq_inl_iff {c : ServiceCache} {q : Query} {found : List Service} :
    c.remembered q = .inl found ↔ c.entries.get? q = some found := by
  unfold remembered
  split <;> simp_all

theorem remembered_eq_inr_iff {c : ServiceCache} {q : Query} {epoch : Nat} :
    c.remembered q = .inr epoch ↔ c.entries.get? q = none ∧ epoch = c.epoch := by
  unfold remembered
  cases c.entries.get? q with
  | some known => simp
  | none => simp [eq_comm]

end ServiceCache

/-! ## Moments -/

/-- A look-up under way: what was asked for, the epoch in which it was missing, and what the
directory has answered. -/
structure Lookup where
  query : Query
  epoch : Nat
  collected : Option Answer

structure Interplay (δ : Type) where
  directory : δ
  cache : ServiceCache
  /-- The look-ups under way, by number. -/
  lookups : Nat → Option Lookup

/-- What happens at one moment. -/
inductive Moment where
  /-- Services of a capability change, and that is reported. -/
  | change (capability : Capability)
  | invalidate (capability : Capability)
  | clear
  /-- A look-up finds the services in the cache. -/
  | hit (q : Query) (found : List Service)
  /-- A look-up finds nothing there, and notes the epoch. -/
  | miss (number : Nat) (q : Query)
  /-- The directory has collected its answer to a look-up, or has failed. -/
  | collect (number : Nat) (answer : Answer)
  /-- A look-up ends with the services it returns. -/
  | settle (number : Nat) (found : List Service)

namespace Interplay

variable {δ : Type}

/-- Nothing is known yet. -/
def start (d : δ) : Interplay δ := ⟨d, .empty, fun _ => none⟩

def setLookup (s : Interplay δ) (number : Nat) (l : Option Lookup) : Interplay δ :=
  { s with lookups := fun k => if k = number then l else s.lookups k }

@[simp] theorem setLookup_self (s : Interplay δ) (number : Nat) (l : Option Lookup) :
    (s.setLookup number l).lookups number = l := by
  simp [setLookup]

theorem setLookup_of_ne (s : Interplay δ) {number k : Nat} (h : k ≠ number) (l : Option Lookup) :
    (s.setLookup number l).lookups k = s.lookups k := by
  simp [setLookup, h]

@[simp] theorem setLookup_setLookup (s : Interplay δ) (number : Nat) (l l' : Option Lookup) :
    (s.setLookup number l).setLookup number l' = s.setLookup number l' := by
  unfold setLookup
  congr 1
  funext k
  by_cases hk : k = number <;> simp [hk]

theorem setLookup_eq_self {s : Interplay δ} {number : Nat} {l : Option Lookup}
    (h : s.lookups number = l) : s.setLookup number l = s := by
  unfold setLookup
  congr 1
  funext k
  by_cases hk : k = number
  · rw [if_pos hk, hk, h]
  · rw [if_neg hk]

-- What a directory of some kind answers in each of its states when it does not fail.
variable (answer : δ → Query → Answer)

/-- What a directory has on offer for a query: the services of the capability in its answer, in
order. -/
def Offers (d : δ) (q : Query) (found : List Service) : Prop :=
  ∃ services, answer d q = .ok services ∧ Service.Arranged q.capability services found

/-- Only services of one capability differ between two states of a directory. -/
def DiffersIn (capability : Capability) (d d' : δ) : Prop :=
  ∀ q : Query, q.capability ≠ capability →
    ∀ found, Offers answer d' q found ↔ Offers answer d q found

/-- One moment of the interplay. The directory may fail at any time. -/
inductive Step : Interplay δ → Moment → Interplay δ → Prop where
  | change {s : Interplay δ} {capability : Capability} {d : δ} :
      DiffersIn answer capability s.directory d →
      Step s (.change capability)
        { s with directory := d, cache := s.cache.invalidate capability }
  | invalidate {s : Interplay δ} (capability : Capability) :
      Step s (.invalidate capability) { s with cache := s.cache.invalidate capability }
  | clear {s : Interplay δ} : Step s .clear { s with cache := s.cache.clear }
  | hit {s : Interplay δ} {q : Query} {found : List Service} :
      s.cache.remembered q = .inl found → Step s (.hit q found) s
  | miss {s : Interplay δ} {number : Nat} {q : Query} {epoch : Nat} :
      s.lookups number = none → s.cache.remembered q = .inr epoch →
      Step s (.miss number q) (s.setLookup number (some ⟨q, epoch, none⟩))
  | collect {s : Interplay δ} {number : Nat} {q : Query} {epoch : Nat} {a : Answer} :
      s.lookups number = some ⟨q, epoch, none⟩ →
      (a = answer s.directory q ∨ ∃ e, a = .error e) →
      Step s (.collect number a) (s.setLookup number (some ⟨q, epoch, some a⟩))
  | settle {s : Interplay δ} {number : Nat} {q : Query} {epoch : Nat} {a : Answer} :
      s.lookups number = some ⟨q, epoch, some a⟩ →
      Step s (.settle number (s.cache.settle q epoch a).1)
        { s.setLookup number none with cache := (s.cache.settle q epoch a).2 }

/-- A run of any length, with its moments in order. -/
inductive Run : Interplay δ → List Moment → Interplay δ → Prop where
  | nil {s : Interplay δ} : Run s [] s
  | snoc {s t u : Interplay δ} {ms : List Moment} {m : Moment} :
      Run s ms t → Step answer t m u → Run s (ms ++ [m]) u

variable {answer}

/-- The answer that is put in order is on offer. -/
theorem offers_ordered {d : δ} {q : Query} {services : List Service}
    (h : answer d q = .ok services) :
    Offers answer d q (Service.ordered q.capability services) :=
  ⟨services, h, Service.arranged_ordered q.capability services⟩

theorem offers_iff_of_answer {d : δ} {q : Query} {services found : List Service}
    (h : answer d q = .ok services) :
    Offers answer d q found ↔ found = Service.ordered q.capability services := by
  rw [← Service.arranged_iff]
  constructor
  · rintro ⟨services', h', harranged⟩
    rw [h] at h'
    cases h'
    exact harranged
  · exact fun harranged => ⟨services, h, harranged⟩

theorem Run.single {s t : Interplay δ} {m : Moment} (h : Step answer s m t) :
    Run answer s [m] t := .snoc .nil h

theorem Run.append {s t u : Interplay δ} {ms ns : List Moment} (h : Run answer s ms t)
    (h' : Run answer t ns u) : Run answer s (ms ++ ns) u := by
  induction h' with
  | nil => simpa using h
  | snoc _ hstep ih =>
      rw [← List.append_assoc]
      exact .snoc ih hstep

/-! ## The invariant -/

variable (answer) in
/-- What is stored is up to date, and what has been collected in the present epoch is, too. -/
structure Sound (s : Interplay δ) : Prop where
  stored : ∀ q found, s.cache.entries.get? q = some found →
    Offers answer s.directory q found
  noted : ∀ number l, s.lookups number = some l → l.epoch ≤ s.cache.epoch
  collected : ∀ number q services,
    s.lookups number = some ⟨q, s.cache.epoch, some (.ok services)⟩ →
    Offers answer s.directory q (Service.ordered q.capability services)

theorem sound_start (d : δ) : Sound answer (start d) where
  stored := fun q found h => by simp [start, ServiceCache.empty] at h
  noted := fun number l h => by simp [start] at h
  collected := fun number q services h => by simp [start] at h

/-- In a new epoch nothing that has been collected counts, so only what is still stored has to be up
to date. -/
theorem Sound.nextEpoch {s : Interplay δ} (h : Sound answer s) {d : δ} {c : ServiceCache}
    (hepoch : c.epoch = s.cache.epoch + 1)
    (hstored : ∀ q found, c.entries.get? q = some found → Offers answer d q found) :
    Sound answer { s with directory := d, cache := c } where
  stored := hstored
  noted := by
    intro number l hl
    have := h.noted number l hl
    show l.epoch ≤ c.epoch
    omega
  collected := by
    intro number q services hl
    have := h.noted number _ hl
    simp only [hepoch] at this
    omega

/-- Putting a look-up under way keeps the invariant if it is fresh where that counts. -/
theorem Sound.setLookup {s : Interplay δ} (h : Sound answer s) {number : Nat} {l : Lookup}
    (hepoch : l.epoch ≤ s.cache.epoch)
    (hfresh : ∀ services, l.collected = some (.ok services) →
      Offers answer s.directory l.query (Service.ordered l.query.capability services)) :
    Sound answer (s.setLookup number (some l)) where
  stored := h.stored
  noted := by
    intro k l' hl'
    by_cases hk : k = number
    · subst hk
      rw [setLookup_self] at hl'
      cases hl'
      exact hepoch
    · rw [setLookup_of_ne s hk] at hl'
      exact h.noted k l' hl'
  collected := by
    intro k q services hl'
    by_cases hk : k = number
    · subst hk
      rw [setLookup_self] at hl'
      have hl : l = ⟨q, s.cache.epoch, some (.ok services)⟩ := Option.some.inj hl'
      subst hl
      exact hfresh services rfl
    · rw [setLookup_of_ne s hk] at hl'
      exact h.collected k q services hl'

/-- **One moment keeps the invariant.** -/
theorem Step.sound {s t : Interplay δ} {m : Moment} (hs : Step answer s m t)
    (h : Sound answer s) : Sound answer t := by
  cases hs with
  | @change capability d hd =>
      refine h.nextEpoch rfl ?_
      intro q found hq
      rw [ServiceCache.get?_invalidate] at hq
      split at hq
      · cases hq
      · next hne => exact (hd q hne found).mpr (h.stored q found hq)
  | invalidate capability =>
      refine h.nextEpoch rfl ?_
      intro q found hq
      rw [ServiceCache.get?_invalidate] at hq
      split at hq
      · cases hq
      · exact h.stored q found hq
  | clear =>
      refine h.nextEpoch rfl ?_
      intro q found hq
      simp [ServiceCache.clear] at hq
  | hit _ => exact h
  | miss _ hmiss =>
      obtain ⟨_, rfl⟩ := ServiceCache.remembered_eq_inr_iff.mp hmiss
      exact h.setLookup (Nat.le_refl _) (fun services hc => by cases hc)
  | @collect number q epoch a hl ha =>
      have hnoted : epoch ≤ s.cache.epoch := h.noted number _ hl
      refine h.setLookup hnoted ?_
      intro services hc
      cases hc
      rcases ha with ha | ⟨e, ha⟩
      · exact offers_ordered ha.symm
      · cases ha
  | @settle number q epoch a hl =>
      refine ⟨?_, ?_, ?_⟩
      -- Only what was collected in this epoch is stored anew, and that is up to date.
      · intro k found hk
        rcases ServiceCache.get?_settle hk with hk | ⟨services, rfl, rfl, rfl, rfl⟩
        · exact h.stored k found hk
        · exact h.collected number k services hl
      · intro k l hk
        simp only [ServiceCache.epoch_settle]
        by_cases hkn : k = number
        · subst hkn
          simp at hk
        · rw [setLookup_of_ne s hkn] at hk
          exact h.noted k l hk
      · intro k q' services hk
        simp only [ServiceCache.epoch_settle] at hk
        by_cases hkn : k = number
        · subst hkn
          simp at hk
        · rw [setLookup_of_ne s hkn] at hk
          exact h.collected k q' services hk

/-- **Every run keeps the invariant.** -/
theorem Run.sound {s t : Interplay δ} {ms : List Moment} (hr : Run answer s ms t)
    (h : Sound answer s) : Sound answer t := by
  induction hr with
  | nil => exact h
  | snoc _ hstep ih => exact hstep.sound ih

end Interplay

end ScriptHost
