import Mathlib
import ScriptHost.Proofs.Cache.Following
import ScriptHost.Template.Engine

/-! # Subscriptions of a cache

A cache has two kinds of subscriptions: with the registry that it follows, and with the source of
changes that it watches. Both change hands whenever it is activated, told of new engines or disposed
of. The invariant `Installation.Tidy` says which there are: one listener with the registry that the
cache was activated on last and one subscription for the paths to be watched there, or none at all
if the cache is not active. Every turn that things can take around a cache keeps it, so it holds
after any course of them. -/

namespace ScriptHost

/-! ## Who listens to a registry -/

namespace EngineRegistry

variable {ℓ : Type}

/-- A number belongs to one listener. -/
theorem Enlisted.unique {r : EngineRegistry ℓ} (h : r.Enlisted) {id : Nat} {l k : ℓ}
    (hl : (id, l) ∈ r.listeners) (hk : (id, k) ∈ r.listeners) : l = k := by
  have hnodup : (r.listeners.map Prod.fst).Nodup := h.increasing.imp Nat.ne_of_lt
  exact congrArg Prod.snd (List.inj_on_of_nodup_map hnodup hl hk rfl)

variable [DecidableEq ℓ]

/-- The numbers under which somebody listens. -/
def listenersOf (r : EngineRegistry ℓ) (who : ℓ) : List Nat :=
  (r.listeners.filter fun l => l.2 = who).map Prod.fst

theorem mem_listenersOf {r : EngineRegistry ℓ} {who : ℓ} {id : Nat} :
    id ∈ r.listenersOf who ↔ (id, who) ∈ r.listeners := by
  simp [listenersOf]

theorem listenersOf_eq_nil_iff {r : EngineRegistry ℓ} {who : ℓ} :
    r.listenersOf who = [] ↔ who ∉ r.listeners.map Prod.snd := by
  rw [List.eq_nil_iff_forall_not_mem]
  simp [mem_listenersOf]

@[simp] theorem listenersOf_apply (r : EngineRegistry ℓ) (request : Registration) (who : ℓ) :
    (r.apply request).2.1.listenersOf who = r.listenersOf who := by
  unfold listenersOf
  rw [(apply_listeners r request).1]

theorem listenersOf_subscribe (r : EngineRegistry ℓ) (l who : ℓ) :
    (r.subscribe l).2.listenersOf who =
      r.listenersOf who ++ if l = who then [r.nextListener] else [] := by
  unfold listenersOf subscribe
  by_cases h : l = who
  · simp [h]
  · simp [h]

theorem listenersOf_unsubscribe (r : EngineRegistry ℓ) (id : Nat) (who : ℓ) :
    (r.unsubscribe id).2.listenersOf who = (r.listenersOf who).filter (· != id) := by
  unfold listenersOf unsubscribe
  simp only [List.filter_map, List.filter_filter]
  congr 2
  funext l
  simp [Bool.and_comm]

end EngineRegistry

/-! ## Turns of things -/

/-- What can happen to a cache and around it. Registries and the source of changes have other
subscribers, too; of those at the source only the numbers that they take matter here. -/
inductive Turn where
  | register (index : Nat) (request : Registration)
  | join (index other : Nat)
  | leave (index other id : Nat)
  | activate (index : Nat)
  | put (s : CachedScript)
  | remove (path : String)
  | clear
  | trim (keep : Nat)
  | invalidate (events : List ChangeEvent)
  /-- A batch of reports is put in line. -/
  | onChanges (events : List ChangeEvent)
  /-- The background gets the time it needs. -/
  | settle
  /-- The source reports to all of its subscribers. -/
  | emit (events : List ChangeEvent)
  /-- Somebody else subscribes to the source. -/
  | share
  | dispose

namespace ScriptCache

/-- The life of the cache is the same, and if it was over the cache has stayed empty. -/
structure Keeps (c d : ScriptCache) : Prop where
  phase : d.phase = c.phase
  additional : d.additional = c.additional
  empty : c.isDisposed = true → c.entries = .empty → d.entries = .empty

theorem Keeps.refl (c : ScriptCache) : c.Keeps c :=
  ⟨rfl, rfl, fun _ h => h⟩

theorem keeps_put (c : ScriptCache) (s : CachedScript) : c.Keeps (c.put s) := by
  unfold put
  split
  · exact .refl c
  · next h => exact ⟨rfl, rfl, fun hdisposed => absurd (.inr hdisposed) h⟩

theorem Thins.keeps {c d : ScriptCache} (h : c.Thins d) : c.Keeps d := by
  refine ⟨h.phase, h.additional, fun _ hempty => OrderedMap.ext_entries ?_⟩
  have hsub := h.entries
  rw [hempty] at hsub
  exact List.sublist_nil.mp hsub

end ScriptCache

namespace Installation

/-- Takes a turn. Others only end their own subscriptions. -/
def take (i : Installation) : Turn → Installation
  | .register index request => (i.register index request).2
  | .join index other => i.setRegistry index ((i.registries index).subscribe (.other other)).2
  | .leave index other id =>
    if (id, .other other) ∈ (i.registries index).listeners then i.unsubscribe index id else i
  | .activate index => i.activate index
  | .put s => { i with cache := i.cache.put s }
  | .remove path => { i with cache := (i.cache.remove path).2 }
  | .clear => { i with cache := i.cache.clear }
  | .trim keep => { i with cache := (i.cache.trim keep).2 }
  | .invalidate events => { i with cache := i.cache.invalidate events }
  | .onChanges events => { i with cache := i.cache.onChanges events }
  | .settle => { i with cache := i.cache.settle }
  | .emit events => i.emit events
  | .share => { i with source := i.source.map fun s => { s with next := s.next + 1 } }
  | .dispose => i.dispose.2

def after (i : Installation) (turns : List Turn) : Installation :=
  turns.foldl take i

/-- The registry of the latest activation. -/
def latest : Option Nat → Turn → Option Nat
  | _, .activate index => some index
  | last, _ => last

def lastActivated (turns : List Turn) : Option Nat :=
  turns.foldl latest none

/-! ## The invariant -/

/-- What a cache is to watch where it follows a registry: the extensions of the engines that compile
there now, and additional ones. -/
def watchFor (i : Installation) (additional : NameSet) (index : Nat) : WatchSet :=
  ⟨(i.registries index).snapshot.compilableExtensions.union additional⟩

/-- No registry and no source knows of the cache. -/
structure Detached (i : Installation) : Prop where
  listeners : ∀ k, (i.registries k).listenersOf .scriptCache = []
  subscriptions : ∃ s, i.source = some s ∧ s.subscriptions = []

/-- An active cache is up to date with the registry it follows. That one knows of it, under one
number, and no other does; the source has its subscription for what is to be watched. -/
structure Engaged (i : Installation) (additional : NameSet) (a : Activity) : Prop where
  phase : i.cache.phase = .active a
  generation : a.generation = (i.registries a.registry).snapshot.generation
  watch : a.watch = i.watchFor additional a.registry
  own : (i.registries a.registry).listenersOf .scriptCache = [a.listener]
  others : ∀ k, k ≠ a.registry → (i.registries k).listenersOf .scriptCache = []
  watching : Watches i.source a.subscription a.watch
  source : i.source.isSome = true

/-- **The invariant**: the subscriptions of a cache are those that its life calls for. -/
structure Tidy (i : Installation) (additional : NameSet) (last : Option Nat) : Prop where
  reachable : ∀ k, (i.registries k).Reachable
  additions : i.cache.additional = additional
  engaged : ∀ a, i.cache.phase = .active a → last = some a.registry ∧ i.Engaged additional a
  detached : (∀ a, i.cache.phase ≠ .active a) → i.Detached
  ended : i.cache.phase = .disposed → i.cache.entries = .empty

/-- A cache that has just been made, among registries and a source that do not know of it. -/
structure Fresh (i : Installation) : Prop where
  cache : ∃ capacity additional, i.cache = .new capacity additional
  reachable : ∀ k, (i.registries k).Reachable
  detached : i.Detached

variable {i : Installation} {additional : NameSet} {last : Option Nat}

theorem Fresh.tidy (h : i.Fresh) : i.Tidy i.cache.additional none := by
  obtain ⟨capacity, extensions, hcache⟩ := h.cache
  have hphase : i.cache.phase = .unconfigured := by
    rw [hcache]
    rfl
  refine ⟨h.reachable, rfl, fun a ha => ?_, fun _ => h.detached, fun hover => ?_⟩
  · rw [hphase] at ha
    cases ha
  · rw [hphase] at hover
    cases hover

/-! ## Turns of the cache -/

/-- What only concerns what is cached. -/
theorem Tidy.keeps (h : i.Tidy additional last) {c : ScriptCache}
    (hc : i.cache.Keeps c) : Tidy { i with cache := c } additional last := by
  refine ⟨h.reachable, hc.additional.trans h.additions, fun a ha => ?_, fun hinactive => ?_,
    fun hover => ?_⟩
  · obtain ⟨hlast, he⟩ := h.engaged a (hc.phase ▸ ha)
    exact ⟨hlast, ha, he.generation, he.watch, he.own, he.others, he.watching, he.source⟩
  · obtain ⟨hlisteners, hsubscriptions⟩ := h.detached fun a ha => hinactive a (hc.phase.trans ha)
    exact ⟨hlisteners, hsubscriptions⟩
  · have hdisposed : i.cache.phase = .disposed := hc.phase ▸ hover
    refine hc.empty ?_ (h.ended hdisposed)
    unfold ScriptCache.isDisposed
    rw [hdisposed]

theorem emit_keeps (i : Installation) (events : List ChangeEvent) :
    ∃ c, i.emit events = { i with cache := c } ∧ i.cache.Keeps c := by
  unfold Installation.emit
  split
  · exact ⟨i.cache, rfl, .refl i.cache⟩
  · next s _ =>
      refine ⟨_, rfl, (ScriptCache.Thins.trans ?_ (ScriptCache.thins_settle _)).keeps⟩
      exact ScriptCache.Thins.foldl (fun c _ => c.thins_onChanges events) s.subscriptions i.cache

/-! ## Turns of registries -/

@[simp] theorem registries_setRegistry_of_ne (i : Installation) {index k : Nat} (hk : k ≠ index)
    (r : EngineRegistry Subscriber) : (i.setRegistry index r).registries k = i.registries k := by
  simp [setRegistry, hk]

theorem listenersOf_setRegistry {i : Installation} {index : Nat} {r : EngineRegistry Subscriber}
    (h : r.listenersOf .scriptCache = (i.registries index).listenersOf .scriptCache) (k : Nat) :
    ((i.setRegistry index r).registries k).listenersOf .scriptCache =
      (i.registries k).listenersOf .scriptCache := by
  by_cases hk : k = index
  · subst hk
    rw [setRegistry_self, h]
  · rw [i.registries_setRegistry_of_ne hk]

theorem reachable_setRegistry {i : Installation} {index : Nat} {r : EngineRegistry Subscriber}
    (h : ∀ k, (i.registries k).Reachable) (hr : r.Reachable) (k : Nat) :
    ((i.setRegistry index r).registries k).Reachable := by
  by_cases hk : k = index
  · subst hk
    rwa [setRegistry_self]
  · rw [i.registries_setRegistry_of_ne hk]
    exact h k

/-- A registry changes, but not how the cache listens there, nor its engines if it is followed. -/
theorem Tidy.setRegistry (h : i.Tidy additional last) {index : Nat}
    {r : EngineRegistry Subscriber} (hr : r.Reachable)
    (hlisteners : r.listenersOf .scriptCache = (i.registries index).listenersOf .scriptCache)
    (hsnapshot : ∀ a, i.cache.phase = .active a → a.registry = index →
      r.snapshot = (i.registries index).snapshot) :
    (i.setRegistry index r).Tidy additional last := by
  refine ⟨reachable_setRegistry h.reachable hr, h.additions, fun a ha => ?_, fun hinactive => ?_,
    h.ended⟩
  · obtain ⟨hlast, he⟩ := h.engaged a ha
    have hsame : ((i.setRegistry index r).registries a.registry).snapshot =
        (i.registries a.registry).snapshot := by
      by_cases hk : a.registry = index
      · rw [hk, setRegistry_self, hsnapshot a ha hk]
      · rw [i.registries_setRegistry_of_ne hk]
    refine ⟨hlast, ha, ?_, ?_, ?_, fun k hk => ?_, he.watching, he.source⟩
    · rw [hsame, he.generation]
    · rw [he.watch]
      unfold watchFor
      rw [hsame]
    · rw [listenersOf_setRegistry hlisteners, he.own]
    · rw [listenersOf_setRegistry hlisteners, he.others k hk]
  · obtain ⟨hnone, hsubscriptions⟩ := h.detached hinactive
    exact ⟨fun k => (listenersOf_setRegistry hlisteners k).trans (hnone k), hsubscriptions⟩

/-- Somebody else comes or goes. -/
theorem Tidy.join (h : i.Tidy additional last) (index other : Nat) :
    Tidy (i.setRegistry index ((i.registries index).subscribe (.other other)).2) additional
      last := by
  refine h.setRegistry (.subscribe _ (h.reachable index)) ?_ fun _ _ _ => rfl
  rw [EngineRegistry.listenersOf_subscribe, if_neg (by simp), List.append_nil]

theorem Tidy.leave (h : i.Tidy additional last)
    (index other id : Nat) :
    Tidy (if (id, .other other) ∈ (i.registries index).listeners then i.unsubscribe index id else i)
      additional last := by
  split
  · next hid =>
      refine h.setRegistry (.unsubscribe id (h.reachable index)) ?_ fun _ _ _ => rfl
      rw [EngineRegistry.listenersOf_unsubscribe]
      refine List.filter_eq_self.mpr fun k hk => ?_
      rw [bne_iff_ne]
      rintro rfl
      exact nomatch (h.reachable index).enlisted.unique hid (EngineRegistry.mem_listenersOf.mp hk)
  · exact h

/-- A source of changes does not go away. -/
theorem isSome_rewatch (source : Option ChangeSource) (previous : Option Nat) (w : WatchSet) :
    (rewatch source previous w).2.isSome = source.isSome := by
  unfold rewatch
  cases source with
  | none => rfl
  | some s =>
      dsimp only
      split <;> rfl

theorem isSome_source_onEngines (i : Installation) (s : Snapshot) :
    (i.onEngines s).source.isSome = i.source.isSome := by
  unfold Installation.onEngines
  split
  · next a _ =>
      split
      · rfl
      · dsimp only
        split
        · rfl
        · exact isSome_rewatch _ _ _
  · rfl

/-- The cache is told of newer engines of the registry that it follows. -/
theorem Tidy.onEngines (h : i.Tidy additional last) {a : Activity}
    (ha : i.cache.phase = .active a) {r : EngineRegistry Subscriber} (hr : r.Reachable)
    (hlisteners : r.listenersOf .scriptCache =
      (i.registries a.registry).listenersOf .scriptCache)
    (hlt : (i.registries a.registry).snapshot.generation < r.snapshot.generation) :
    ((i.setRegistry a.registry r).onEngines r.snapshot).Tidy additional last := by
  obtain ⟨hlast, he⟩ := h.engaged a ha
  obtain ⟨subscription, source, hwatching, heq⟩ :=
    onEngines_newer (i := i.setRegistry a.registry r) ha (he.generation ▸ hlt)
      (watches_iff.mp he.watching)
  have hreachable := @reachable_setRegistry i a.registry r h.reachable hr
  have hsource := (i.setRegistry a.registry r).isSome_source_onEngines r.snapshot
  rw [heq] at hsource ⊢
  refine ⟨hreachable, h.additions, ?_, fun hinactive => ?_, ?_⟩
  · rintro a' ⟨⟩
    refine ⟨hlast, rfl, ?_, ?_, ?_, fun k hk => ?_, watches_iff.mpr hwatching,
      hsource.trans he.source⟩
    · dsimp only
      rw [setRegistry_self]
    · unfold watchFor ScriptCache.extensionsFor
      dsimp only
      rw [setRegistry_self, cache_setRegistry, h.additions]
    · exact (listenersOf_setRegistry hlisteners _).trans he.own
    · exact (listenersOf_setRegistry hlisteners k).trans (he.others k hk)
  · exact absurd rfl (hinactive _)
  · rintro ⟨⟩

/-- **A request to a registry**: if the cache follows it, it is told of the new engines. -/
theorem Tidy.register (h : i.Tidy additional last) (index : Nat)
    (request : Registration) : (i.register index request).2.Tidy additional last := by
  have ho := EngineRegistry.apply_outcome (i.registries index) request
  have hreachable := (h.reachable index).apply request
  have hlisteners := (i.registries index).listenersOf_apply request .scriptCache
  unfold Installation.register
  generalize (i.registries index).apply request = out at ho hreachable hlisteners ⊢
  obtain ⟨reply, r, publication⟩ := out
  dsimp only at ho hreachable hlisteners ⊢
  cases ho with
  | idle _ => exact h.setRegistry hreachable hlisteners fun _ _ _ => rfl
  | published _ =>
      have hlistens : .scriptCache ∈ (i.registries index).listeners.map Prod.snd ↔
          (i.registries index).listenersOf .scriptCache ≠ [] := by
        rw [ne_eq, EngineRegistry.listenersOf_eq_nil_iff, not_not]
      simp only [EngineRegistry.publish, deliver_eq, hlistens]
      split
      · next hsome =>
          -- Only an active cache listens, and only to the registry it follows.
          have hactive : ∃ a, i.cache.phase = .active a := by
            by_contra hinactive
            exact hsome ((h.detached fun a ha => hinactive ⟨a, ha⟩).listeners index)
          obtain ⟨a, ha⟩ := hactive
          have hindex : a.registry = index := by
            by_contra hne
            exact hsome ((h.engaged a ha).2.others index (Ne.symm hne))
          subst hindex
          exact h.onEngines ha hreachable hlisteners (Nat.lt_succ_self _)
      · next hnone =>
          refine h.setRegistry hreachable hlisteners fun a ha hindex => ?_
          subst hindex
          rw [(h.engaged a ha).2.own] at hnone
          exact absurd (List.cons_ne_nil _ _) hnone

/-! ## Beginning and end -/

/-- A cache starts to follow a registry, where it is the only one that the cache listens to. -/
theorem tidy_start {i : Installation} {registries : Nat → EngineRegistry Subscriber}
    {index listener : Nat} {previous : Option Nat} {s : Snapshot}
    (hreachable : ∀ k, (registries k).Reachable) (hsnapshot : (registries index).snapshot = s)
    (hown : (registries index).listenersOf .scriptCache = [listener])
    (hothers : ∀ k, k ≠ index → (registries k).listenersOf .scriptCache = [])
    (hadditions : i.cache.additional = additional) (hsource : i.source.isSome = true)
    (hprevious : ∀ c, i.source = some c → (c.unsubscribe? previous).subscriptions = []) :
    Tidy {
      registries
      cache := { i.cache.clear with
        phase := .active {
          generation := s.generation
          watch := ⟨i.cache.extensionsFor s⟩
          subscription := (rewatch i.source previous ⟨i.cache.extensionsFor s⟩).1
          registry := index
          listener } }
      source := (rewatch i.source previous ⟨i.cache.extensionsFor s⟩).2 } additional
      (some index) := by
  refine ⟨hreachable, hadditions, ?_, fun hinactive => ?_, ?_⟩
  · rintro a ⟨⟩
    refine ⟨rfl, rfl, ?_, ?_, hown, hothers, watches_rewatch hprevious _, ?_⟩
    · rw [← hsnapshot]
    · unfold watchFor ScriptCache.extensionsFor
      rw [← hsnapshot, ← hadditions]
    · exact (isSome_rewatch _ _ _).trans hsource
  · exact absurd rfl (hinactive _)
  · rintro ⟨⟩

/-- The registry of the latest activation only matters while the cache is active. -/
theorem Tidy.of_inactive (h : i.Tidy additional last)
    (hinactive : ∀ a, i.cache.phase ≠ .active a) (last' : Option Nat) : i.Tidy additional last' :=
  ⟨h.reachable, h.additions, fun a ha => absurd ha (hinactive a), h.detached, h.ended⟩

theorem setRegistry_setRegistry (i : Installation) (index : Nat)
    (r r' : EngineRegistry Subscriber) :
    (i.setRegistry index r).setRegistry index r' = i.setRegistry index r' := by
  unfold Installation.setRegistry
  congr 1
  funext k
  by_cases hk : k = index <;> simp [hk]

@[simp] theorem registries_unsubscribe_self (i : Installation) (index id : Nat) :
    (i.unsubscribe index id).registries index = ((i.registries index).unsubscribe id).2 :=
  setRegistry_self i index _

@[simp] theorem registries_unsubscribe_of_ne (i : Installation) {index k : Nat} (hk : k ≠ index)
    (id : Nat) : (i.unsubscribe index id).registries k = i.registries k :=
  registries_setRegistry_of_ne i hk _

/-- **An activation** makes the cache follow the registry, and no other, unless its life is over. -/
theorem Tidy.activate (h : i.Tidy additional last) (index : Nat) :
    (i.activate index).Tidy additional (some index) := by
  have hsubscribed : ((i.registries index).subscribe .scriptCache).2.Reachable :=
    .subscribe .scriptCache (h.reachable index)
  have hlisteners := (i.registries index).listenersOf_subscribe .scriptCache .scriptCache
  rw [if_pos rfl] at hlisteners
  have hreachable := @reachable_setRegistry i index _ h.reachable hsubscribed
  unfold Installation.activate
  cases hphase : i.cache.phase with
  | unconfigured =>
      have hdetached := h.detached fun a ha => nomatch hphase.symm.trans ha
      obtain ⟨s, hs, hnone⟩ := hdetached.subscriptions
      rw [hdetached.listeners index, List.nil_append] at hlisteners
      simp only [cache_setRegistry, hphase]
      refine tidy_start hreachable (by rw [setRegistry_self]) ?_ (fun k hk => ?_) h.additions ?_ ?_
      · rw [setRegistry_self]
        exact hlisteners
      · rw [i.registries_setRegistry_of_ne hk, hdetached.listeners k]
      · exact Option.isSome_iff_exists.mpr ⟨s, hs⟩
      · intro c hc
        cases hs.symm.trans hc
        exact hnone
  | disposed =>
      have hinactive : ∀ a, i.cache.phase ≠ .active a := fun a ha => nomatch hphase.symm.trans ha
      simp only [cache_setRegistry, hphase]
      unfold Installation.unsubscribe
      rw [setRegistry_self, setRegistry_setRegistry]
      refine (h.of_inactive hinactive (some index)).setRegistry (.unsubscribe _ hsubscribed) ?_
        fun _ _ _ => rfl
      rw [EngineRegistry.listenersOf_unsubscribe, hlisteners,
        (h.detached hinactive).listeners index]
      simp [EngineRegistry.subscribe]
  | active a =>
      obtain ⟨-, he⟩ := h.engaged a hphase
      simp only [cache_setRegistry, hphase]
      have hstart := @tidy_start additional i
        (((i.setRegistry index ((i.registries index).subscribe .scriptCache).2).unsubscribe
          a.registry a.listener).registries) index ((i.registries index).subscribe .scriptCache).1
        a.subscription ((i.registries index).subscribe .scriptCache).2.snapshot
      refine hstart ?_ ?_ ?_ ?_ h.additions he.source ?_
      · exact reachable_setRegistry hreachable (.unsubscribe _ (hreachable a.registry))
      · by_cases hk : index = a.registry
        · rw [← hk, registries_unsubscribe_self, setRegistry_self]
          rfl
        · rw [registries_unsubscribe_of_ne _ hk, setRegistry_self]
      · by_cases hk : index = a.registry
        · -- The new number is not the one that is given up.
          have hlt : a.listener < (i.registries index).nextListener := by
            have hmem : a.listener ∈ (i.registries index).listenersOf .scriptCache := by
              rw [hk, he.own]
              exact List.mem_singleton_self _
            exact (h.reachable index).enlisted.below _ (EngineRegistry.mem_listenersOf.mp hmem)
          rw [← hk, registries_unsubscribe_self, setRegistry_self,
            EngineRegistry.listenersOf_unsubscribe, hlisteners, hk, he.own]
          simp [EngineRegistry.subscribe, ← hk, Nat.ne_of_gt hlt]
        · rw [registries_unsubscribe_of_ne _ hk, setRegistry_self, hlisteners, he.others index hk]
          rfl
      · intro k hk
        by_cases hold : k = a.registry
        · rw [hold, registries_unsubscribe_self, registries_setRegistry_of_ne _ (hold ▸ hk),
            EngineRegistry.listenersOf_unsubscribe, he.own]
          simp
        · rw [registries_unsubscribe_of_ne _ hold, registries_setRegistry_of_ne _ hk,
            he.others k hold]
      · intro c hc
        have hwatching := he.watching
        rw [hc] at hwatching
        exact hwatching.unsubscribe

/-- **The end** leaves nobody who knows of the cache. -/
theorem Tidy.dispose (h : i.Tidy additional last) :
    i.dispose.2.Tidy additional last := by
  obtain ⟨hphase, hentries, -⟩ := i.dispose_spec 0
  have hover : ∀ a, i.dispose.2.cache.phase ≠ .active a := fun a ha => nomatch hphase.symm.trans ha
  have hadditions : i.dispose.2.cache.additional = additional := by
    unfold Installation.dispose
    refine (ScriptCache.thins_settle _).additional.trans ?_
    dsimp only
    split <;> exact h.additions
  suffices hboth : (∀ k, (i.dispose.2.registries k).Reachable) ∧ i.dispose.2.Detached from
    ⟨hboth.1, hadditions, fun a ha => absurd ha (hover a), fun _ => hboth.2, fun _ => hentries⟩
  unfold Installation.dispose
  dsimp only
  split
  · next a ha =>
      obtain ⟨-, he⟩ := h.engaged a ha
      refine ⟨reachable_setRegistry h.reachable (.unsubscribe _ (h.reachable a.registry)), ?_, ?_⟩
      · intro k
        by_cases hk : k = a.registry
        · subst hk
          refine (congrArg (·.listenersOf .scriptCache)
            (registries_unsubscribe_self _ _ _)).trans ?_
          refine (EngineRegistry.listenersOf_unsubscribe _ _ _).trans ?_
          simp [he.own]
        · refine (congrArg (·.listenersOf .scriptCache)
            (registries_unsubscribe_of_ne _ hk _)).trans ?_
          exact he.others k hk
      · obtain ⟨s, hs⟩ := Option.isSome_iff_exists.mp he.source
        have hwatching := he.watching
        rw [hs] at hwatching
        refine ⟨s.unsubscribe? a.subscription, ?_, hwatching.unsubscribe⟩
        show i.source.map (fun s : ChangeSource => s.unsubscribe? a.subscription) = _
        rw [hs]
        rfl
  · next hinactive =>
      obtain ⟨hlisteners, hsubscriptions⟩ := h.detached hinactive
      exact ⟨h.reachable, hlisteners, hsubscriptions⟩

/-- Others who subscribe to the source leave the cache's subscription as it is. -/
theorem Tidy.share (h : i.Tidy additional last) :
    Tidy { i with source := i.source.map fun s => { s with next := s.next + 1 } } additional
      last := by
  refine ⟨h.reachable, h.additions, fun a ha => ?_, fun hinactive => ?_, h.ended⟩
  · obtain ⟨hlast, he⟩ := h.engaged a ha
    obtain ⟨s, hs⟩ := Option.isSome_iff_exists.mp he.source
    have hwatching := he.watching
    rw [hs] at hwatching
    refine ⟨hlast, ha, he.generation, he.watch, he.own, he.others, ?_, ?_⟩
    · dsimp only
      rw [hs]
      exact hwatching
    · dsimp only
      rw [hs]
      rfl
  · obtain ⟨hlisteners, s, hs, hnone⟩ := h.detached hinactive
    refine ⟨hlisteners, { s with next := s.next + 1 }, ?_, hnone⟩
    dsimp only
    rw [hs]
    rfl

/-! ## Runs -/

/-- **Every turn keeps the subscriptions in order.** -/
theorem Tidy.take (h : i.Tidy additional last) (t : Turn) :
    (i.take t).Tidy additional (latest last t) := by
  cases t with
  | register index request => exact h.register index request
  | join index other => exact h.join index other
  | leave index other id => exact h.leave index other id
  | activate index => exact h.activate index
  | put s => exact h.keeps (i.cache.keeps_put s)
  | remove path => exact h.keeps (i.cache.thins_remove path).keeps
  | clear => exact h.keeps i.cache.thins_clear.keeps
  | trim keep => exact h.keeps (i.cache.thins_trim keep).keeps
  | invalidate events => exact h.keeps (i.cache.thins_invalidate events).keeps
  | onChanges events => exact h.keeps (i.cache.thins_onChanges events).keeps
  | settle => exact h.keeps i.cache.thins_settle.keeps
  | emit events =>
      obtain ⟨c, heq, hc⟩ := i.emit_keeps events
      unfold Installation.take
      dsimp only
      rw [heq]
      exact h.keeps hc
  | share => exact h.share
  | dispose => exact h.dispose

theorem Tidy.after (h : i.Tidy additional last) (turns : List Turn) :
    (i.after turns).Tidy additional (turns.foldl latest last) := by
  induction turns generalizing i last with
  | nil => exact h
  | cons t rest ih => exact ih (h.take t)

theorem after_append (i : Installation) (turns more : List Turn) :
    i.after (turns ++ more) = (i.after turns).after more :=
  List.foldl_append

/-- Nothing brings a cache back to life. -/
theorem disposed_take {i : Installation} (h : i.cache.phase = .disposed) (t : Turn) :
    (i.take t).cache.phase = .disposed := by
  have hinactive : ∀ a, i.cache.phase ≠ .active a := fun a ha => nomatch h.symm.trans ha
  cases t with
  | register index request =>
      exact (congrArg ScriptCache.phase (register_inactive hinactive index request).1).trans h
  | join index other => exact h
  | leave index other id =>
      dsimp only [Installation.take]
      split <;> exact h
  | activate index =>
      dsimp only [Installation.take, Installation.activate, cache_setRegistry]
      rw [h]
      exact h
  | put s => exact (i.cache.keeps_put s).phase.trans h
  | remove path => exact h
  | clear => exact h
  | trim keep => exact h
  | invalidate events => exact (i.cache.thins_invalidate events).phase.trans h
  | onChanges events => exact (i.cache.thins_onChanges events).phase.trans h
  | settle => exact i.cache.thins_settle.phase.trans h
  | emit events => exact (emit_disposed h events).1
  | share => exact h
  | dispose => exact (i.dispose_spec 0).1

theorem disposed_after {i : Installation} (h : i.cache.phase = .disposed) (turns : List Turn) :
    (i.after turns).cache.phase = .disposed := by
  induction turns generalizing i with
  | nil => exact h
  | cons t rest ih => exact ih (disposed_take h t)

/-- The registry that is followed knows of the cache once, and no other does. The source has one
subscription with the patterns that the cache reports, or none if there are no patterns. -/
structure Attached (i : Installation) (additional : NameSet) (index : Nat) : Prop where
  own : ∃ listener, (i.registries index).listenersOf .scriptCache = [listener]
  others : ∀ k, k ≠ index → (i.registries k).listenersOf .scriptCache = []
  subscriptions : ∃ s, i.source = some s ∧ s.subscriptions.map Prod.snd =
    if (i.watchFor additional index).patterns = [] then []
    else [(i.watchFor additional index).patterns]
  reported : i.cache.watchPatterns = (i.watchFor additional index).patterns

theorem Engaged.attached {a : Activity} (h : i.Engaged additional a) :
    i.Attached additional a.registry := by
  have hwatching := h.watching
  refine ⟨⟨a.listener, h.own⟩, h.others, ?_, ?_⟩
  · obtain ⟨s, hs⟩ := Option.isSome_iff_exists.mp h.source
    rw [hs] at hwatching
    obtain ⟨hsubscriptions, hnone⟩ := hwatching
    refine ⟨s, hs, ?_⟩
    rw [← h.watch, hsubscriptions]
    cases hid : a.subscription with
    | none => simp [hnone.mp hid]
    | some id =>
        have hpatterns : a.watch.patterns ≠ [] := by
          intro hnil
          exact nomatch hid.symm.trans (hnone.mpr hnil)
        simp [hpatterns]
  · unfold ScriptCache.watchPatterns ScriptCache.watch?
    rw [h.phase, ← h.watch]

/-- **The subscriptions of a cache follow its life**, whatever course things take around it. -/
theorem subscriptions_follow_life (h : i.Fresh) (turns : List Turn) :
    (∀ a, (i.after turns).cache.phase = .active a → ∃ index,
        lastActivated turns = some index ∧
          (i.after turns).Attached i.cache.additional index) ∧
      ((∀ a, (i.after turns).cache.phase ≠ .active a) → (i.after turns).Detached) ∧
      ((i.after turns).cache.phase = .disposed → ∀ more,
        (i.after (turns ++ more)).cache.phase = .disposed ∧
          (i.after (turns ++ more)).cache.entries = .empty) := by
  have htidy := h.tidy.after turns
  refine ⟨fun a ha => ?_, htidy.detached, fun hover more => ?_⟩
  · obtain ⟨hlast, he⟩ := htidy.engaged a ha
    exact ⟨a.registry, hlast, he.attached⟩
  · have hdisposed : (i.after (turns ++ more)).cache.phase = .disposed := by
      rw [after_append]
      exact disposed_after hover more
    exact ⟨hdisposed, (h.tidy.after (turns ++ more)).ended hdisposed⟩

end Installation

/-! ## A cache that moves -/

namespace Sample

/-- A new cache with one additional extension, among registries without engines. -/
def vacant : Installation where
  registries _ := .empty
  cache := .new 2 ["y"]
  source := some {}

/-- The cache is activated on a registry, and then on another one, which gets an engine. -/
def moves : List Turn :=
  [.activate 0, .share, .activate 1, .register 1 (.platform Template.factory 0), .join 1 0]

end Sample

namespace Installation

open Sample

theorem vacant_fresh : vacant.Fresh :=
  ⟨⟨2, ["y"], rfl⟩, fun _ => .empty, fun _ => rfl, {}, rfl, rfl⟩

/-- The cache is known where it has gone, and to nobody after its end. -/
theorem subscriptions_follow_moves :
    (vacant.after moves).Attached vacant.cache.additional 1 ∧
      (vacant.after moves).cache.watchPatterns = ["**/*.tmpl", "**/*.tpl", "**/*.y"] ∧
      (vacant.after (moves ++ [.dispose])).Detached := by
  have hactive : (vacant.after moves).cache.phase.name = "active" := by cbv
  have hover : (vacant.after (moves ++ [.dispose])).cache.phase = .disposed := by
    rw [after_append]
    exact ((vacant.after moves).dispose_spec 0).1
  obtain ⟨hattached, -, -⟩ := subscriptions_follow_life vacant_fresh moves
  obtain ⟨-, hdetached, -⟩ := subscriptions_follow_life vacant_fresh (moves ++ [.dispose])
  refine ⟨?_, by cbv, hdetached fun a ha => ?_⟩
  · cases hphase : (vacant.after moves).cache.phase with
    | active a =>
        obtain ⟨index, hindex, h⟩ := hattached a hphase
        cases hindex
        exact h
    | unconfigured =>
        rw [hphase] at hactive
        exact absurd hactive (by decide)
    | disposed =>
        rw [hphase] at hactive
        exact absurd hactive (by decide)
  · rw [ha] at hover
    cases hover

end Installation

end ScriptHost
