import ScriptHost.Cache.Lifecycle
import ScriptHost.Proofs.Cache.Following

/-! # Caches without capacity

A cache that has no capacity stays empty whatever is done to it, and in all else it does as a cache
with capacity does: it follows the same registry, watches the same paths, and has the same jobs in
its line. So everything that is done to a cache commutes with taking its capacity away. -/

namespace ScriptHost

namespace ScriptCache

/-- The same cache without capacity. -/
def bare (c : ScriptCache) : ScriptCache :=
  { c with capacity := 0, entries := .empty }

@[simp] theorem put_bare (c : ScriptCache) (x : CachedScript) : c.bare.put x = c.bare := by
  simp [put, bare]

@[simp] theorem bare_put (c : ScriptCache) (x : CachedScript) : (c.put x).bare = c.bare := by
  unfold put
  split <;> rfl

theorem trim_bare (c : ScriptCache) (keep : Nat) :
    (c.bare.trim keep).2 = (c.trim keep).2.bare := by
  have hempty : ∀ n, (OrderedMap.empty : OrderedMap String CachedScript).dropOldest n = .empty := by
    intro n
    simp [OrderedMap.dropOldest, OrderedMap.empty]
  exact congrArg (fun entries => { c.bare with entries }) (hempty _)

theorem invalidate_bare (c : ScriptCache) (events : List ChangeEvent) :
    c.bare.invalidate events = (c.invalidate events).bare := by
  have hempty : ∀ w, events.foldl (drop w) .empty = .empty := by
    intro w
    induction events with
    | nil => rfl
    | cons e es ih =>
        have hone : drop w .empty e = .empty := by
          unfold drop
          split
          · split <;> rfl
          · rfl
        rw [List.foldl_cons, hone, ih]
  have hdisposed : c.bare.isDisposed = c.isDisposed := rfl
  unfold invalidate
  rw [hdisposed]
  split
  · rfl
  · show { c.bare with entries := events.foldl (drop c.watch?) .empty } = c.bare
    rw [hempty]
    rfl

theorem settle_bare (c : ScriptCache) : c.bare.settle = c.settle.bare := by
  have hline : ∀ (batches : List (List ChangeEvent)) (c : ScriptCache),
      batches.foldl invalidate c.bare = (batches.foldl invalidate c).bare := by
    intro batches
    induction batches with
    | nil => exact fun _ => rfl
    | cons events rest ih =>
        intro c
        rw [List.foldl_cons, List.foldl_cons, invalidate_bare, ih]
  have hsame : c.bare.queue = c.queue := rfl
  unfold settle
  rw [hsame, hline]
  rfl

theorem foldl_onChanges_bare {σ : Type} (subscriptions : List σ) (events : List ChangeEvent)
    (c : ScriptCache) :
    subscriptions.foldl (fun c _ => c.onChanges events) c.bare =
      (subscriptions.foldl (fun c _ => c.onChanges events) c).bare := by
  induction subscriptions generalizing c with
  | nil => rfl
  | cons s rest ih =>
      have hone : c.bare.onChanges events = (c.onChanges events).bare := by
        unfold onChanges
        split <;> rfl
      rw [List.foldl_cons, List.foldl_cons, hone, ih]

end ScriptCache

namespace Installation

/-- The same installation with a cache without capacity. -/
def bare (i : Installation) : Installation :=
  { i with cache := i.cache.bare }

theorem onEngines_bare (i : Installation) (s : Snapshot) :
    i.bare.onEngines s = (i.onEngines s).bare := by
  have hphase : i.bare.cache.phase = i.cache.phase := rfl
  have hextensions : i.bare.cache.extensionsFor s = i.cache.extensionsFor s := rfl
  unfold onEngines
  rw [hphase]
  split
  · next a _ =>
      split
      · rfl
      · dsimp only
        rw [hextensions]
        by_cases hwatch : (⟨i.cache.extensionsFor s⟩ : WatchSet) = a.watch
        · rw [if_pos hwatch, if_pos hwatch]
          rfl
        · rw [if_neg hwatch, if_neg hwatch]
          rfl
  · rfl

theorem register_bare (i : Installation) (index : Nat) (request : Registration) :
    i.bare.register index request =
      ((i.register index request).1, (i.register index request).2.bare) := by
  have hdeliver : ∀ (j : Installation) (p : Publication Subscriber),
      j.bare.deliver p = (j.deliver p).bare := by
    intro j p
    rw [deliver_eq, deliver_eq]
    split
    · exact onEngines_bare j p.snapshot
    · rfl
  have hset : ∀ r, i.bare.setRegistry index r = (i.setRegistry index r).bare := fun _ => rfl
  have hregistry : i.bare.registries index = i.registries index := rfl
  unfold register
  rw [hregistry]
  rcases (i.registries index).apply request with ⟨reply, r, publication⟩
  dsimp only
  rw [hset]
  cases publication with
  | none => rfl
  | some p => exact congrArg (Prod.mk reply) (hdeliver (i.setRegistry index r) p)

theorem activate_bare (i : Installation) (index : Nat) :
    i.bare.activate index = (i.activate index).bare := by
  have hphase : i.bare.cache.phase = i.cache.phase := rfl
  unfold activate
  simp only [cache_setRegistry, hphase]
  cases i.cache.phase <;> rfl

theorem dispose_bare (i : Installation) : i.bare.dispose.2 = i.dispose.2.bare := by
  have hclosed := ScriptCache.settle_bare
    { i.cache.clear with phase := .disposed, queue := i.cache.queue.close }
  have hphase : i.bare.cache.phase = i.cache.phase := rfl
  unfold dispose
  rw [hphase]
  cases i.cache.phase with
  | active a =>
      exact congrArg (fun c => { Installation.unsubscribe { i with
        source := i.source.map fun (s : ChangeSource) => s.unsubscribe? a.subscription }
        a.registry a.listener with cache := c }) hclosed
  | unconfigured => exact congrArg (fun c => { i with cache := c }) hclosed
  | disposed => exact congrArg (fun c => { i with cache := c }) hclosed

theorem emit_bare (i : Installation) (events : List ChangeEvent) :
    i.bare.emit events = (i.emit events).bare := by
  have hsource : i.bare.source = i.source := rfl
  unfold emit
  rw [hsource]
  cases i.source with
  | none => rfl
  | some source =>
      have hcache : i.bare.cache = i.cache.bare := rfl
      dsimp only
      rw [hcache, ScriptCache.foldl_onChanges_bare, ScriptCache.settle_bare]
      rfl

end Installation

end ScriptHost
