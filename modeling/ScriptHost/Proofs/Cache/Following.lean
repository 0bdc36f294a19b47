import ScriptHost.Cache.Lifecycle
import ScriptHost.Proofs.Cache.Entries
import ScriptHost.Proofs.Engine.Reachable

/-! # A cache that follows a registry

While a cache is active it is up to date with one registry: it knows the generation published last,
it watches the extensions of the engines of that snapshot, and the source of changes has its one
subscription for them. `Installation.Follows` is this invariant. A request to the registry keeps it,
and either leaves snapshot and cache alone or empties the cache. -/

namespace ScriptHost

/-! ## Subscriptions -/

/-- A source of changes has one subscription for a watch set, with its patterns, or none if there
is nothing to watch. -/
def Watches (source : Option ChangeSource) (subscription : Option Nat) (w : WatchSet) : Prop :=
  match source with
  | none => subscription = none
  | some s => s.subscriptions = (subscription.map fun id => (id, w.patterns)).toList ∧
      (subscription = none ↔ w.patterns = [])

/-- The same beside the subscriptions of others, which have numbers of their own. -/
def WatchesBeside (others : List (Nat × List String)) (source : Option ChangeSource)
    (subscription : Option Nat) (w : WatchSet) : Prop :=
  match source with
  | none => subscription = none
  | some s => s.subscriptions = others ++ (subscription.map fun id => (id, w.patterns)).toList ∧
      (subscription = none ↔ w.patterns = []) ∧
      ∀ x ∈ others, x.1 < s.next ∧ subscription ≠ some x.1

theorem watches_iff {source : Option ChangeSource} {subscription : Option Nat} {w : WatchSet} :
    Watches source subscription w ↔ WatchesBeside [] source subscription w := by
  cases source with
  | none => exact Iff.rfl
  | some s => simp [Watches, WatchesBeside]

/-- Without its subscription a source has those of the others, and goes on counting. -/
theorem WatchesBeside.unsubscribe {others : List (Nat × List String)} {s : ChangeSource}
    {subscription : Option Nat} {w : WatchSet} (h : WatchesBeside others (some s) subscription w) :
    (s.unsubscribe? subscription).subscriptions = others ∧ ∀ x ∈ others, x.1 < s.next := by
  obtain ⟨hsubscriptions, -, hothers⟩ := h
  refine ⟨?_, fun x hx => (hothers x hx).1⟩
  cases subscription with
  | none => simpa [ChangeSource.unsubscribe?] using hsubscriptions
  | some id =>
      have hkept : others.filter (fun x => x.1 != id) = others := by
        refine List.filter_eq_self.mpr fun x hx => ?_
        rw [bne_iff_ne]
        rintro rfl
        exact (hothers x hx).2 rfl
      simp [ChangeSource.unsubscribe?, ChangeSource.unsubscribe, hsubscriptions, hkept]

theorem Watches.unsubscribe {s : ChangeSource} {subscription : Option Nat} {w : WatchSet}
    (h : Watches (some s) subscription w) : (s.unsubscribe? subscription).subscriptions = [] :=
  (watches_iff.mp h).unsubscribe.1

@[simp] theorem ChangeSource.next_unsubscribe? (s : ChangeSource) (previous : Option Nat) :
    (s.unsubscribe? previous).next = s.next := by
  cases previous <;> rfl

/-- Watching anew puts one subscription in the place of the one before. -/
theorem watchesBeside_rewatch {others : List (Nat × List String)} {source : Option ChangeSource}
    {previous : Option Nat}
    (h : ∀ s, source = some s →
      (s.unsubscribe? previous).subscriptions = others ∧ ∀ x ∈ others, x.1 < s.next)
    (w : WatchSet) :
    WatchesBeside others (rewatch source previous w).2 (rewatch source previous w).1 w := by
  unfold rewatch
  cases source with
  | none => exact rfl
  | some s =>
      obtain ⟨hrest, hbelow⟩ := h s rfl
      cases hp : w.patterns with
      | nil => simpa [WatchesBeside, hp, hrest] using hbelow
      | cons p ps =>
          simp only [List.isEmpty_cons, Bool.false_eq_true, if_false, ChangeSource.subscribe]
          refine ⟨by simp [hrest, hp], by simp [hp], fun x hx => ?_⟩
          have hlt := hbelow x hx
          simp only [ChangeSource.next_unsubscribe?, ne_eq, Option.some.injEq]
          omega

theorem watches_rewatch {source : Option ChangeSource} {previous : Option Nat}
    (h : ∀ s, source = some s → (s.unsubscribe? previous).subscriptions = []) (w : WatchSet) :
    Watches (rewatch source previous w).2 (rewatch source previous w).1 w := by
  refine watches_iff.mpr (watchesBeside_rewatch ?_ w)
  intro s hs
  exact ⟨h s hs, by simp⟩

namespace Installation

@[simp] theorem setRegistry_self (i : Installation) (index : Nat) (r : EngineRegistry Subscriber) :
    (i.setRegistry index r).registries index = r := by
  simp [setRegistry]

@[simp] theorem cache_setRegistry (i : Installation) (index : Nat) (r : EngineRegistry Subscriber) :
    (i.setRegistry index r).cache = i.cache := rfl

/-! ## Being told of engines -/

@[simp] theorem registries_onEngines (i : Installation) (s : Snapshot) :
    (i.onEngines s).registries = i.registries := by
  unfold onEngines
  split
  · split
    · rfl
    · dsimp only
      split <;> rfl
  · rfl

/-- Being told of the same engines again changes nothing. -/
theorem onEngines_onEngines (i : Installation) (s : Snapshot) :
    (i.onEngines s).onEngines s = i.onEngines s := by
  have hold : ∀ {j : Installation} {a : Activity}, j.cache.phase = .active a →
      s.generation ≤ a.generation → j.onEngines s = j := by
    intro j a hphase hle
    unfold onEngines
    rw [hphase]
    simp [hle]
  cases hphase : i.cache.phase with
  | active a =>
      by_cases hle : s.generation ≤ a.generation
      · rw [hold hphase hle, hold hphase hle]
      · have hnew : ∃ a', (i.onEngines s).cache.phase = .active a' ∧
            a'.generation = s.generation := by
          unfold onEngines
          rw [hphase]
          simp only [if_neg hle]
          split
          · exact ⟨_, rfl, rfl⟩
          · exact ⟨_, rfl, rfl⟩
        obtain ⟨a', hphase', hgeneration⟩ := hnew
        exact hold hphase' (Nat.le_of_eq hgeneration.symm)
  | unconfigured =>
      have hself : i.onEngines s = i := by
        unfold onEngines
        rw [hphase]
      rw [hself, hself]
  | disposed =>
      have hself : i.onEngines s = i := by
        unfold onEngines
        rw [hphase]
      rw [hself, hself]

/-- What an active cache does when it is told of newer engines: it forgets its scripts, and watches
what these engines compile. -/
theorem onEngines_newer {i : Installation} {a : Activity} {s : Snapshot}
    {others : List (Nat × List String)} (hphase : i.cache.phase = .active a)
    (hlt : a.generation < s.generation)
    (hwatching : WatchesBeside others i.source a.subscription a.watch) :
    ∃ subscription source, WatchesBeside others source subscription ⟨i.cache.extensionsFor s⟩ ∧
      i.onEngines s = { i with
        cache := { i.cache.clear with
          phase := .active { a with
            generation := s.generation
            watch := ⟨i.cache.extensionsFor s⟩
            subscription } }
        source } := by
  have hle : ¬ s.generation ≤ a.generation := by omega
  unfold onEngines
  rw [hphase]
  simp only [if_neg hle]
  split
  · next hsame => exact ⟨a.subscription, i.source, hsame ▸ hwatching, by rw [hsame]⟩
  · refine ⟨_, _, watchesBeside_rewatch ?_ _, rfl⟩
    intro source hsource
    rw [hsource] at hwatching
    exact hwatching.unsubscribe

/-- However often a cache is among the recipients, it is told once. -/
theorem deliver_eq (i : Installation) (p : Publication Subscriber) :
    i.deliver p = if .scriptCache ∈ p.recipients then i.onEngines p.snapshot else i := by
  unfold deliver
  generalize p.snapshot = s
  -- The first time it is told counts; after that the snapshot is not newer than the last.
  induction p.recipients generalizing i with
  | nil => rfl
  | cons recipient rest ih =>
      rw [List.foldl_cons, ih]
      cases recipient with
      | scriptCache =>
          rw [if_pos List.mem_cons_self]
          split
          · exact onEngines_onEngines i s
          · rfl
      | other k => simp

/-! ## The invariant -/

/-- A cache is active and up to date with a registry. -/
structure Follows (i : Installation) (index : Nat) (a : Activity) : Prop where
  phase : i.cache.phase = .active a
  registry : a.registry = index
  generation : a.generation = (i.registries index).snapshot.generation
  watch : a.watch = ⟨i.cache.extensionsFor (i.registries index).snapshot⟩
  listens : .scriptCache ∈ (i.registries index).listeners.map Prod.snd
  watching : Watches i.source a.subscription a.watch
  queue : i.cache.queue.IsReady

/-- A new cache follows the registry that it is activated on. -/
theorem follows_activate {i : Installation} (hphase : i.cache.phase = .unconfigured)
    (hqueue : i.cache.queue.IsReady) (hsource : ∀ s, i.source = some s → s.subscriptions = [])
    (index : Nat) :
    (∃ a, (i.activate index).Follows index a) ∧ (i.activate index).cache.entries = .empty ∧
      (i.activate index).registries index = ((i.registries index).subscribe .scriptCache).2 := by
  have hwatching := @watches_rewatch i.source none hsource
  unfold activate
  simp only [cache_setRegistry, hphase]
  refine ⟨⟨_, rfl, rfl, ?_, ?_, ?_, hwatching _, hqueue⟩, rfl, ?_⟩
  · simp
  · simp [ScriptCache.extensionsFor, ScriptCache.clear]
  · simp [EngineRegistry.subscribe]
  · simp

/-- **A newer snapshot empties the cache and is followed.** -/
theorem Follows.onEngines {i : Installation} {index : Nat} {a : Activity} (h : i.Follows index a)
    {r : EngineRegistry Subscriber} (hlistens : .scriptCache ∈ r.listeners.map Prod.snd)
    (hlt : (i.registries index).snapshot.generation < r.snapshot.generation) :
    ((i.setRegistry index r).onEngines r.snapshot).cache.entries = .empty ∧
      ∃ a', ((i.setRegistry index r).onEngines r.snapshot).Follows index a' := by
  have hphase : (i.setRegistry index r).cache.phase = .active a := h.phase
  obtain ⟨subscription, source, hwatching, hj⟩ :=
    onEngines_newer hphase (h.generation ▸ hlt) (watches_iff.mp h.watching)
  rw [hj]
  refine ⟨rfl, _, rfl, h.registry, ?_, ?_, ?_, watches_iff.mpr hwatching, h.queue⟩
  · simp
  · simp [ScriptCache.extensionsFor, ScriptCache.clear]
  · simpa using hlistens

/-- **A request to the registry that is followed** leaves snapshot and cache as they are, or empties
the cache and is followed. -/
theorem Follows.register {i : Installation} {index : Nat} {a : Activity} (h : i.Follows index a)
    (request : Registration) :
    ((i.register index request).2.cache = i.cache ∧
        ((i.register index request).2.registries index).snapshot =
          (i.registries index).snapshot ∧
        (i.register index request).2.Follows index a) ∨
      ((i.register index request).2.cache.entries = .empty ∧
        ∃ a', (i.register index request).2.Follows index a') := by
  have ho := EngineRegistry.apply_outcome (i.registries index) request
  unfold Installation.register
  generalize (i.registries index).apply request = out at ho ⊢
  obtain ⟨reply, r, publication⟩ := out
  dsimp only at ho ⊢
  cases ho with
  | idle _ =>
      refine .inl ⟨rfl, by simp, ?_⟩
      exact ⟨h.phase, h.registry, by simpa using h.generation, by simpa using h.watch,
        by simpa using h.listens, h.watching, h.queue⟩
  | published _ =>
      have hlistens : .scriptCache ∈ (i.registries index).listeners.map Prod.snd := h.listens
      right
      simp only [EngineRegistry.publish, deliver_eq, if_pos hlistens]
      exact h.onEngines hlistens (Nat.lt_succ_self _)

/-- A cache that is not active does not notice requests. -/
theorem register_inactive {i : Installation} (h : ∀ a, i.cache.phase ≠ .active a) (index : Nat)
    (request : Registration) :
    (i.register index request).2.cache = i.cache ∧
      (i.register index request).2.source = i.source := by
  have hself : ∀ (r : EngineRegistry Subscriber) (s : Snapshot),
      (i.setRegistry index r).onEngines s = i.setRegistry index r := by
    intro r s
    unfold Installation.onEngines
    split
    · next a ha => exact absurd ha (h a)
    · rfl
  unfold Installation.register
  rcases (i.registries index).apply request with ⟨reply, r, publication⟩
  cases publication with
  | none => exact ⟨rfl, rfl⟩
  | some p =>
      dsimp only
      rw [deliver_eq, hself]
      split <;> exact ⟨rfl, rfl⟩

theorem registries_register (i : Installation) (index : Nat) (request : Registration) :
    (i.register index request).2.registries index = ((i.registries index).apply request).2.1 := by
  unfold Installation.register
  rcases (i.registries index).apply request with ⟨reply, r, publication⟩
  cases publication with
  | none => simp
  | some p =>
      dsimp only
      rw [deliver_eq]
      split <;> simp

/-- Which scripts are cached does not matter for the invariant. -/
theorem Follows.withEntries {i : Installation} {index : Nat} {a : Activity} (h : i.Follows index a)
    {c : ScriptCache} (hc : c = { i.cache with entries := c.entries }) :
    Follows { i with cache := c } index a := by
  rw [hc]
  exact ⟨h.phase, h.registry, h.generation, h.watch, h.listens, h.watching, h.queue⟩

/-! ## Reports -/

theorem Follows.isDisposed {i : Installation} {index : Nat} {a : Activity} (h : i.Follows index a) :
    i.cache.isDisposed = false := by
  unfold ScriptCache.isDisposed
  rw [h.phase]

theorem Follows.watch? {i : Installation} {index : Nat} {a : Activity} (h : i.Follows index a) :
    i.cache.watch? = some a.watch := by
  unfold ScriptCache.watch?
  rw [h.phase]

/-- What is cached after a batch has been reported: what was, but for what the batch hits if there
is a subscription for it. -/
theorem Follows.emit {i : Installation} {index : Nat} {a : Activity} (h : i.Follows index a)
    (events : List ChangeEvent) :
    (i.emit events).Follows index a ∧ ∀ path, (i.emit events).cache.get? path =
      if i.source.isSome ∧ a.watch.patterns ≠ [] ∧
          (events.any fun e => e.hits (some a.watch) path) = true then none
      else i.cache.get? path := by
  have hwatching := h.watching
  unfold Installation.emit
  cases hsource : i.source with
  | none => exact ⟨h, by simp⟩
  | some source =>
      rw [hsource] at hwatching
      -- The background gets a copy of the batch for each subscription, of which there is at most one.
      obtain ⟨q, copies, hfold, hentering, hrunning, hclosed, hline, hcopies⟩ :=
        ScriptCache.foldl_onChanges source.subscriptions events h.queue.entering h.queue.closed
      rw [h.queue.line, List.nil_append] at hline
      rw [h.queue.running] at hrunning
      dsimp only
      rw [hfold]
      have hsettled : ({ i.cache with queue := q } : ScriptCache).settle = { i.cache with
          entries := ((List.replicate copies events).foldl ScriptCache.invalidate
            { i.cache with queue := q }).entries
          queue := q.settle (fun _ => false) (fun _ => false) } := by
        unfold ScriptCache.settle
        rw [ScriptCache.foldl_invalidate_eq]
        simp only [hline]
      rw [hsettled]
      refine ⟨⟨h.phase, h.registry, h.generation, h.watch, h.listens, ?_, ?_⟩, ?_⟩
      · exact hwatching
      · exact BackgroundQueue.settle_ready _ hentering hrunning hclosed
      · intro path
        have hget := ScriptCache.get?_foldl_invalidate
          (c := { i.cache with queue := q }) h.isDisposed (List.replicate copies events) path
        refine hget.trans ?_
        have hwatch' : ({ i.cache with queue := q } : ScriptCache).watch? = some a.watch := h.watch?
        rw [hwatch', Option.isSome_some]
        cases hhit : events.any fun e => e.hits (some a.watch) path with
        | false => simp [List.any_replicate, hhit, ScriptCache.get?]
        | true =>
            have hevents : events ≠ [] := by
              rintro rfl
              cases hhit
            have hcount : copies = 0 ↔ a.watch.patterns = [] := by
              rw [hcopies hevents, hwatching.1, ← hwatching.2]
              cases a.subscription <;> simp
            rw [List.any_replicate, hhit]
            simp [hcount, ScriptCache.get?]

/-- A disposed cache does not notice reports. -/
theorem emit_disposed {i : Installation} (h : i.cache.phase = .disposed)
    (events : List ChangeEvent) :
    (i.emit events).cache.phase = .disposed ∧
      (i.emit events).cache.entries = i.cache.entries := by
  have hqueue : ∀ (subscriptions : List (Nat × List String)) (c : ScriptCache),
      c.phase = .disposed →
      (subscriptions.foldl (fun c _ => c.onChanges events) c).phase = .disposed ∧
        (subscriptions.foldl (fun c _ => c.onChanges events) c).entries = c.entries := by
    intro subscriptions
    induction subscriptions with
    | nil => exact fun c hc => ⟨hc, rfl⟩
    | cons s rest ih =>
        intro c hc
        have hone : (c.onChanges events).phase = .disposed ∧
            (c.onChanges events).entries = c.entries := by
          unfold ScriptCache.onChanges
          split <;> exact ⟨hc, rfl⟩
        obtain ⟨hphase, hentries⟩ := ih (c.onChanges events) hone.1
        exact ⟨hphase, hentries.trans hone.2⟩
  unfold Installation.emit
  cases i.source with
  | none => exact ⟨h, rfl⟩
  | some source =>
      obtain ⟨hphase, hentries⟩ := hqueue source.subscriptions i.cache h
      dsimp only
      unfold ScriptCache.settle
      rw [ScriptCache.foldl_invalidate_disposed _ hphase]
      exact ⟨hphase, hentries⟩

@[simp] theorem registries_emit (i : Installation) (events : List ChangeEvent) :
    (i.emit events).registries = i.registries := by
  unfold Installation.emit
  split <;> rfl

/-! ## The end -/

/-- The end of a cache leaves it disposed and empty, and of the registries at most a listener less. -/
theorem dispose_spec (i : Installation) (index : Nat) :
    i.dispose.2.cache.phase = .disposed ∧ i.dispose.2.cache.entries = .empty ∧
      (i.dispose.2.registries index = i.registries index ∨
        ∃ listener, i.dispose.2.registries index =
          ((i.registries index).unsubscribe listener).2) := by
  have hclosed : ∀ c : ScriptCache, c.phase = .disposed → c.settle.phase = .disposed ∧
      c.settle.entries = c.entries := by
    intro c hc
    unfold ScriptCache.settle
    rw [ScriptCache.foldl_invalidate_disposed _ hc]
    exact ⟨hc, rfl⟩
  unfold Installation.dispose
  dsimp only
  refine ⟨(hclosed _ rfl).1, (hclosed _ rfl).2, ?_⟩
  split
  · next a _ =>
      by_cases hindex : index = a.registry
      · subst hindex
        exact .inr ⟨a.listener, by simp [Installation.unsubscribe]⟩
      · exact .inl (by simp [Installation.unsubscribe, setRegistry, hindex])
  · exact .inl rfl

end Installation

end ScriptHost
