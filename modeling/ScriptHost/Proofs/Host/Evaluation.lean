import ScriptHost.Evaluation
import ScriptHost.Proofs.Cache.Bare
import ScriptHost.Proofs.World.Blind

/-! # What an evaluation does to cache and sources

Without a method call, an engine that compiles takes the compiled form from the cache. Only if it is
missing there the source is opened and compiled, and only a form that has just been made is put into
the cache. All else that an evaluation does is blind, so it is the same for a cache and for none as
long as what the cache holds is what would be made anew. -/

namespace ScriptHost

/-- Whether an engine runs a script by way of its compiled form. -/
def Descriptor.RunsCompiled (d : Descriptor) (method : Option MethodCall)
    (compiler : Source → Except EngineError (Context → Session Data)) : Prop :=
  method = none ∧ d.supportsCompilation = true ∧ d.factory.engine.compile? = some compiler

/-- What a compiler makes of a script that opens like this, for a registration. -/
def compiledBy? (id : Nat) (compiler : Source → Except EngineError (Context → Session Data))
    (opening : Except String Source) : Option Program :=
  match opening with
  | .error _ => none
  | .ok body =>
    match compiler body with
    | .error _ => none
    | .ok run => some ⟨id, run⟩

/-- The compiled form that an engine would run, if it runs one and can make it. -/
def Descriptor.compiled? (d : Descriptor) (method : Option MethodCall)
    (opening : Except String Source) : Option Program :=
  match method, d.supportsCompilation, d.factory.engine.compile? with
  | none, true, some compiler => compiledBy? d.id compiler opening
  | _, _, _ => none

theorem Descriptor.RunsCompiled.compiled?_eq {d : Descriptor} {method : Option MethodCall}
    {compiler : Source → Except EngineError (Context → Session Data)}
    (h : d.RunsCompiled method compiler) (opening : Except String Source) :
    d.compiled? method opening = compiledBy? d.id compiler opening := by
  obtain ⟨hmethod, hcompiles, hcompiler⟩ := h
  unfold Descriptor.compiled?
  rw [hmethod, hcompiles, hcompiler]

theorem Descriptor.compiled?_of_direct {d : Descriptor} {method : Option MethodCall}
    (h : ∀ compiler, ¬ d.RunsCompiled method compiler) (opening : Except String Source) :
    d.compiled? method opening = none := by
  unfold Descriptor.compiled?
  split
  · next compiler hcompiles hcompiler => exact absurd ⟨rfl, hcompiles, hcompiler⟩ (h compiler)
  · rfl

/-- What opening and compiling a source that opens like this leaves among the readings. -/
def Descriptor.readingsOf (d : Descriptor) (source : ResourceId) (opening : Except String Source) :
    Journal :=
  .openResource source ::
    match opening with
    | .ok _ => [.compile d.factory.id]
    | .error _ => []

theorem compiledBy?_id {id : Nat} {compiler : Source → Except EngineError (Context → Session Data)}
    {opening : Except String Source} {program : Program}
    (h : compiledBy? id compiler opening = some program) : program.compiledBy = id := by
  unfold compiledBy? at h
  split at h
  · cases h
  · split at h
    · cases h
    · cases h
      rfl

theorem Descriptor.runsCompiled_of_compiled? {d : Descriptor} {method : Option MethodCall}
    {opening : Except String Source} {program : Program}
    (h : d.compiled? method opening = some program) :
    ∃ compiler, d.RunsCompiled method compiler ∧
      compiledBy? d.id compiler opening = some program := by
  unfold Descriptor.compiled? at h
  split at h
  · next compiler hcompiles hcompiler => exact ⟨compiler, ⟨rfl, hcompiles, hcompiler⟩, h⟩
  · cases h

namespace Stage

open World (Blind)

/-! ## Compiled forms -/

/-- Opening a source is noted among the readings. -/
theorem readings_openResource (w : World) (around : Surroundings) (r : ResourceId) :
    (w.openResource around r).2.readings = w.readings ++ [.openResource r] := by
  unfold World.openResource
  dsimp only
  split <;> exact World.readings_record w (.openResource r)

theorem shown_openResource (w : World) (around : Surroundings) (r : ResourceId) :
    (w.openResource around r).2.shown = w.shown := by
  unfold World.openResource
  dsimp only
  split <;> exact World.shown_record_reading w rfl

theorem openResource_fst (w : World) (around : Surroundings) (r : ResourceId) :
    (w.openResource around r).1 = (around.resource r).opening.mapError .io := by
  unfold World.openResource
  dsimp only
  split <;> next h => rw [h]; rfl

/-- What compiling a script at a path comes to: the form, the cache, and the world. -/
theorem compile_spec (s : Stage) (around : Surroundings) (d : Descriptor)
    (compiler : Source → Except EngineError (Context → Session Data)) (path : String)
    (source : ResourceId) :
    let r := s.compile around d compiler path source
    r.1 = ((around.resource source).opening.mapError .io).bind
        (fun body => (compiler body).map fun run => ⟨d.id, run⟩) ∧
      r.2.cache = (match compiledBy? d.id compiler (around.resource source).opening with
        | some program => s.cache.map (·.put ⟨path, program⟩)
        | none => s.cache) ∧
      r.2.world.shown = s.world.shown ∧
      r.2.world.readings = s.world.readings ++
        d.readingsOf source (around.resource source).opening := by
  have hopen := openResource_fst s.world around source
  have hshown := shown_openResource s.world around source
  have hreadings := readings_openResource s.world around source
  unfold compile open_
  rcases hr : s.world.openResource around source with ⟨result, w⟩
  rw [hr] at hopen hshown hreadings
  cases ho : (around.resource source).opening with
  | error fault =>
      rw [ho] at hopen
      cases hopen
      exact ⟨rfl, rfl, hshown, hreadings⟩
  | ok body =>
      rw [ho] at hopen
      cases hopen
      have hshown' : (w.record (.compile d.factory.id)).shown = s.world.shown :=
        (World.shown_record_reading w rfl).trans hshown
      have hreadings' : (w.record (.compile d.factory.id)).readings =
          s.world.readings ++ [.openResource source, .compile d.factory.id] := by
        rw [World.readings_record, hreadings]
        simp [Event.isReading]
      dsimp only
      cases hc : compiler body with
      | error e =>
          refine ⟨?_, ?_, hshown', hreadings'⟩
          · simp [Except.mapError, Except.bind, hc, Except.map]
          · simp [compiledBy?, hc]
      | ok run =>
          refine ⟨?_, ?_, hshown', hreadings'⟩
          · simp [Except.mapError, Except.bind, hc, Except.map]
          · simp [compiledBy?, hc]

/-! ## Performing -/

theorem cache_demandEngine (s : Stage) (d : Descriptor) : (s.demandEngine d).cache = s.cache := by
  unfold demandEngine
  split <;> rfl

theorem readings_demandEngine (s : Stage) (d : Descriptor) :
    (s.demandEngine d).world.readings = s.world.readings := by
  unfold demandEngine
  split
  · rfl
  · exact (World.readings_record _ _).trans (List.append_nil _)

/-- An engine that has been made before shows, so it is made in both of two worlds or in none. -/
theorem shown_demandEngine {s t : Stage} (h : s.world.shown = t.world.shown) (d : Descriptor) :
    (s.demandEngine d).world.shown = (t.demandEngine d).world.shown := by
  have hmade : ∀ w : World, w.journal.contains (.makeEngine d.factory.id d.id) =
      w.shown.journal.contains (.makeEngine d.factory.id d.id) := by
    intro w
    rw [Bool.eq_iff_iff, List.contains_iff_mem, List.contains_iff_mem]
    show _ ↔ _ ∈ w.journal.filter _
    rw [List.mem_filter]
    exact ⟨fun hmem => ⟨hmem, rfl⟩, fun hmem => hmem.1⟩
  have hrecord : ∀ w : World, (w.record (.makeEngine d.factory.id d.id)).shown =
      w.shown.record (.makeEngine d.factory.id d.id) := by
    intro w
    simp [World.shown, World.record, Event.isReading]
  unfold demandEngine
  rw [hmade s.world, hmade t.world, h]
  split
  · exact h
  · show (s.world.record _).shown = (t.world.record _).shown
    rw [hrecord, hrecord, h]

/-- What an engine does with the source of a script when it does not run a compiled form. -/
def directSession (d : Descriptor) (method : Option MethodCall) (ctx : Context) (body : Source) :
    Session Data :=
  match method with
  | some call => callSession d body ctx call
  | none => (d.factory.engine.evaluate body ctx).map Evaluated.value

theorem perform_of_direct {d : Descriptor} {method : Option MethodCall}
    (h : ∀ compiler, ¬ d.RunsCompiled method compiler) (s : Stage) (around : Surroundings)
    (path : String) (source : ResourceId) (ctx : Context) :
    s.perform around d path source method ctx =
      match (s.demandEngine d).open_ around source with
      | (.error e, s) => (.error e, s)
      | (.ok body, s) => s.run around (directSession d method ctx body) := by
  unfold perform directSession
  cases method with
  | some call => rfl
  | none =>
      dsimp only
      split
      · next compiler hcompiles hcompiler => exact absurd ⟨rfl, hcompiles, hcompiler⟩ (h compiler)
      · rfl

theorem perform_of_hit {d : Descriptor} {method : Option MethodCall}
    {compiler : Source → Except EngineError (Context → Session Data)}
    (h : d.RunsCompiled method compiler) {s : Stage} {path : String} {x : CachedScript}
    (hx : s.cache.bind (·.get? path) = some x) (around : Surroundings) (source : ResourceId)
    (ctx : Context) :
    s.perform around d path source method ctx =
      (s.demandEngine d).run around (x.program.run ctx) := by
  obtain ⟨rfl, hcompiles, hcompiler⟩ := h
  unfold perform programFor
  simp only [cache_demandEngine, hx, hcompiles, hcompiler]

theorem perform_of_miss {d : Descriptor} {method : Option MethodCall}
    {compiler : Source → Except EngineError (Context → Session Data)}
    (h : d.RunsCompiled method compiler) {s : Stage} {path : String}
    (hx : s.cache.bind (·.get? path) = none) (around : Surroundings) (source : ResourceId)
    (ctx : Context) :
    s.perform around d path source method ctx =
      match (s.demandEngine d).compile around d compiler path source with
      | (.error e, s) => (.error e, s)
      | (.ok program, s) => s.run around (program.run ctx) := by
  obtain ⟨rfl, hcompiles, hcompiler⟩ := h
  have hprogram : (s.demandEngine d).programFor around d compiler path source =
      (s.demandEngine d).compile around d compiler path source := by
    unfold programFor
    rw [cache_demandEngine, hx]
  unfold perform
  rcases hmade : (s.demandEngine d).compile around d compiler path source with ⟨e | program, t⟩
  · simp only [hcompiles, hcompiler, hprogram, hmade]
  · simp only [hcompiles, hcompiler, hprogram, hmade]

/-- **What an evaluation does to the cache**: a compiled form that was missing and can be made is
put there, and nothing else happens. -/
theorem cache_perform (s : Stage) (around : Surroundings) (d : Descriptor) (path : String)
    (source : ResourceId) (method : Option MethodCall) (ctx : Context) :
    (s.perform around d path source method ctx).2.cache =
      match s.cache.bind (·.get? path), d.compiled? method (around.resource source).opening with
      | none, some program => s.cache.map (·.put ⟨path, program⟩)
      | _, _ => s.cache := by
  by_cases h : ∃ compiler, d.RunsCompiled method compiler
  · obtain ⟨compiler, h⟩ := h
    cases hx : s.cache.bind (·.get? path) with
    | some x =>
        rw [perform_of_hit h hx]
        exact cache_demandEngine s d
    | none =>
        obtain ⟨_, hcache, _, _⟩ := (s.demandEngine d).compile_spec around d compiler path source
        rw [perform_of_miss h hx, h.compiled?_eq]
        rw [cache_demandEngine] at hcache
        rcases hr : (s.demandEngine d).compile around d compiler path source with ⟨_ | program, t⟩
        · rw [hr] at hcache
          show t.cache = _
          refine hcache.trans ?_
          cases compiledBy? d.id compiler (around.resource source).opening <;> rfl
        · rw [hr] at hcache
          show t.cache = _
          refine hcache.trans ?_
          cases compiledBy? d.id compiler (around.resource source).opening <;> rfl
  · have h' : ∀ compiler, ¬ d.RunsCompiled method compiler := fun compiler hc => h ⟨compiler, hc⟩
    have hopen : ((s.demandEngine d).open_ around source).2.cache = s.cache :=
      cache_demandEngine s d
    have hsame : (match s.cache.bind (·.get? path), (none : Option Program) with
        | none, some program => s.cache.map (·.put ⟨path, program⟩)
        | _, _ => s.cache) = s.cache := by
      cases s.cache.bind (·.get? path) <;> rfl
    rw [perform_of_direct h', Descriptor.compiled?_of_direct h', hsame]
    rcases hr : (s.demandEngine d).open_ around source with ⟨_ | body, t⟩
    · rw [hr] at hopen
      exact hopen
    · rw [hr] at hopen
      exact hopen

/-- An evaluation that finds the compiled form does not look at the source. -/
theorem readings_of_hit {d : Descriptor} {method : Option MethodCall}
    {compiler : Source → Except EngineError (Context → Session Data)}
    (h : d.RunsCompiled method compiler) {s : Stage} {path : String} {x : CachedScript}
    (hx : s.cache.bind (·.get? path) = some x) (around : Surroundings) (source : ResourceId)
    (ctx : Context) :
    (s.perform around d path source method ctx).2.world.readings = s.world.readings := by
  rw [perform_of_hit h hx]
  exact ((World.blind_run around _).readings_eq _).trans (readings_demandEngine s d)

/-- One that does not find it opens the source, and compiles it if it can be opened. -/
theorem readings_of_miss {d : Descriptor} {method : Option MethodCall}
    {compiler : Source → Except EngineError (Context → Session Data)}
    (h : d.RunsCompiled method compiler) {s : Stage} {path : String}
    (hx : s.cache.bind (·.get? path) = none) (around : Surroundings) (source : ResourceId)
    (ctx : Context) :
    (s.perform around d path source method ctx).2.world.readings =
      s.world.readings ++ d.readingsOf source (around.resource source).opening := by
  obtain ⟨_, _, _, hreadings⟩ := (s.demandEngine d).compile_spec around d compiler path source
  rw [readings_demandEngine] at hreadings
  rw [perform_of_miss h hx]
  rcases hr : (s.demandEngine d).compile around d compiler path source with ⟨_ | program, t⟩
  · rw [hr] at hreadings
    exact hreadings
  · rw [hr] at hreadings
    exact ((World.blind_run around _).readings_eq _).trans hreadings

/-! ## With and without a cache -/

/-- Two stages with worlds that show the same, of which the second has no capacity to cache. -/
structure Alike (c : ScriptCache) (s t : Stage) : Prop where
  cache : ∃ c', s.cache = some c' ∧ c'.bare = c.bare
  bare : t.cache = some c.bare
  world : s.world.shown = t.world.shown

/-- A blind course of steps keeps stages alike and comes to the same. -/
theorem Alike.run {c : ScriptCache} {s t : Stage} (h : Alike c s t) (around : Surroundings)
    (session : Session Data) :
    (s.run around session).1 = (t.run around session).1 ∧
      Alike c (s.run around session).2 (t.run around session).2 := by
  obtain ⟨hresult, hworld⟩ := (World.blind_run around session).shown_eq h.world
  exact ⟨hresult, h.cache, h.bare, hworld⟩

theorem Alike.open_ {c : ScriptCache} {s t : Stage} (h : Alike c s t) (around : Surroundings)
    (source : ResourceId) :
    (s.open_ around source).1 = (t.open_ around source).1 ∧
      Alike c (s.open_ around source).2 (t.open_ around source).2 := by
  refine ⟨?_, h.cache, h.bare, ?_⟩
  · exact (openResource_fst s.world around source).trans
      (openResource_fst t.world around source).symm
  · exact (shown_openResource s.world around source).trans
      (h.world.trans (shown_openResource t.world around source).symm)

/-- Where both compile they come to the same, though only one keeps it. -/
theorem Alike.compile {c : ScriptCache} {s t : Stage} (h : Alike c s t) (around : Surroundings)
    (d : Descriptor) (compiler : Source → Except EngineError (Context → Session Data))
    (path : String) (source : ResourceId) :
    (s.compile around d compiler path source).1 = (t.compile around d compiler path source).1 ∧
      Alike c (s.compile around d compiler path source).2
        (t.compile around d compiler path source).2 := by
  obtain ⟨sresult, scache, sshown, _⟩ := s.compile_spec around d compiler path source
  obtain ⟨tresult, tcache, tshown, _⟩ := t.compile_spec around d compiler path source
  obtain ⟨c', hc', hbare⟩ := h.cache
  refine ⟨sresult.trans tresult.symm, ?_, ?_, sshown.trans (h.world.trans tshown.symm)⟩
  · rw [scache, hc']
    cases compiledBy? d.id compiler (around.resource source).opening with
    | none => exact ⟨c', rfl, hbare⟩
    | some program => exact ⟨c'.put ⟨path, program⟩, rfl, (ScriptCache.bare_put c' _).trans hbare⟩
  · rw [tcache, h.bare]
    cases compiledBy? d.id compiler (around.resource source).opening with
    | none => rfl
    | some program => exact congrArg some (ScriptCache.put_bare c _)

theorem compile_fst_of_compiledBy? {d : Descriptor}
    {compiler : Source → Except EngineError (Context → Session Data)} {around : Surroundings}
    {source : ResourceId} {program : Program}
    (h : compiledBy? d.id compiler (around.resource source).opening = some program) (s : Stage)
    (path : String) : (s.compile around d compiler path source).1 = .ok program := by
  obtain ⟨hresult, _⟩ := s.compile_spec around d compiler path source
  rw [hresult]
  unfold compiledBy? at h
  split at h
  · cases h
  · next body hopening =>
      split at h
      · cases h
      · next run hrun =>
          cases h
          simp [hopening, hrun, Except.mapError, Except.bind, Except.map]

/-- **Evaluating with a cache is like evaluating with none**, if what is found in the cache is what
the engine would make. -/
theorem perform_alike {c : ScriptCache} {s t : Stage} (hs : s.cache = some c)
    (ht : t.cache = some c.bare) (hworld : s.world.shown = t.world.shown)
    (around : Surroundings) (d : Descriptor) (path : String) (source : ResourceId)
    (method : Option MethodCall) (ctx : Context)
    (hown : ∀ compiler x, d.RunsCompiled method compiler → c.get? path = some x →
      compiledBy? d.id compiler (around.resource source).opening = some x.program) :
    (s.perform around d path source method ctx).1 = (t.perform around d path source method ctx).1 ∧
      Alike c (s.perform around d path source method ctx).2
        (t.perform around d path source method ctx).2 := by
  have hdemand : Alike c (s.demandEngine d) (t.demandEngine d) :=
    ⟨⟨c, (cache_demandEngine s d).trans hs, rfl⟩, (cache_demandEngine t d).trans ht,
      shown_demandEngine hworld d⟩
  by_cases h : ∃ compiler, d.RunsCompiled method compiler
  · obtain ⟨compiler, h⟩ := h
    have hmiss : t.cache.bind (·.get? path) = none := by
      rw [ht]
      rfl
    obtain ⟨hresult, hafter⟩ := hdemand.compile around d compiler path source
    rw [perform_of_miss h hmiss]
    cases hx : s.cache.bind (·.get? path) with
    | some x =>
        rw [hs] at hx
        -- Without a cache the engine makes just the form that is found with one.
        have hmade := compile_fst_of_compiledBy? (hown compiler x h hx) (t.demandEngine d) path
        have hbare := hafter.bare
        have hshown := (t.demandEngine d).compile_spec around d compiler path source |>.2.2.1
        rw [perform_of_hit h (by rw [hs]; exact hx)]
        rcases hr : (t.demandEngine d).compile around d compiler path source with ⟨result, t'⟩
        rw [hr] at hmade hbare hshown
        cases hmade
        have halike : Alike c (s.demandEngine d) t' :=
          ⟨hdemand.cache, hbare, hdemand.world.trans hshown.symm⟩
        exact halike.run around (x.program.run ctx)
    | none =>
        rw [perform_of_miss h hx]
        rcases hrs : (s.demandEngine d).compile around d compiler path source with ⟨result, s'⟩
        rcases hrt : (t.demandEngine d).compile around d compiler path source with ⟨result', t'⟩
        rw [hrs, hrt] at hresult hafter
        cases hresult
        cases result with
        | error e => exact ⟨rfl, hafter⟩
        | ok program => exact hafter.run around (program.run ctx)
  · have h' : ∀ compiler, ¬ d.RunsCompiled method compiler := fun compiler hc => h ⟨compiler, hc⟩
    obtain ⟨hresult, hafter⟩ := hdemand.open_ around source
    rw [perform_of_direct h', perform_of_direct h']
    rcases hrs : (s.demandEngine d).open_ around source with ⟨result, s'⟩
    rcases hrt : (t.demandEngine d).open_ around source with ⟨result', t'⟩
    rw [hrs, hrt] at hresult hafter
    cases hresult
    cases result with
    | error e => exact ⟨rfl, hafter⟩
    | ok body => exact hafter.run around (directSession d method ctx body)

/-! ## After the run -/

/-- What follows a run: flushing, naming a failure, and giving up the scope. -/
def close (around : Surroundings) (scope : Scope) (errors : Option Writer)
    (resource : Option String) (result : Except EngineError Data) (w : World) :
    Except EvaluationError Data × World :=
  let ctx := contextOf scope errors
  let w := (w.flush around ctx.errors).2
  match result with
  | .error cause => (.error (.new scope.script.path resource cause), scope.dispose w)
  | .ok value =>
    if scope.bindings.flag Reserved.flush then
      match w.flush around ctx.output with
      | (.error fault, w) => (.error (.new scope.script.path resource (.io fault)), scope.dispose w)
      | (.ok (), w) => (.ok value, scope.dispose w)
    else (.ok value, scope.dispose w)

theorem blind_close (around : Surroundings) (scope : Scope) (errors : Option Writer)
    (resource : Option String) (result : Except EngineError Data) :
    Blind (close around scope errors resource result) := by
  have hdispose : ∀ r : Except EvaluationError Data, Blind fun w => (r, scope.dispose w) :=
    fun r => (World.blind_dispose? scope.owned?).map fun _ => r
  have hfirst := World.blind_flush around (contextOf scope errors).errors
  cases result with
  | error cause => exact hfirst.bind fun _ => hdispose (.error (.new scope.script.path resource cause))
  | ok value =>
      cases hflag : scope.bindings.flag Reserved.flush with
      | false =>
          have heq : close around scope errors resource (.ok value) = fun w =>
              (.ok value, scope.dispose (w.flush around (contextOf scope errors).errors).2) := by
            funext w
            simp [close, hflag]
          rw [heq]
          exact hfirst.bind fun _ => hdispose (.ok value)
      | true =>
          have heq : close around scope errors resource (.ok value) = fun w =>
              let r := (w.flush around (contextOf scope errors).errors).2.flush around
                (contextOf scope errors).output
              World.handle
                (fun fault w => (.error (.new scope.script.path resource (.io fault)), scope.dispose w))
                (fun _ w => (.ok value, scope.dispose w)) r.1 r.2 := by
            funext w
            unfold close
            dsimp only
            rw [hflag, if_pos rfl]
            rcases (w.flush around (contextOf scope errors).errors).2.flush around
              (contextOf scope errors).output with ⟨_ | _, v⟩ <;> rfl
          rw [heq]
          exact hfirst.bind fun _ =>
            (World.blind_flush around (contextOf scope errors).output).handle
              (fun fault => hdispose (.error (.new scope.script.path resource (.io fault))))
              (fun _ => hdispose (.ok value))

/-- The path of the resource that a failure names. -/
def resourceOf (around : Surroundings) (scope : Scope) (w : World) : Option String :=
  (scope.helper.bind w.helper?).map fun h => (around.resource h.resource).path

/-- An evaluation is a run and what follows it. -/
theorem evaluate_eq (s : Stage) (around : Surroundings) (scope : Scope) (d : Descriptor)
    (source : ResourceId) (method : Option MethodCall) (errors : Option Writer) :
    s.evaluate around scope d source method errors =
      let p := s.perform around d scope.script.path source method (contextOf scope errors)
      let r := close around scope errors (resourceOf around scope s.world) p.1 p.2.world
      (r.1, { p.2 with world := r.2 }) := by
  unfold evaluate performAndFlush close Stage.flush
  dsimp only
  rcases s.perform around d scope.script.path source method (contextOf scope errors) with
    ⟨_ | value, p⟩
  · rfl
  · dsimp only
    cases hflag : scope.bindings.flag Reserved.flush with
    | false => rfl
    | true =>
        simp only [if_true]
        rcases (p.world.flush around (contextOf scope errors).errors).2.flush around
          (contextOf scope errors).output with ⟨_ | _, w⟩ <;> rfl

end Stage

end ScriptHost
