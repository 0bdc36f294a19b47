import Mathlib
import ScriptHost.Proofs.Host.Serving

/-! # When an execution compiles

A good deal has to come together before an execution compiles a script (`Host.Compiles`): there is
an engine for it, a scope and no method to call, the engine declares that it compiles and does, the
path is not cached yet, and the source can be opened and compiled. That much decides what an
execution does to the cache (`Host.only_compiling_changes_cache`): whether the script then runs to
its end and its outputs can be flushed is no matter, and neither is the state of the cache. -/

namespace ScriptHost

theorem compiledBy?_eq_some {id : Nat}
    {compiler : Source → Except EngineError (Context → Session Data)}
    {opening : Except String Source} {program : Program} :
    compiledBy? id compiler opening = some program ↔
      ∃ body run, opening = .ok body ∧ compiler body = .ok run ∧ program = ⟨id, run⟩ := by
  cases opening with
  | error fault => simp [compiledBy?]
  | ok body => cases hrun : compiler body <;> simp [compiledBy?, hrun, eq_comm]

namespace Host

variable {h : Host} {around : Surroundings} {script : ResourceId} {bindings : Bindings}
  {o : ExecuteOptions} {d : Descriptor} {run : Context → Session Data}

/-- Whether an execution compiles its script, for an engine and into a form. -/
structure Compiles (h : Host) (around : Surroundings) (script : ResourceId) (bindings : Bindings)
    (o : ExecuteOptions) (d : Descriptor) (run : Context → Session Data) : Prop where
  chosen : h.engineFor around script o = some d
  assembled : ∃ scope w, h.pipeline.build around (executionOf around script bindings o d) h.world =
    (.ok scope, w)
  plain : o.method = none
  declared : d.supportsCompilation = true
  missing : h.site.cache.get? (around.resource script).path = none
  compiled : ∃ compiler body, d.factory.engine.compile? = some compiler ∧
    (around.resource script).opening = .ok body ∧ compiler body = .ok run

theorem Compiles.compiled? (hc : h.Compiles around script bindings o d run) :
    d.compiled? o.method (around.resource script).opening = some ⟨d.id, run⟩ := by
  obtain ⟨compiler, body, hcompiler, hopening, hrun⟩ := hc.compiled
  have hruns : d.RunsCompiled o.method compiler := ⟨hc.plain, hc.declared, hcompiler⟩
  rw [hruns.compiled?_eq]
  exact compiledBy?_eq_some.mpr ⟨body, run, hopening, hrun, rfl⟩

theorem Compiles.of_compiled? {program : Program} (hd : h.engineFor around script o = some d)
    (hscope : ∃ scope w, h.pipeline.build around (executionOf around script bindings o d) h.world =
      (.ok scope, w))
    (hmiss : h.site.cache.get? (around.resource script).path = none)
    (hprogram : d.compiled? o.method (around.resource script).opening = some program) :
    h.Compiles around script bindings o d program.run := by
  obtain ⟨compiler, ⟨hmethod, hcompiles, hcompiler⟩, hby⟩ :=
    Descriptor.runsCompiled_of_compiled? hprogram
  obtain ⟨body, run, hopening, hrun, rfl⟩ := compiledBy?_eq_some.mp hby
  exact ⟨hd, hscope, hmethod, hcompiles, hmiss, compiler, body, hcompiler, hopening, hrun⟩

/-- An engine that compiles, found by what it declares. -/
theorem exists_runsCompiled {compiler : Source → Except EngineError (Context → Session Data)}
    (hplain : o.method = none) (hfound : (h.engineFor around script o).map (fun d =>
      (d.supportsCompilation, d.factory.engine.compile?)) = some (true, some compiler)) :
    ∃ d, h.engineFor around script o = some d ∧ d.RunsCompiled o.method compiler := by
  obtain ⟨d, hd, heq⟩ := Option.map_eq_some_iff.mp hfound
  obtain ⟨hdeclared, hcompiler⟩ := Prod.mk.inj heq
  exact ⟨d, hd, hplain, hdeclared, hcompiler⟩

/-- **The cache is changed by compiling alone.** If an execution compiles its script then the form
is put into the cache, whatever comes of running it, and if it does not then the cache stays as it
is; and an execution that finds a compiled form opens no source. -/
theorem only_compiling_changes_cache (h : Host) (around : Surroundings) (script : ResourceId)
    (bindings : Bindings) (o : ExecuteOptions) :
    let path := (around.resource script).path
    let next := (h.execute around script bindings o).2
    (∀ d run, h.Compiles around script bindings o d run →
      next.site.cache = h.site.cache.put ⟨path, ⟨d.id, run⟩⟩) ∧
    ((∀ d run, ¬ h.Compiles around script bindings o d run) → next.site.cache = h.site.cache) ∧
    ∀ d compiler x, h.engineFor around script o = some d → d.RunsCompiled o.method compiler →
      h.site.cache.get? path = some x → next.world.readings = h.world.readings := by
  intro path next
  refine ⟨fun d run hc => ?_, fun hnone => ?_, fun d compiler x hd hruns hx => ?_⟩
  · obtain ⟨scope, w, hscope⟩ := hc.assembled
    have hcache := cache_execute hc.chosen hscope
    rw [hc.missing, hc.compiled?] at hcache
    exact hcache
  · rcases h.cache_execute_cases around script bindings o with hsame |
      ⟨d, program, hd, hprogram, hscope, hmiss, -⟩
    · exact hsame
    · exact absurd (Compiles.of_compiled? hd hscope hmiss hprogram) (hnone d program.run)
  · rcases hscope : h.pipeline.build around (executionOf around script bindings o d) h.world with
      ⟨e | scope, w⟩
    · -- Without a scope nothing is run at all.
      have hblind := (World.blind_build h.pipeline around
        (executionOf around script bindings o d)).readings_eq h.world
      rw [hscope] at hblind
      show (h.execute around script bindings o).2.world.readings = _
      rw [execute_of_scopeError hd hscope]
      exact hblind
    · refine (readings_execute hd hruns hscope).trans ?_
      rw [show h.site.cache.get? (around.resource script).path = some x from hx, List.append_nil]

end Host

/-! ## A full cache -/

namespace Sample

/-- A host with room for one compiled script, which has it, and an engine whose scripts fail. -/
def crammed : Host :=
  (Host.start { cache := { capacity := 1 } } none none false).after
    [register "a" .echo ["x"], register "f" .fail ["x"], execute "/o.x" "n" "a"]

end Sample

namespace Host

open Sample

/-- A script that fails is compiled all the same, and its form takes the place of the oldest; the
script that was there before could have been run without a look at its source. -/
theorem only_compiling_changes_cache_crammed :
    (∃ d run, crammed.Compiles (around "/s.x" "n") ⟨"f"⟩ .empty {} d run) ∧
      (crammed.execute (around "/s.x" "n") ⟨"f"⟩ .empty {}).1 =
        .error (.evaluation ⟨"/s.x", "n", none, some (.failure "n")⟩) ∧
      crammed.site.cache.paths = ["/o.x"] ∧
      (crammed.execute (around "/s.x" "n") ⟨"f"⟩ .empty {}).2.site.cache.paths = ["/s.x"] ∧
      (crammed.execute (around "/o.x" "n") ⟨"a"⟩ .empty {}).2.world.readings =
        crammed.world.readings := by
  obtain ⟨hput, -, -⟩ := only_compiling_changes_cache crammed (around "/s.x" "n") ⟨"f"⟩ .empty {}
  obtain ⟨-, -, hhit⟩ := only_compiling_changes_cache crammed (around "/o.x" "n") ⟨"a"⟩ .empty {}
  have hcompiles : ∃ d run, crammed.Compiles (around "/s.x" "n") ⟨"f"⟩ .empty {} d run := by
    have hfound : ∃ d, crammed.engineFor (around "/s.x" "n") ⟨"f"⟩ {} = some d ∧
        d.RunsCompiled none (Behaviour.compile .fail) :=
      exists_runsCompiled rfl (by cbv)
    obtain ⟨d, hd, hplain, hdeclared, hcompiler⟩ := hfound
    have hscope : ∃ scope w, crammed.pipeline.build (around "/s.x" "n")
        (executionOf (around "/s.x" "n") ⟨"f"⟩ .empty {} d) crammed.world = (.ok scope, w) := by
      have hok : (crammed.pipeline.build (around "/s.x" "n")
          (executionOf (around "/s.x" "n") ⟨"f"⟩ .empty {} d) crammed.world).1.isOk = true := by
        cbv
      rcases hbuild : crammed.pipeline.build (around "/s.x" "n")
        (executionOf (around "/s.x" "n") ⟨"f"⟩ .empty {} d) crammed.world with ⟨e | scope, w⟩
      · rw [hbuild] at hok
        cases hok
      · exact ⟨scope, w, rfl⟩
    refine ⟨d, Behaviour.session .fail "n", hd, hscope, hplain, hdeclared, by cbv, ?_⟩
    exact ⟨Behaviour.compile .fail, ⟨Text.encode "n", none⟩, hcompiler, rfl, by cbv⟩
  refine ⟨hcompiles, by cbv, by cbv, ?_, ?_⟩
  · obtain ⟨d, run, hc⟩ := hcompiles
    rw [hput d run hc]
    cbv
  · have hfound : ∃ d, crammed.engineFor (around "/o.x" "n") ⟨"a"⟩ {} = some d ∧
        d.RunsCompiled none (Behaviour.compile .echo) :=
      exists_runsCompiled rfl (by cbv)
    obtain ⟨d, hd, hruns⟩ := hfound
    have hcached : (crammed.site.cache.get? "/o.x").isSome = true := by cbv
    obtain ⟨x, hx⟩ := Option.isSome_iff_exists.mp hcached
    exact hhit d _ x hd hruns hx

end Host

end ScriptHost
