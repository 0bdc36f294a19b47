import Mathlib
import ScriptHost.Proofs.Host.Execution
import ScriptHost.Proofs.World.Handles

/-! # Services are given back once

Assembling a scope makes a helper if there is a request and nobody has brought a helper along. From
then on the helper belongs to one after the other: to the assembly while providers run, to the
scope, and to the evaluation. Each of them disposes of it when it ends, however it ends. The main
theorem says so for all three: the helper that was made has then given back each service it ever
acquired, once and in order, after all else was done; and no other helper has given back anything,
in particular not one that was brought along. -/

namespace ScriptHost

/-! ## Scopes -/

/-- The helper that assembling a scope makes: there must be a request, and no other helper. -/
def Execution.made? (x : Execution) (around : Surroundings) (w : World) : Option HelperId :=
  match x.suppliedHelper? with
  | .error _ => none
  | .ok supplied =>
    match x.base? around (supplied.bind w.helper?) with
    | .error _ => none
    | .ok none => none
    | .ok (some _) => if supplied.isNone then some ⟨w.helpers.length⟩ else none

/-- How the assembly of a scope can end: it has failed, and its helper has been disposed of; or the
helper belongs to the scope. -/
def World.Handed (made : Option HelperId) (w : World) : Except ScopeError Scope × World → Prop
  | (.error _, w') => World.Settles made w w'
  | (.ok scope, v) => scope.owned? = made ∧ World.Pending made w v

namespace Pipeline

open World

theorem pending_layBase (p : Pipeline) (around : Surroundings) (x : Execution)
    (supplied : Option HelperId) (b : Base) (w : World) :
    Pending (if supplied.isNone then some ⟨w.helpers.length⟩ else none) w
      (p.layBase around x supplied b w).2 := by
  have hreader := advances_reader x around b w
  cases supplied with
  | some h => exact hreader.pending
  | none =>
      rw [← helpers_reader x around b w]
      exact hreader.then (pending_addHelper _ rfl rfl)

theorem layBase_helper (p : Pipeline) (around : Surroundings) (x : Execution)
    (supplied : Option HelperId) (b : Base) (w : World) :
    (p.layBase around x supplied b w).1.2 = supplied.getD ⟨w.helpers.length⟩ := by
  cases supplied with
  | some h => rfl
  | none =>
      rw [← helpers_reader x around b w]
      rfl

/-- Providers run, and if one of them fails the helper is given up. -/
theorem handed_finish {p : Pipeline} {around : Surroundings} {x : Execution} {laid : Bindings}
    {u w : World} (helper : Option HelperId) (owns : Bool)
    (h : Pending (if owns then helper else none) u w) :
    Handed (if owns then helper else none) u (p.finish around x laid helper owns w) := by
  obtain ⟨tracked, providers, v, ⟨e, hprovide, heq⟩ | ⟨scope, hprovide, howned, heq⟩⟩ :=
    finish_cases p around x laid helper owns w
  all_goals
    rw [heq]
    have hpending := h.advances (advances_provide p.settings tracked providers laid w)
    rw [hprovide] at hpending
  · exact hpending.settles
  · exact ⟨howned, hpending⟩

/-- **The assembly of a scope hands its helper on to the scope, or disposes of it.** -/
theorem handed_build (p : Pipeline) (around : Surroundings) (x : Execution) (w : World) :
    Handed (x.made? around w) w (p.build around x w) := by
  have hnothing : Pending none w w := (Advances.refl w).pending
  unfold build Execution.made?
  rcases x.suppliedHelper? with e | supplied
  · exact hnothing.settles
  · dsimp only
    rcases x.base? around (supplied.bind w.helper?) with e | _ | b
    · exact hnothing.settles
    · exact handed_finish none false hnothing
    · have hlay := p.pending_layBase around x supplied b w
      have hhelper := p.layBase_helper around x supplied b w
      dsimp only
      cases supplied with
      | some h => exact handed_finish _ false hlay
      | none =>
          rw [hhelper]
          exact handed_finish _ true hlay

end Pipeline

/-! ## Evaluations -/

namespace Stage

open World

theorem advances_demandEngine (s : Stage) (d : Descriptor) :
    s.world.Advances (s.demandEngine d).world := by
  unfold demandEngine
  split
  · exact Advances.refl s.world
  · exact s.world.advances_record rfl

theorem advances_compile (s : Stage) (around : Surroundings) (d : Descriptor)
    (compiler : Source → Except EngineError (Context → Session Data)) (path : String)
    (source : ResourceId) :
    s.world.Advances (s.compile around d compiler path source).2.world := by
  have hopen := s.world.advances_openResource around source
  unfold compile open_
  rcases hr : s.world.openResource around source with ⟨_ | body, w⟩ <;> rw [hr] at hopen
  · exact hopen
  · have hbegun := hopen.trans (w.advances_record (e := .compile d.factory.id) rfl)
    dsimp only
    cases compiler body with
    | error e => exact hbegun
    | ok run => exact hbegun

/-- In a run of a script no helper gives anything back. -/
theorem advances_perform (s : Stage) (around : Surroundings) (d : Descriptor) (path : String)
    (source : ResourceId) (method : Option MethodCall) (ctx : Context) :
    s.world.Advances (s.perform around d path source method ctx).2.world := by
  refine (s.advances_demandEngine d).trans ?_
  by_cases h : ∃ compiler, d.RunsCompiled method compiler
  · obtain ⟨compiler, h⟩ := h
    cases hx : s.cache.bind (·.get? path) with
    | some x =>
        rw [perform_of_hit h hx]
        exact advances_run around (x.program.run ctx) _
    | none =>
        have hcompile := (s.demandEngine d).advances_compile around d compiler path source
        rw [perform_of_miss h hx]
        rcases hr : (s.demandEngine d).compile around d compiler path source with
          ⟨e | program, s'⟩ <;> rw [hr] at hcompile
        · exact hcompile
        · exact hcompile.trans (advances_run around (program.run ctx) s'.world)
  · have h' : ∀ compiler, ¬ d.RunsCompiled method compiler := fun compiler hc => h ⟨compiler, hc⟩
    have hopen := (s.demandEngine d).world.advances_openResource around source
    rw [perform_of_direct h']
    unfold open_
    rcases hr : (s.demandEngine d).world.openResource around source with ⟨e | body, w⟩ <;>
      rw [hr] at hopen
    · exact hopen
    · exact hopen.trans (advances_run around (directSession d method ctx body) w)

theorem advances_performAndFlush (s : Stage) (around : Surroundings) (scope : Scope)
    (d : Descriptor) (source : ResourceId) (method : Option MethodCall) (errors : Option Writer) :
    s.world.Advances (s.performAndFlush around scope d source method errors).2.world := by
  have hperform := s.advances_perform around d scope.script.path source method
    (contextOf scope errors)
  unfold performAndFlush Stage.flush
  dsimp only
  rcases hr : s.perform around d scope.script.path source method (contextOf scope errors) with
    ⟨e | value, s'⟩ <;> rw [hr] at hperform
  · exact hperform.trans (s'.world.advances_flush around _)
  · have herrors := hperform.trans (s'.world.advances_flush around (contextOf scope errors).errors)
    dsimp only
    split
    · have hboth := herrors.trans (advances_flush _ around (contextOf scope errors).output)
      rcases hf : (s'.world.flush around (contextOf scope errors).errors).2.flush around
        (contextOf scope errors).output with ⟨_ | _, w⟩ <;> rw [hf] at hboth
      · exact hboth
      · exact hboth
    · exact herrors

/-- Whatever comes of an evaluation, the scope is given up after it. -/
theorem world_evaluate (s : Stage) (around : Surroundings) (scope : Scope) (d : Descriptor)
    (source : ResourceId) (method : Option MethodCall) (errors : Option Writer) :
    (s.evaluate around scope d source method errors).2.world =
      scope.dispose (s.performAndFlush around scope d source method errors).2.world := by
  unfold evaluate
  rcases s.performAndFlush around scope d source method errors with ⟨e | value, s'⟩ <;> rfl

/-- An evaluation disposes of the helper that belongs to its scope. -/
theorem settles_evaluate {made : Option HelperId} {u : World} {s : Stage} {scope : Scope}
    (howned : scope.owned? = made) (h : Pending made u s.world) (around : Surroundings)
    (d : Descriptor) (source : ResourceId) (method : Option MethodCall) (errors : Option Writer) :
    Settles made u (s.evaluate around scope d source method errors).2.world := by
  rw [world_evaluate]
  unfold Scope.dispose
  rw [howned]
  exact (h.advances (s.advances_performAndFlush around scope d source method errors)).settles

end Stage

/-! ## Executions -/

namespace Host

open World

/-- The helper that an execution makes. -/
def made? (h : Host) (around : Surroundings) (script : ResourceId) (bindings : Bindings)
    (o : ExecuteOptions) : Option HelperId :=
  (h.engineFor around script o).bind fun d =>
    (executionOf around script bindings o d).made? around h.world

theorem settles_execute (h : Host) (around : Surroundings) (script : ResourceId)
    (bindings : Bindings) (o : ExecuteOptions) :
    Settles (h.made? around script bindings o) h.world
      (h.execute around script bindings o).2.world := by
  unfold made?
  cases hd : h.engineFor around script o with
  | none =>
      rw [execute_of_none hd]
      exact (Advances.refl h.world).pending.settles
  | some d =>
      have hbuild := h.pipeline.handed_build around (executionOf around script bindings o d) h.world
      rcases hscope : h.pipeline.build around (executionOf around script bindings o d) h.world with
        ⟨e | scope, w⟩ <;> rw [hscope] at hbuild
      · rw [execute_of_scopeError hd hscope]
        exact hbuild
      · rw [execute_of_scope hd hscope]
        exact Stage.settles_evaluate (s := ⟨some h.site.cache, w⟩) hbuild.1 hbuild.2 around d script
          o.method o.errors

/-- **What an execution acquires is given back once**: when a scope could not be assembled, when one
has been disposed of after any use, and when an execution is over. A helper that was brought along
is never the one that was made. -/
theorem services_given_back (around : Surroundings) :
    (∀ (x : Execution) (w : World) (h : HelperId), x.suppliedHelper? = .ok (some h) →
        x.made? around w = none) ∧
      (∀ (p : Pipeline) (x : Execution) (w w' : World) (e : ScopeError),
        p.build around x w = (.error e, w') → Settles (x.made? around w) w w') ∧
      (∀ (p : Pipeline) (x : Execution) (w v : World) (scope : Scope) (α : Type)
        (session : Session α), p.build around x w = (.ok scope, v) →
        scope.owned? = x.made? around w ∧
          Settles (x.made? around w) w (scope.dispose (World.run around session v).2)) ∧
      ∀ (h : Host) (script : ResourceId) (bindings : Bindings) (o : ExecuteOptions),
        Settles (h.made? around script bindings o) h.world
          (h.execute around script bindings o).2.world := by
  refine ⟨?_, ?_, ?_, fun h => h.settles_execute around⟩
  · intro x w h hsupplied
    unfold Execution.made?
    rw [hsupplied]
    dsimp only
    rcases x.base? around ((some h).bind w.helper?) with e | _ | b <;> rfl
  · intro p x w w' e hbuild
    have hhanded := p.handed_build around x w
    rw [hbuild] at hhanded
    exact hhanded
  · intro p x w v scope α session hbuild
    have hhanded := p.handed_build around x w
    rw [hbuild] at hhanded
    obtain ⟨howned, hpending⟩ := hhanded
    refine ⟨howned, ?_⟩
    unfold Scope.dispose
    rw [howned]
    exact (hpending.advances (advances_run around session v)).settles

end Host

/-! ## A host with services -/

namespace Sample

/-- Asks the helper that is bound for clocks. -/
def asking {β : Type} (b : Bindings) (acquire : HelperId → Query → (List Service → β) → β)
    (next : β) : β :=
  match (b.get? Reserved.helper).bind BindingValue.asHelper? with
  | some h => acquire h ⟨⟨"clock"⟩, none⟩ fun _ => next
  | none => next

/-- A provider that acquires clocks, and fails if it is told so. -/
def clocks (fails : Bool) : Provider where
  name := "clocks"
  provision := .read fun b =>
    asking b .acquire (if fails then .fail (.reservedKey Reserved.out) else .done)

/-- An engine that acquires clocks as well. -/
def clockmaker : Factory where
  id := .given "a"
  engineName := "a"
  names := ["a"]
  extensions := ["x"]
  languageName := "a"
  engine := { evaluate := fun _ ctx => asking ctx.bindings .acquire (.done (.ok ⟨.int 1, ctx⟩)) }

/-- A host of this engine with two clocks in its directory. -/
def clockwork (fails : Bool) : Host :=
  let clock (id : Nat) : Listing := ⟨⟨id, id, ⟨"clock"⟩, "clock"⟩, none, false⟩
  let h := Host.start {} none (some { directory := { listings := [clock 1, clock 2] } }) false
  ((h.register (.dynamic clockmaker {})).2.addProvider (clocks fails) ⟨0, [], []⟩).2

/-- Surroundings of one script, with an output that cannot be flushed. -/
def blocked : Surroundings where
  resource _ := { path := "/s.x", opening := .ok ⟨[], none⟩ }
  resolver _ := { resolve := fun _ => none }
  request _ := { path := "/s.x", resource := ⟨""⟩, resolver := ⟨""⟩, body := [], tracked := false }
  response _ := ⟨.output "o"⟩
  output _ := { flushFault := fun _ => some "full" }

/-- Asks for a final flush, and brings a helper along if there is one. -/
def flushing (helper : Option HelperId) : Bindings :=
  .ofList ((Reserved.flush, .data (.bool true)) ::
    (helper.map fun h => (Reserved.helper, .helper h)).toList)

def requested : ExecuteOptions :=
  { request := some ⟨"r"⟩, response := some ⟨"r"⟩ }

def clockmaking : Descriptor :=
  { clockmaker with factory := clockmaker, origin := .dynamic, priority := ⟨0, 1⟩ }

/-- What the scope of an execution is assembled from. -/
def ticking (helper : Option HelperId) : Execution :=
  Host.executionOf blocked ⟨"s"⟩ (flushing helper) requested clockmaking

end Sample

namespace Host

open Sample World

/-- The provider and the engine each acquire both clocks. They are given back when the provider has
failed, when the scope is disposed of, and when the last flush has failed. -/
theorem services_given_back_clocks :
    (ticking (some ⟨0⟩)).made? blocked (clockwork true).world = none ∧
      (∃ e w', (clockwork true).pipeline.build blocked (ticking none) (clockwork true).world =
        (.error e, w') ∧ GivenBack ⟨0⟩ (clockwork true).world w' ∧
        w'.journal.releasedBy ⟨0⟩ = [2, 1]) ∧
      (∃ scope v, (clockwork false).pipeline.build blocked (ticking none) (clockwork false).world =
        (.ok scope, v) ∧ GivenBack ⟨0⟩ (clockwork false).world (scope.dispose v)) ∧
      GivenBack ⟨0⟩ (clockwork false).world
        ((clockwork false).execute blocked ⟨"s"⟩ (flushing none) requested).2.world ∧
      ((clockwork false).execute blocked ⟨"s"⟩ (flushing none) requested).2.world.journal.releasedBy
        ⟨0⟩ = [2, 1, 2, 1] := by
  obtain ⟨hsupplied, hfailed, hbuilt, hexecuted⟩ := services_given_back blocked
  refine ⟨hsupplied _ _ ⟨0⟩ (by cbv), ?_, ?_, ?_, by cbv⟩
  · have hfails : ((clockwork true).pipeline.build blocked (ticking none)
        (clockwork true).world).1.isOk = false := by cbv
    have hreleased : ((clockwork true).pipeline.build blocked (ticking none)
        (clockwork true).world).2.journal.releasedBy ⟨0⟩ = [2, 1] := by cbv
    rcases hbuild : (clockwork true).pipeline.build blocked (ticking none) (clockwork true).world
      with ⟨e | scope, w'⟩ <;> rw [hbuild] at hfails hreleased
    · exact ⟨e, w', rfl, (hfailed _ _ _ _ _ hbuild).own ⟨0⟩ (by cbv), hreleased⟩
    · cases hfails
  · have hsucceeds : ((clockwork false).pipeline.build blocked (ticking none)
        (clockwork false).world).1.isOk = true := by cbv
    rcases hbuild : (clockwork false).pipeline.build blocked (ticking none) (clockwork false).world
      with ⟨e | scope, v⟩ <;> rw [hbuild] at hsucceeds
    · cases hsucceeds
    · have hsettles := (hbuilt _ _ _ _ _ Unit (.done (.ok ())) hbuild).2
      exact ⟨scope, v, rfl, hsettles.own ⟨0⟩ (by cbv)⟩
  · exact (hexecuted (clockwork false) ⟨"s"⟩ (flushing none) requested).own ⟨0⟩ (by cbv)

end Host

end ScriptHost
