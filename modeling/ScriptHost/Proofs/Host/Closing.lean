import Mathlib
import ScriptHost.Proofs.Host.Evaluation
import ScriptHost.Proofs.World.Handles
import ScriptHost.Sample.Engines

/-! # How evaluations end

A script is run by way of a compiled form, from its source, or from its source with a call behind
it; or it is not run, since its source cannot be opened or compiled, or since its engine cannot call
methods. The relation `Stage.Performs` has a case for each. Reading is up to the engine, so a source
that breaks off makes the engine fail. Until the engine starts it is made and the source opened and
compiled, and nothing is written or flushed (`World.Prepared`). After all ways to run a script, and
after all ways to fail, the end is the same (`Stage.Closes`): the output for errors is flushed, then
the other if the script has come to a value and the scope asks for it, and what went wrong, be it in
the run or in this last flush, is named after the script and its resource. An output may take one
flush and refuse the next, so the outcome of the second depends on the first. -/

namespace ScriptHost

/-- Whether an event is part of getting ready for a run. -/
def Event.isPreparing : Event → Bool
  | .makeEngine _ _ => true
  | .openResource _ => true
  | .compile _ => true
  | _ => false

def Event.isRelease : Event → Bool
  | .release _ _ _ => true
  | _ => false

namespace World

/-! ## Getting ready -/

/-- One world comes from another by getting ready for a run, and by nothing else. -/
def Prepared (w v : World) : Prop :=
  ∃ es : Journal, (∀ e ∈ es, e.isPreparing = true) ∧ v = { w with journal := w.journal ++ es }

namespace Prepared

theorem refl (w : World) : w.Prepared w :=
  ⟨[], by simp, by simp⟩

theorem record {w v : World} {e : Event} (h : w.Prepared v) (he : e.isPreparing = true) :
    w.Prepared (v.record e) := by
  obtain ⟨es, hes, rfl⟩ := h
  refine ⟨es ++ [e], ?_, ?_⟩
  · intro x hx
    rcases List.mem_append.mp hx with hx | hx
    · exact hes x hx
    · rw [List.mem_singleton.mp hx]
      exact he
  · simp [World.record]

end Prepared

/-! ## One session after the other -/

theorem run_andThen {α β : Type} (around : Surroundings) (session : Session α)
    (next : α → Session β) (w : World) :
    World.run around (session.andThen next) w =
      handle (fun e w => (.error e, w)) (fun a w => World.run around (next a) w)
        (World.run around session w).1 (World.run around session w).2 := by
  induction session generalizing w with
  | done outcome => cases outcome <;> rfl
  | write target text go ih => exact ih _ _
  | flush on go ih => exact ih _ _
  | readText r go ih => exact ih _ _
  | acquire helper q go ih => exact ih _ _

theorem run_map {α β : Type} (around : Surroundings) (f : α → β) (session : Session α)
    (w : World) : World.run around (session.map f) w =
      ((World.run around session w).1.map f, (World.run around session w).2) := by
  unfold Session.map
  rw [run_andThen]
  rcases World.run around session w with ⟨_ | a, v⟩ <;> rfl

/-! ## Giving services back -/

theorem journal_dispose (w : World) (h : HelperId) : ∃ released : Journal,
    (∀ e ∈ released, e.isRelease = true) ∧ (w.dispose h).journal = w.journal ++ released := by
  have hnothing : (w.dispose h).journal = w.journal → ∃ released : Journal,
      (∀ e ∈ released, e.isRelease = true) ∧ (w.dispose h).journal = w.journal ++ released :=
    fun hsame => ⟨[], by simp, by rw [hsame, List.append_nil]⟩
  cases hhelper : w.helper? h with
  | none => exact hnothing (by simp [dispose, hhelper])
  | some helper =>
      cases hdisposed : helper.disposed with
      | true => exact hnothing (by simp [dispose, hhelper, hdisposed])
      | false =>
          rw [dispose_eq hhelper hdisposed]
          refine ⟨_, ?_, rfl⟩
          intro e he
          split at he
          · obtain ⟨id, -, rfl⟩ := List.mem_map.mp he
            rfl
          · cases he

end World

/-- Giving up a scope is giving back services. -/
theorem Scope.journal_dispose (scope : Scope) (w : World) : ∃ released : Journal,
    (∀ e ∈ released, e.isRelease = true) ∧
      (scope.dispose w).journal = w.journal ++ released := by
  unfold Scope.dispose
  cases scope.owned? with
  | none => exact ⟨[], by simp, by simp [World.dispose?]⟩
  | some h => exact w.journal_dispose h

/-- Whether a scope asks for its output to be flushed. -/
def Scope.AsksToFlush (scope : Scope) : Prop :=
  scope.bindings.get? Reserved.flush = some (.data (.bool true))

theorem Scope.flag_flush_iff (scope : Scope) :
    scope.bindings.flag Reserved.flush = true ↔ scope.AsksToFlush := by
  unfold Scope.AsksToFlush Bindings.flag
  rcases scope.bindings.get? Reserved.flush with _ | v
  · simp
  · cases v with
    | data d => cases d <;> simp [BindingValue.asBool?, BindingValue.asData?, Data.asBool?]
    | _ => simp [BindingValue.asBool?, BindingValue.asData?]

namespace Stage

open World (Prepared)

/-! ## Ways to run a script -/

/-- How a script is run in a world that is ready for it, and what comes of it: by the method that is
called, if one is, the outcome and the world after. -/
inductive Performs (around : Surroundings) (d : Descriptor) (source : ResourceId)
    (cached : Option Program) (ctx : Context) (ready : World) :
    Option MethodCall → Except EngineError Data × World → Prop
  /-- The compiled form is at hand, and the source is left alone. -/
  | hit {compiler program} : d.RunsCompiled none compiler → cached = some program →
    Performs around d source cached ctx ready none (World.run around (program.run ctx) ready)
  /-- The source is needed and cannot be opened. -/
  | unopened {method fault} : (∀ compiler, d.RunsCompiled method compiler → cached = none) →
    (around.resource source).opening = .error fault →
    Performs around d source cached ctx ready method (.error (.io fault), ready)
  | uncompiled {compiler body cause} : d.RunsCompiled none compiler → cached = none →
    (around.resource source).opening = .ok body → compiler body = .error cause →
    Performs around d source cached ctx ready none (.error cause, ready)
  | compiled {compiler body run} : d.RunsCompiled none compiler → cached = none →
    (around.resource source).opening = .ok body → compiler body = .ok run →
    Performs around d source cached ctx ready none (World.run around (run ctx) ready)
  /-- The engine does not compile, and evaluates the source. -/
  | evaluated {body result after} : (∀ compiler, ¬ d.RunsCompiled none compiler) →
    (around.resource source).opening = .ok body →
    World.run around (d.factory.engine.evaluate body ctx) ready = (result, after) →
    Performs around d source cached ctx ready none (result.map Evaluated.value, after)
  /-- The engine can call, but the source fails before. -/
  | interrupted {call invoke body cause after} : d.factory.engine.invoke? = some invoke →
    (around.resource source).opening = .ok body →
    World.run around (d.factory.engine.evaluate body ctx) ready = (.error cause, after) →
    Performs around d source cached ctx ready (some call) (.error cause, after)
  /-- The engine calls the method where the source has left off. -/
  | invoked {call invoke body ran after} : d.factory.engine.invoke? = some invoke →
    (around.resource source).opening = .ok body →
    World.run around (d.factory.engine.evaluate body ctx) ready = (.ok ran, after) →
    Performs around d source cached ctx ready (some call)
      (World.run around (invoke ran.context call.name call.args) after)
  /-- The engine cannot call, and evaluates the source with the text of the call in lines behind
  it. -/
  | chained {call body text result after} : d.factory.engine.invoke? = none →
    (around.resource source).opening = .ok body →
    d.factory.callText? call.name call.args = some text →
    World.run around (d.factory.engine.evaluate
      (body.followedBy (Text.encode ("\n" ++ text ++ "\n"))) ctx) ready = (result, after) →
    Performs around d source cached ctx ready (some call) (result.map Evaluated.value, after)
  /-- There is no way to call. -/
  | speechless {call body} : d.factory.engine.invoke? = none →
    (around.resource source).opening = .ok body →
    d.factory.callText? call.name call.args = none →
    Performs around d source cached ctx ready (some call)
      (.error (.unsupported (d.engineName ++ " cannot call method " ++ call.name)), ready)

section Performing

variable {around : Surroundings} {d : Descriptor} {source : ResourceId} {cached : Option Program}
  {ctx : Context} {ready : World} {body : Source}

/-- Without a method the source is evaluated. -/
theorem performs_evaluate (h : ∀ compiler, ¬ d.RunsCompiled none compiler)
    (hopening : (around.resource source).opening = .ok body) :
    Performs around d source cached ctx ready none
      (World.run around (directSession d none ctx body) ready) := by
  show Performs around d source cached ctx ready none
    (World.run around ((d.factory.engine.evaluate body ctx).map Evaluated.value) ready)
  rw [World.run_map]
  exact .evaluated h hopening rfl

theorem performs_call (hopening : (around.resource source).opening = .ok body)
    (call : MethodCall) : Performs around d source cached ctx ready (some call)
      (World.run around (directSession d (some call) ctx body) ready) := by
  show Performs around d source cached ctx ready (some call)
    (World.run around (callSession d body ctx call) ready)
  cases hinvoke : d.factory.engine.invoke? with
  | some invoke =>
      simp only [callSession, hinvoke, World.run_andThen]
      rcases hran : World.run around (d.factory.engine.evaluate body ctx) ready with
        ⟨cause | ran, after⟩
      · exact .interrupted hinvoke hopening hran
      · exact .invoked hinvoke hopening hran
  | none =>
      cases htext : d.factory.callText? call.name call.args with
      | some text =>
          simp only [callSession, hinvoke, htext, World.run_map]
          exact .chained hinvoke hopening htext rfl
      | none =>
          simp only [callSession, hinvoke, htext]
          exact .speechless hinvoke hopening htext

end Performing

theorem openResource_eq (w : World) (around : Surroundings) (r : ResourceId) :
    w.openResource around r =
      ((around.resource r).opening.mapError .io, w.record (.openResource r)) := by
  unfold World.openResource
  cases (around.resource r).opening <;> rfl

theorem prepared_demandEngine (s : Stage) (d : Descriptor) :
    s.world.Prepared (s.demandEngine d).world := by
  unfold demandEngine
  split
  · exact Prepared.refl s.world
  · exact (Prepared.refl s.world).record rfl

/-- **An evaluation gets ready and then runs its script.** -/
theorem performs_perform (s : Stage) (around : Surroundings) (d : Descriptor) (path : String)
    (source : ResourceId) (method : Option MethodCall) (ctx : Context) :
    ∃ ready, s.world.Prepared ready ∧
      let p := s.perform around d path source method ctx
      Performs around d source ((s.cache.bind (·.get? path)).map CachedScript.program) ctx ready
        method (p.1, p.2.world) := by
  -- Ready is the world with the engine made, or with the source opened, or with it compiled too.
  have hmade := s.prepared_demandEngine d
  have hopened := hmade.record (e := .openResource source) rfl
  by_cases h : ∃ compiler, d.RunsCompiled method compiler
  · obtain ⟨compiler, h⟩ := h
    obtain ⟨rfl, -, -⟩ := id h
    cases hx : s.cache.bind (·.get? path) with
    | some x =>
        refine ⟨_, hmade, ?_⟩
        rw [perform_of_hit h hx]
        exact .hit h rfl
    | none =>
        rw [perform_of_miss h hx]
        unfold compile open_
        rw [openResource_eq]
        cases hopening : (around.resource source).opening with
        | error fault => exact ⟨_, hopened, .unopened (fun _ _ => rfl) hopening⟩
        | ok body =>
            refine ⟨_, hopened.record (e := .compile d.factory.id) rfl, ?_⟩
            cases hcompiler : compiler body with
            | error cause =>
                simp only [Except.mapError, hcompiler]
                exact .uncompiled h rfl hopening hcompiler
            | ok run =>
                simp only [Except.mapError, hcompiler]
                exact .compiled h rfl hopening hcompiler
  · have h' : ∀ compiler, ¬ d.RunsCompiled method compiler := fun compiler hc => h ⟨compiler, hc⟩
    refine ⟨_, hopened, ?_⟩
    rw [perform_of_direct h']
    unfold open_
    rw [openResource_eq]
    cases hopening : (around.resource source).opening with
    | error fault => exact .unopened (fun compiler hc => absurd hc (h' compiler)) hopening
    | ok body =>
        cases method with
        | none => exact performs_evaluate h' hopening
        | some call => exact performs_call hopening call

/-! ## The end -/

/-- What the flush of the output meets, right behind that of the output for errors. -/
def lastFault (around : Surroundings) (scope : Scope) (errors : Option Writer) (w : World) :
    Option String :=
  (w.flush around (contextOf scope errors).errors).2.flushFault around
    (contextOf scope errors).output

/-- How an evaluation ends, once its script has come to this in this world: what it comes to. -/
structure Closes (around : Surroundings) (scope : Scope) (errors : Option Writer) (before : World)
    (ran : Except EngineError Data × World) (r : Except EvaluationError Data × World) : Prop where
  /-- After all that the engine has done the output for errors is flushed, once; then the other, if
  the script has come to a value and the scope asks for it; and then services are given back. -/
  journal : ∃ flushes released : Journal, r.2.journal = ran.2.journal ++ flushes ++ released ∧
    (∀ e ∈ released, e.isRelease = true) ∧
    let onErrors := Event.flush (contextOf scope errors).errors
      (ran.2.flushFault around (contextOf scope errors).errors)
    let onOutput := Event.flush (contextOf scope errors).output
      (lastFault around scope errors ran.2)
    ((∃ value, ran.1 = .ok value) ∧ scope.AsksToFlush ∧ flushes = [onErrors, onOutput]) ∨
      (¬ ((∃ value, ran.1 = .ok value) ∧ scope.AsksToFlush) ∧ flushes = [onErrors])
  /-- There is a value if the script has come to it, and the output could be flushed if need be.
  Whether the output for errors could be flushed makes no difference. -/
  returns : ∀ value, r.1 = .ok value ↔ ran.1 = .ok value ∧
    (scope.AsksToFlush → lastFault around scope errors ran.2 = none)
  /-- Else there is a failure, caused by the script or by the flush of the output. -/
  fails : ∀ cause, (∃ failure, r.1 = .error failure ∧ failure.cause = some cause) ↔
    ran.1 = .error cause ∨ ∃ fault, (∃ value, ran.1 = .ok value) ∧ scope.AsksToFlush ∧
      lastFault around scope errors ran.2 = some fault ∧ cause = .io fault
  /-- Every failure keeps its cause, speaks in the words of that cause, and names the script and, if
  there is a helper, its resource. -/
  names : ∀ failure, r.1 = .error failure → failure.script = scope.script.path ∧
    (∃ cause, failure.cause = some cause ∧ failure.message = cause.message) ∧
    (scope.helper = none → failure.resource = none) ∧
    ∀ id helper, scope.helper = some id → before.helper? id = some helper →
      failure.resource = some (around.resource helper.resource).path

/-- A failure that is named after the scope. -/
theorem names_of_scope {around : Surroundings} {scope : Scope} {before : World}
    {failure : EvaluationError} {cause : EngineError}
    (h : failure = .new scope.script.path (resourceOf around scope before) cause) :
    failure.script = scope.script.path ∧
      (∃ cause, failure.cause = some cause ∧ failure.message = cause.message) ∧
      (scope.helper = none → failure.resource = none) ∧
      ∀ id helper, scope.helper = some id → before.helper? id = some helper →
        failure.resource = some (around.resource helper.resource).path := by
  subst h
  refine ⟨rfl, ⟨cause, rfl, rfl⟩, fun hnone => ?_, fun id helper hid hhelper => ?_⟩
  · simp [EvaluationError.new, resourceOf, hnone]
  · simp [EvaluationError.new, resourceOf, hid, hhelper]

section Closing

variable (around : Surroundings) (scope : Scope) (errors : Option Writer) (before w : World)

/-- A flush is one event. -/
theorem journal_flush (on : Writer) :
    (w.flush around on).2.journal = w.journal ++ [.flush on (w.flushFault around on)] := by
  cases on <;> rfl

/-- The first flush and what is given back, where there is no second. -/
theorem journal_first : ∃ released : Journal, (∀ e ∈ released, e.isRelease = true) ∧
    (scope.dispose (w.flush around (contextOf scope errors).errors).2).journal =
      w.journal ++ [.flush (contextOf scope errors).errors
        (w.flushFault around (contextOf scope errors).errors)] ++ released := by
  obtain ⟨released, hreleased, hjournal⟩ :=
    scope.journal_dispose (w.flush around (contextOf scope errors).errors).2
  exact ⟨released, hreleased, by rw [hjournal, journal_flush]⟩

/-- After a script that has failed. -/
theorem closes_close_error (cause : EngineError) : Closes around scope errors before
    (.error cause, w)
      (close around scope errors (resourceOf around scope before) (.error cause) w) := by
  obtain ⟨released, hreleased, hjournal⟩ := journal_first around scope errors w
  refine ⟨⟨_, released, hjournal, hreleased, .inr ⟨by simp, rfl⟩⟩, ?_, ?_, ?_⟩
  · simp [close]
  · simp [close, EvaluationError.new, eq_comm]
  · rintro failure ⟨⟩
    exact names_of_scope rfl

/-- After a script that has come to a value, in a scope that does not ask for a flush. -/
theorem closes_close_unasked (value : Data) (hasks : ¬ scope.AsksToFlush) :
    Closes around scope errors before (.ok value, w)
      (close around scope errors (resourceOf around scope before) (.ok value) w) := by
  obtain ⟨released, hreleased, hjournal⟩ := journal_first around scope errors w
  have hflag : scope.bindings.flag Reserved.flush = false :=
    Bool.not_eq_true _ ▸ mt scope.flag_flush_iff.mp hasks
  have hclose : close around scope errors (resourceOf around scope before) (.ok value) w =
      (.ok value, scope.dispose (w.flush around (contextOf scope errors).errors).2) := by
    simp [close, hflag]
  rw [hclose]
  refine ⟨⟨_, released, hjournal, hreleased, .inr ⟨by simp [hasks], rfl⟩⟩, ?_, ?_, ?_⟩
  · simp [hasks]
  · simp [hasks]
  · rintro failure ⟨⟩

/-- After a script that has come to a value, in a scope that asks for a flush: this flush is the
last thing that can go wrong. -/
theorem closes_close_asked (value : Data) (hasks : scope.AsksToFlush) :
    Closes around scope errors before (.ok value, w)
      (close around scope errors (resourceOf around scope before) (.ok value) w) := by
  let first := (w.flush around (contextOf scope errors).errors).2
  let second := (first.flush around (contextOf scope errors).output).2
  obtain ⟨released, hreleased, hjournal⟩ := scope.journal_dispose second
  have hflag := scope.flag_flush_iff.mpr hasks
  have hboth : (scope.dispose second).journal = w.journal ++ [
      .flush (contextOf scope errors).errors
        (w.flushFault around (contextOf scope errors).errors),
      .flush (contextOf scope errors).output (lastFault around scope errors w)] ++ released := by
    rw [hjournal, journal_flush, journal_flush, List.append_assoc w.journal]
    rfl
  have hsecond : first.flush around (contextOf scope errors).output =
      (World.outcome (lastFault around scope errors w), second) := rfl
  -- Which of the two ends it takes is the outcome of the second flush.
  cases hfault : lastFault around scope errors w with
  | none =>
      have hclose : close around scope errors (resourceOf around scope before) (.ok value) w =
          (.ok value, scope.dispose second) := by
        simp only [close, hflag, if_true]
        rw [hsecond, hfault]
        rfl
      rw [hclose]
      refine ⟨⟨_, released, hboth, hreleased, .inl ⟨⟨value, rfl⟩, hasks, rfl⟩⟩, ?_, ?_, ?_⟩
      · simp [hasks, hfault]
      · simp [hfault]
      · rintro failure ⟨⟩
  | some fault =>
      have hclose : close around scope errors (resourceOf around scope before) (.ok value) w =
          (.error (.new scope.script.path (resourceOf around scope before) (.io fault)),
            scope.dispose second) := by
        simp only [close, hflag, if_true]
        rw [hsecond, hfault]
        rfl
      rw [hclose]
      refine ⟨⟨_, released, hboth, hreleased, .inl ⟨⟨value, rfl⟩, hasks, rfl⟩⟩, ?_, ?_, ?_⟩
      · simp [hasks, hfault]
      · simp [hasks, hfault, EvaluationError.new, eq_comm]
      · rintro failure ⟨⟩
        exact names_of_scope rfl

theorem closes_close (ran : Except EngineError Data × World) :
    Closes around scope errors before ran
      (close around scope errors (resourceOf around scope before) ran.1 ran.2) := by
  obtain ⟨result, w⟩ := ran
  cases result with
  | error cause => exact closes_close_error around scope errors before w cause
  | ok value =>
      by_cases hasks : scope.AsksToFlush
      · exact closes_close_asked around scope errors before w value hasks
      · exact closes_close_unasked around scope errors before w value hasks

end Closing

/-- **All evaluations end alike**, in whatever way the script is run and whatever comes of it. -/
theorem evaluations_end_alike (s : Stage) (around : Surroundings) (scope : Scope) (d : Descriptor)
    (source : ResourceId) (method : Option MethodCall) (errors : Option Writer) :
    let cached := (s.cache.bind (·.get? scope.script.path)).map CachedScript.program
    let e := s.evaluate around scope d source method errors
    ∃ ready ran, s.world.Prepared ready ∧
      Performs around d source cached (contextOf scope errors) ready method ran ∧
      Closes around scope errors s.world ran (e.1, e.2.world) := by
  intro cached e
  obtain ⟨ready, hready, hperforms⟩ :=
    s.performs_perform around d scope.script.path source method (contextOf scope errors)
  refine ⟨ready, _, hready, hperforms, ?_⟩
  rw [show e = _ from s.evaluate_eq around scope d source method errors]
  exact closes_close around scope errors s.world _

end Stage

/-! ## Outputs and sources that fail at times -/

namespace Sample

/-- Surroundings in which no output can be flushed after two calls, and one source breaks off. -/
def choked : Surroundings where
  resource r := {
    path := r.name
    opening := .ok ⟨Text.encode "n", if r.name = "/torn.x" then some "torn" else none⟩ }
  resolver _ := { resolve := fun _ => none }
  request _ := { path := "/p", resource := ⟨"/p"⟩, resolver := ⟨""⟩, body := [], tracked := false }
  response _ := ⟨.output "o"⟩
  output name := { flushFault := fun calls => if calls.length < 2 then none else some name }

/-- A world with the helper of a page. -/
def assisted : World where
  helpers := [{
    request := ⟨"r"⟩
    response := ⟨"r"⟩
    resource := ⟨"/p"⟩
    resolver := ⟨""⟩
    script := ⟨"/s.x", "a"⟩
    serves := true
    acquired := [3] }]

/-- A scope that owns this helper and asks for a final flush. -/
def flushed : Scope where
  bindings := .ofList
    [(Reserved.out, .writer (.output "o")), (Reserved.flush, .data (.bool true))]
  script := ⟨"/s.x", "a"⟩
  context := "request"
  helper := some ⟨0⟩
  ownsHelper := true

/-- An engine whose scripts leave their text among the bindings, where its functions find it. -/
def leaving : Engine where
  evaluate source ctx :=
    match source.text with
    | .error e => .fail e
    | .ok text =>
      .done (.ok ⟨.null, { ctx with bindings := ctx.bindings.insert "left" (.data (.text text)) }⟩)
  invoke? := some fun ctx _ _ => .done (.ok ((ctx.bindings.data? "left").getD .null))

def described (engine : Engine) (callText? : String → List Data → Option String) : Descriptor :=
  let factory : Factory := {
    id := .given "a"
    engineName := "a"
    names := ["a"]
    extensions := ["x"]
    languageName := "a"
    callText?
    engine }
  { factory with factory, origin := .dynamic, priority := ⟨0, 1⟩ }

/-- An engine that repeats its source and cannot call. -/
def echoing : Descriptor :=
  described (Behaviour.echo.engine false false) fun _ _ => none

/-- An evaluation in all this, with an output for errors of some name. -/
def trial (d : Descriptor) (source : ResourceId) (method : Option MethodCall) (errors : String) :
    Except EvaluationError Data × Stage :=
  (⟨none, assisted⟩ : Stage).evaluate choked flushed d source method (some (.output errors))

end Sample

namespace Stage

open Sample

/-- The script has run, and of two flushes of one output the second fails. Where that does not
happen, what is called goes on where the source has left off, or stands behind the source, or cannot
be called; and a source that breaks off is a failure of the engine. -/
theorem evaluations_end_alike_choked :
    (∃ ready ran, assisted.Prepared ready ∧
      Performs choked echoing ⟨"/s.x"⟩ none (contextOf flushed (some (.output "o"))) ready none
        ran ∧
      Closes choked flushed (some (.output "o")) assisted ran
        ((trial echoing ⟨"/s.x"⟩ none "o").1, (trial echoing ⟨"/s.x"⟩ none "o").2.world)) ∧
      (trial echoing ⟨"/s.x"⟩ none "o").1 = .error ⟨"/s.x", "o", some "/p", some (.io "o")⟩ ∧
      (trial echoing ⟨"/s.x"⟩ none "o").2.world.journal =
        [.makeEngine (.given "a") 1, .openResource ⟨"/s.x"⟩,
          .write (.output "o") (Text.encode "n") none, .flush (.output "o") none,
          .flush (.output "o") (some "o"), .release ⟨0⟩ 3 false] ∧
      (trial (described leaving fun _ _ => none) ⟨"/s.x"⟩ (some ⟨"f", []⟩) "e").1 =
        .ok (.text "n") ∧
      (trial (described (Behaviour.echo.engine false false) fun name args =>
        some (callText name args)) ⟨"/s.x"⟩ (some ⟨"f", [.int 1]⟩) "e").1 =
          .ok (.text "n\nf[1]\n") ∧
      (trial echoing ⟨"/s.x"⟩ (some ⟨"f", []⟩) "e").1 =
        .error ⟨"/s.x", "unsupported operation: a cannot call method f", some "/p",
          some (.unsupported "a cannot call method f")⟩ ∧
      (trial echoing ⟨"/torn.x"⟩ none "e").1 =
        .error ⟨"/s.x", "torn", some "/p", some (.io "torn")⟩ := by
  refine ⟨evaluations_end_alike ⟨none, assisted⟩ choked flushed echoing ⟨"/s.x"⟩ none
    (some (.output "o")), ?_, ?_, ?_, ?_, ?_, ?_⟩
  · cbv
  · cbv
  · cbv
  · cbv
  · cbv
  · cbv

end Stage

end ScriptHost
