import ScriptHost.Proofs.Engine.Spelling
import ScriptHost.Proofs.Host.Serving
import ScriptHost.Proofs.Scope.Agreement

/-! # Who decides where hints are looked for

A request may come with the options of an execution, among the bindings or with a helper, and a
scope takes it from wherever it comes. An engine has been chosen before that: by a resolver among
the options, or else by that of a request among the options. `Host.dispatch_by_options` says what
this comes to. The engine is the one for the request's own resolver, in every host, if and only if
both resolvers lead to the same language hint; so it is where the request is among the options and
no resolver is, and it may be another one if the request is given in any other way. -/

namespace ScriptHost

/-! ## The request of a scope -/

/-- There is a request with its response, whoever has given them. -/
structure Execution.HasPair (x : Execution) (w : World) (q : RequestId) (p : ResponseId) :
    Prop where
  request : Agreed (x.requests (x.brought w)) (some q)
  response : Agreed (x.responses (x.brought w)) (some p)

/-- The helpers are all that matters of a world. -/
theorem Execution.HasPair.of_helpers {x : Execution} {w w' : World} {q : RequestId} {p : ResponseId}
    (h : x.HasPair w q p) (hhelpers : w'.helpers = w.helpers) : x.HasPair w' q p := by
  have hbrought : x.brought w' = x.brought w := by
    unfold Execution.brought World.helper?
    rw [hhelpers]
  constructor
  · rw [hbrought]
    exact h.request
  · rw [hbrought]
    exact h.response

/-- **A scope that is assembled for a request holds that request.** -/
theorem Pipeline.request_of_build {p : Pipeline} {around : Surroundings} {x : Execution}
    {w w' : World} {scope : Scope} {q : RequestId} {response : ResponseId}
    (hbuild : p.build around x w = (.ok scope, w')) (hpair : x.HasPair w q response) :
    scope.bindings.get? Reserved.request = some (.request q) := by
  have hfree : x.conflict? around w = none := by
    cases hconflict : x.conflict? around w with
    | none => rfl
    | some e => cases (build_conflict hconflict).symm.trans hbuild
  have hgiven : some q ∈ x.requests (x.brought w) := (hpair.request q).mpr rfl
  obtain ⟨hnone, -⟩ | ⟨b, laid, h, v, hchosen, hlay, heq⟩ := build_of_clear hfree p
  · cases (hnone q).mp hgiven
  · rw [heq] at hbuild
    have hhosts := hosts_finish hchosen hlay hbuild
    have hq : b.request = q := Option.some.inj ((hchosen.request q).mp hgiven)
    have hname := hhosts.names (Reserved.request, .request b.request)
      (by simp [Execution.hostNames])
    rw [← hq]
    exact hname

namespace Host

/-! ## The engine of an execution -/

/-- Executes a script by an engine that has been chosen, if any has. -/
def executeBy (h : Host) (around : Surroundings) (script : ResourceId) (bindings : Bindings)
    (o : ExecuteOptions) : Option Descriptor → Except ExecuteError (Option Data) × Host
  | none => (.ok none, h)
  | some d =>
    match h.pipeline.build around (executionOf around script bindings o d) h.world with
    | (.error e, w) => (.error (.scope e), { h with world := w })
    | (.ok scope, w) => h.evaluated
        (Stage.evaluate ⟨some h.site.cache, w⟩ around scope d script o.method o.errors)

/-- **What an execution does after it has chosen an engine depends on that engine alone.** -/
theorem execute_eq (h : Host) (around : Surroundings) (script : ResourceId) (bindings : Bindings)
    (o : ExecuteOptions) :
    h.execute around script bindings o =
      h.executeBy around script bindings o (h.resolve around script (resolverOf around o)) := by
  show _ = h.executeBy around script bindings o (h.engineFor around script o)
  cases hd : h.engineFor around script o with
  | none => exact execute_of_none hd bindings
  | some d =>
      unfold executeBy
      dsimp only
      split
      · next hscope => exact execute_of_scopeError hd hscope
      · next hscope => exact execute_of_scope hd hscope

/-- The language hint for a script that a resolver leads to, or the script's own. -/
def hintBy (around : Surroundings) (script : ResourceId) (resolver : Option ResolverId) :
    Option String :=
  let resource := around.resource script
  let hint := match resolver with
    | some r => around.languageHint script (around.resolver r)
    | none => resource.hint
  (Path.extension? resource.path).bind hint

theorem resolve_eq_select (h : Host) (around : Surroundings) (script : ResourceId)
    (resolver : Option ResolverId) :
    h.resolve around script resolver = h.registry.snapshot.select (around.resource script).path
      (hintBy around script resolver) := by
  cases resolver <;> rfl

/-! ## Telling resolvers apart -/

theorem after_addHelpers (helpers : List Helper) (h : Host) :
    (h.after (helpers.map .addHelper)).world.helpers = h.world.helpers ++ helpers ∧
      (h.after (helpers.map .addHelper)).registry = h.registry := by
  induction helpers generalizing h with
  | nil => exact ⟨(List.append_nil _).symm, rfl⟩
  | cons helper rest ih =>
      rw [List.map_cons, after_cons]
      obtain ⟨hhelpers, hregistry⟩ := ih (h.serve (.addHelper helper)).2
      refine ⟨?_, hregistry⟩
      rw [hhelpers]
      exact List.append_assoc h.world.helpers [helper] rest

theorem registry_register (h : Host) (request : Registration) :
    (h.serve (.register request)).2.registry = (h.registry.apply request).2.1 :=
  Installation.registries_register h.site home request

/-- A new host that has some helpers and knows one language. -/
def knowing (helpers : List Helper) (language : String) : Host :=
  (((Host.start {} none none false).after (helpers.map .addHelper)).serve
    (.register (speaking language))).2

theorem reachable_bare : (Host.start {} none none false).Reachable := by
  refine .start {} none false ?_
  intro s hs
  cases hs

theorem reachable_knowing (helpers : List Helper) (language : String) :
    (knowing helpers language).Reachable :=
  (reachable_bare.after _).serve _

theorem helpers_knowing (helpers : List Helper) (language : String) :
    (knowing helpers language).world.helpers = helpers := by
  have hworld : ∀ (h : Host) (request : Registration),
      (h.serve (.register request)).2.world = h.world := fun _ _ => rfl
  have hstart : (Host.start {} none none false).world.helpers = [] := rfl
  unfold knowing
  rw [hworld, (after_addHelpers helpers _).1, hstart, List.nil_append]

/-- Such a host has an engine for a script just if the hint names its language. -/
theorem resolve_knowing (helpers : List Helper) (language : String) (around : Surroundings)
    (script : ResourceId) (resolver : Option ResolverId) :
    ((knowing helpers language).resolve around script resolver).isSome = true ↔
      Text.EqualFold (hintBy around script resolver) (some language) := by
  have hstart : (Host.start {} none none false).registry.members.all = [] := rfl
  rw [resolve_eq_select]
  unfold knowing
  rw [registry_register, (after_addHelpers helpers _).2]
  exact EngineRegistry.select_speaking hstart language _ _

/-- **Resolvers come to the same in every host if and only if they lead to the same hint**, even if
only hosts with certain helpers count. -/
theorem resolve_eq_iff {around : Surroundings} {script : ResourceId} {a b : Option ResolverId}
    {counts : Host → Prop} (helpers : List Helper)
    (hcounts : ∀ h : Host, h.world.helpers = helpers → counts h) :
    (∀ h : Host, h.Reachable → counts h →
      h.resolve around script a = h.resolve around script b) ↔
      Text.EqualFold (hintBy around script a) (hintBy around script b) := by
  constructor
  · intro hsame
    refine Text.equalFold_of_forall fun language => ?_
    rw [← resolve_knowing helpers language, ← resolve_knowing helpers language,
      hsame _ (reachable_knowing helpers language) (hcounts _ (helpers_knowing helpers language))]
  · intro hhint h _ _
    rw [resolve_eq_select, resolve_eq_select]
    exact Snapshot.select_congr rfl hhint

/-! ## Dispatch and scope -/

/-- An execution comes with a request and its response, whatever engine is chosen for it. -/
def Brings (around : Surroundings) (script : ResourceId) (bindings : Bindings) (o : ExecuteOptions)
    (w : World) (q : RequestId) (p : ResponseId) : Prop :=
  ∀ d, (executionOf around script bindings o d).HasPair w q p

/-- What the request of an execution has to do with the choice of its engine. -/
structure Dispatch (around : Surroundings) (script : ResourceId) (bindings : Bindings)
    (o : ExecuteOptions) (w : World) (q : RequestId) (p : ResponseId) : Prop where
  /-- The scope has the request, whoever has given it. -/
  held : ∀ (h : Host) (d : Descriptor) (scope : Scope) (w' : World),
    Brings around script bindings o h.world q p →
    h.pipeline.build around (executionOf around script bindings o d) h.world = (.ok scope, w') →
      scope.bindings.get? Reserved.request = some (.request q)
  /-- The engine is the one for the resolver that the options lead to: -/
  chosen : ∀ h : Host, h.execute around script bindings o =
    h.executeBy around script bindings o (h.resolve around script (resolverOf around o))
  /-- a resolver among them, in any case, -/
  preferred : ∀ r, o.resolver = some r → resolverOf around o = some r
  /-- or else that of the request, if it is among them, -/
  own : o.resolver = none → o.request = some q →
    resolverOf around o = some (around.request q).resolver
  /-- and none if it is given in another way. -/
  elsewhere : o.resolver = none → o.request = none → resolverOf around o = none
  /-- So this is the engine for the request's own resolver if and only if the hints are the same, -/
  agrees : (∀ h : Host, h.Reachable → Brings around script bindings o h.world q p →
      h.resolve around script (resolverOf around o) =
        h.resolve around script (some (around.request q).resolver)) ↔
    Text.EqualFold (hintBy around script (resolverOf around o))
      (hintBy around script (some (around.request q).resolver))
  /-- and the same for every way of giving the request on the same condition. -/
  alike : ∀ (bindings' : Bindings) (o' : ExecuteOptions),
    Brings around script bindings' o' w q p →
      ((∀ h : Host, h.Reachable → Brings around script bindings o h.world q p →
          Brings around script bindings' o' h.world q p →
          h.resolve around script (resolverOf around o) =
            h.resolve around script (resolverOf around o')) ↔
        Text.EqualFold (hintBy around script (resolverOf around o))
          (hintBy around script (resolverOf around o')))

/-- **Engines are chosen by the options, and scopes are laid for the request.** -/
theorem dispatch_by_options {around : Surroundings} {script : ResourceId} {bindings : Bindings}
    {o : ExecuteOptions} {w : World} {q : RequestId} {p : ResponseId}
    (hpair : Brings around script bindings o w q p) :
    Dispatch around script bindings o w q p := by
  have hbrings : ∀ h : Host, h.world.helpers = w.helpers →
      Brings around script bindings o h.world q p :=
    fun h hhelpers d => (hpair d).of_helpers hhelpers
  constructor
  · intro h d scope w' hgiven hbuild
    exact Pipeline.request_of_build hbuild (hgiven d)
  · exact fun h => h.execute_eq around script bindings o
  · intro r hr
    unfold resolverOf
    rw [hr]
    rfl
  · intro hnone hq
    unfold resolverOf
    rw [hnone, hq]
    rfl
  · intro hnone hnone'
    unfold resolverOf
    rw [hnone, hnone']
    rfl
  · exact resolve_eq_iff w.helpers hbrings
  · intro bindings' o' hpair'
    have hboth : ∀ h : Host, h.world.helpers = w.helpers →
        Brings around script bindings o h.world q p ∧
          Brings around script bindings' o' h.world q p :=
      fun h hhelpers => ⟨hbrings h hhelpers, fun d => (hpair' d).of_helpers hhelpers⟩
    rw [← resolve_eq_iff w.helpers hboth]
    simp only [and_imp]

end Host

/-! ## A root with a hint -/

namespace Sample

/-- The root gives a hint, and there are two resolvers: one that leads to the root, and one that
leads nowhere. The request goes with the first. -/
def hinting : Surroundings where
  resource r := { Surroundings.rooted.resource r with opening := .ok ⟨Text.encode "n", none⟩ }
  resolver r := if r.name = "tree" then Surroundings.rooted.resolver r else
    { resolve := fun _ => none }
  request _ := {
    path := "/", resource := ⟨"/"⟩, resolver := ⟨"tree"⟩, body := [], tracked := false }
  response _ := ⟨.discard⟩
  output _ := {}

/-- A request and its response among the options, beside a resolver. -/
def optionsWith (resolver : Option ResolverId) : ExecuteOptions where
  request := some ⟨"q"⟩
  response := some ⟨"p"⟩
  resolver := resolver

/-- The same among the bindings. -/
def boundPair : Bindings :=
  .ofList [(Reserved.request, .request ⟨"q"⟩), (Reserved.response, .response ⟨"p"⟩)]

/-- A host with an engine that repeats the source and one that lists bindings. -/
def rivals : Host :=
  (Host.start {} none none false).after
    [Sample.register "a" .echo ["x"], Sample.register "b" .vars ["x"]]

theorem reachable_rivals : rivals.Reachable :=
  Host.reachable_bare.after _

theorem brings_optionsWith (resolver : Option ResolverId) :
    Host.Brings hinting ⟨"/s.x"⟩ .empty (optionsWith resolver) {} ⟨"q"⟩ ⟨"p"⟩ := by
  intro d
  constructor
  · intro r
    simp [Execution.requests, Execution.bound, Execution.brought, Host.executionOf, optionsWith,
      eq_comm]
  · intro r
    simp [Execution.responses, Execution.bound, Execution.brought, Host.executionOf, optionsWith,
      eq_comm]

theorem brings_boundPair :
    Host.Brings hinting ⟨"/s.x"⟩ boundPair {} {} ⟨"q"⟩ ⟨"p"⟩ := by
  intro d
  have hhelper : boundPair.get? Reserved.helper = none := by decide
  have hrequest : boundPair.get? Reserved.request = some (.request ⟨"q"⟩) :=
    OrderedMap.get?_ofList_of_mem (by decide) List.mem_cons_self
  have hresponse : boundPair.get? Reserved.response = some (.response ⟨"p"⟩) :=
    OrderedMap.get?_ofList_of_mem (by decide) (List.mem_cons_of_mem _ List.mem_cons_self)
  constructor
  · intro r
    simp [Execution.requests, Execution.bound, Execution.brought, Host.executionOf, hhelper,
      hrequest, BindingValue.asRequest?, eq_comm]
  · intro r
    simp [Execution.responses, Execution.bound, Execution.brought, Host.executionOf, hhelper,
      hresponse, BindingValue.asResponse?, eq_comm]

end Sample

namespace Host

open Sample

/-- With a resolver that leads nowhere among the options, or with the request among the bindings,
the hint of the root is missed; both come to the same, and not to what the request's resolver leads
to. -/
theorem dispatch_by_options_missed :
    Brings hinting ⟨"/s.x"⟩ .empty (optionsWith (some ⟨"plain"⟩)) {} ⟨"q"⟩ ⟨"p"⟩ ∧
      Dispatch hinting ⟨"/s.x"⟩ .empty (optionsWith (some ⟨"plain"⟩)) {} ⟨"q"⟩ ⟨"p"⟩ ∧
      (¬ ∀ h : Host, h.Reachable →
        h.resolve hinting ⟨"/s.x"⟩ (some ⟨"plain"⟩) = h.resolve hinting ⟨"/s.x"⟩ (some ⟨"tree"⟩)) ∧
      ∀ h : Host, h.Reachable →
        Brings hinting ⟨"/s.x"⟩ .empty (optionsWith (some ⟨"plain"⟩)) h.world ⟨"q"⟩ ⟨"p"⟩ →
        Brings hinting ⟨"/s.x"⟩ boundPair {} h.world ⟨"q"⟩ ⟨"p"⟩ →
          h.resolve hinting ⟨"/s.x"⟩ (some ⟨"plain"⟩) = h.resolve hinting ⟨"/s.x"⟩ none := by
  have hpair := brings_optionsWith (some ⟨"plain"⟩)
  have hdispatch := dispatch_by_options hpair
  have htree : hintBy hinting ⟨"/s.x"⟩ (some ⟨"tree"⟩) = some "b" := by cbv
  have hplain : hintBy hinting ⟨"/s.x"⟩ (some ⟨"plain"⟩) = none := by cbv
  have hnone : hintBy hinting ⟨"/s.x"⟩ none = none := by cbv
  refine ⟨hpair, hdispatch, ?_, ?_⟩
  · intro hsame
    have hhint := hdispatch.agrees.mp fun h hh _ => hsame h hh
    rw [show resolverOf hinting (optionsWith (some ⟨"plain"⟩)) = some ⟨"plain"⟩ from rfl, hplain]
      at hhint
    rw [show (hinting.request ⟨"q"⟩).resolver = ⟨"tree"⟩ from rfl, htree] at hhint
    cases hhint
  · refine (hdispatch.alike boundPair {} brings_boundPair).mpr ?_
    show Text.EqualFold (hintBy hinting ⟨"/s.x"⟩ (some ⟨"plain"⟩)) (hintBy hinting ⟨"/s.x"⟩ none)
    rw [hplain, hnone]
    rfl

/-- Of two engines the root prefers the second. An execution with its request among the options runs
it, and one that has the same request in another way, or a resolver beside it, runs the first. -/
theorem preferred_resolver_counts :
    rivals.Reachable ∧
      (∀ resolver, Brings hinting ⟨"/s.x"⟩ .empty (optionsWith resolver) rivals.world ⟨"q"⟩ ⟨"p"⟩) ∧
      Brings hinting ⟨"/s.x"⟩ boundPair {} rivals.world ⟨"q"⟩ ⟨"p"⟩ ∧
      (rivals.execute hinting ⟨"/s.x"⟩ .empty (optionsWith none)).1 =
        .ok (some (.list [.text "n=-"])) ∧
      (rivals.execute hinting ⟨"/s.x"⟩ .empty (optionsWith (some ⟨"plain"⟩))).1 =
        .ok (some (.text "n")) ∧
      (rivals.execute hinting ⟨"/s.x"⟩ boundPair {}).1 = .ok (some (.text "n")) := by
  have hhelpers : rivals.world.helpers = ({} : World).helpers := rfl
  refine ⟨reachable_rivals, fun resolver d => (brings_optionsWith resolver d).of_helpers hhelpers,
    fun d => (brings_boundPair d).of_helpers hhelpers, ?_, ?_, ?_⟩
  · cbv
  · cbv
  · cbv

end Host

end ScriptHost
