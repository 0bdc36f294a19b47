import ScriptHost.Proofs.Host.Disposal
import ScriptHost.Proofs.Provider.Priority

/-! # What is given more than once must be the same

A request may come from the caller himself, from his bindings and from a helper that he brings
along, and so may the response; a resource and a resolver may come from the bindings and from the
helper. Before any provider runs, the assembly of a scope makes a list of checks
(`Execution.checks`): that a helper is where one should be, that all that is given for a field is
the same, and that a request has its response. The first check that fails
(`Execution.FirstFault`) is what the assembly ends with. Past the checks only providers can make it
fail, and a scope with a request is then of one piece: its helper and its reserved names have the
same parts (`Execution.Unites`). -/

namespace ScriptHost

/-! ## Agreement -/

/-- Two candidates are there that are not the same. -/
def Differ {α : Type} (candidates : List (Option α)) : Prop :=
  ∃ a b, some a ∈ candidates ∧ some b ∈ candidates ∧ a ≠ b

theorem Agreed.not_differ {α : Type} {candidates : List (Option α)} {chosen : Option α}
    (h : Agreed candidates chosen) : ¬ Differ candidates := by
  rintro ⟨a, b, ha, hb, hne⟩
  have hboth : some a = some b := ((h a).mp ha).symm.trans ((h b).mp hb)
  exact hne (Option.some.inj hboth)

theorem differ_of_agree {α : Type} [DecidableEq α] {field : HelperField}
    {candidates : List (Option α)} {e : ScopeError} (h : agree field candidates = .error e) :
    e = .inconsistentHelper field ∧ Differ candidates := by
  fun_induction agree field candidates with
  | case1 => cases h
  | case2 rest ih =>
      obtain ⟨he, a, b, ha, hb, hne⟩ := ih h
      exact ⟨he, a, b, List.mem_cons_of_mem none ha, List.mem_cons_of_mem none hb, hne⟩
  | case3 a rest hall => cases h
  | case4 a rest hall =>
      cases h
      rw [List.all_eq_true] at hall
      push Not at hall
      obtain ⟨c, hc, hother⟩ := hall
      cases c with
      | none => exact absurd rfl hother
      | some b =>
          have hne : b ≠ a := by simpa using hother
          exact ⟨rfl, a, b, List.mem_cons_self, List.mem_cons_of_mem _ hc, hne.symm⟩

/-- **Candidates are rejected just if two of them differ.** -/
theorem agree_cases {α : Type} [DecidableEq α] (field : HelperField)
    (candidates : List (Option α)) :
    (Differ candidates ∧ agree field candidates = .error (.inconsistentHelper field)) ∨
      (¬ Differ candidates ∧ ∃ chosen, agree field candidates = .ok chosen ∧
        Agreed candidates chosen) := by
  cases h : agree field candidates with
  | error e =>
      obtain ⟨rfl, hdiffer⟩ := differ_of_agree h
      exact .inl ⟨hdiffer, rfl⟩
  | ok chosen =>
      have hagreed := agreed_of_agree h
      exact .inr ⟨hagreed.not_differ, chosen, rfl, hagreed⟩

namespace Execution

/-! ## The checks -/

/-- The helper that the caller brings along. -/
def brought (x : Execution) (w : World) : Option Helper :=
  (x.bound Reserved.helper BindingValue.asHelper?).bind w.helper?

def responses (x : Execution) (helper : Option Helper) : List (Option ResponseId) :=
  [x.response, x.bound Reserved.response BindingValue.asResponse?, helper.map Helper.response]

def resources (x : Execution) (helper : Option Helper) : List (Option ResourceId) :=
  [x.bound Reserved.resource BindingValue.asResource?, helper.map Helper.resource]

def resolvers (x : Execution) (helper : Option Helper) : List (Option ResolverId) :=
  [x.bound Reserved.resolver BindingValue.asResolver?, helper.map Helper.resolver]

/-- A request and a response are there. -/
def Paired (x : Execution) (helper : Option Helper) : Prop :=
  (∃ r, some r ∈ x.requests helper) ∧ ∃ r, some r ∈ x.responses helper

/-- What each check complains of, taken by itself. -/
def Fails (x : Execution) (helper : Option Helper) : ScopeError → Prop
  | .inconsistentHelper .helper =>
    ∃ v, x.bindings.get? Reserved.helper = some v ∧ v.asHelper? = none
  | .inconsistentHelper .request => Differ (x.requests helper)
  | .inconsistentHelper .response => Differ (x.responses helper)
  | .missingResponse => (∃ r, some r ∈ x.requests helper) ∧ ∀ r, some r ∉ x.responses helper
  | .inconsistentHelper .resource => x.Paired helper ∧ Differ (x.resources helper)
  | .inconsistentHelper .resolver => x.Paired helper ∧ Differ (x.resolvers helper)
  | .reservedKey _ => False
  | .provider _ _ => False

/-- The checks in the order in which they are made. -/
def checks : List ScopeError :=
  [.inconsistentHelper .helper, .inconsistentHelper .request, .inconsistentHelper .response,
    .missingResponse, .inconsistentHelper .resource, .inconsistentHelper .resolver]

/-- The first so many checks hold. -/
def Passes (x : Execution) (helper : Option Helper) (n : Nat) : Prop :=
  ∀ e ∈ checks.take n, ¬ x.Fails helper e

/-- A check fails, and all before it hold. -/
def FirstFault (x : Execution) (helper : Option Helper) (e : ScopeError) : Prop :=
  ∃ n, checks[n]? = some e ∧ x.Fails helper e ∧ x.Passes helper n

namespace Passes

variable {x : Execution} {helper : Option Helper} {n : Nat}

theorem next (h : x.Passes helper n) (e : ScopeError) (hn : checks[n]? = some e)
    (hholds : ¬ x.Fails helper e) : x.Passes helper (n + 1) := by
  intro d hd
  rw [List.take_add_one, hn] at hd
  rcases List.mem_append.mp hd with hd | hd
  · exact h d hd
  · rw [List.mem_singleton.mp hd]
    exact hholds

theorem holds (h : x.Passes helper n) {m : Nat} {e : ScopeError} (hm : checks[m]? = some e)
    (hlt : m < n) : ¬ x.Fails helper e :=
  h e (List.mem_of_getElem? ((List.getElem?_take_of_lt hlt).trans hm))

theorem not_firstFault (h : x.Passes helper checks.length) (e : ScopeError) :
    ¬ x.FirstFault helper e := by
  rintro ⟨n, hn, hfails, -⟩
  rw [Passes, List.take_length] at h
  exact h e (List.mem_of_getElem? hn) hfails

end Passes

/-- There is one first fault at most. -/
theorem FirstFault.unique {x : Execution} {helper : Option Helper} {d e : ScopeError}
    (hd : x.FirstFault helper d) (he : x.FirstFault helper e) : d = e := by
  obtain ⟨m, hm, hfails, hpasses⟩ := hd
  obtain ⟨n, hn, hfails', hpasses'⟩ := he
  have hmn : ¬ m < n := fun hlt => hpasses'.holds hm hlt hfails
  have hnm : ¬ n < m := fun hlt => hpasses.holds hn hlt hfails'
  have heq : m = n := by omega
  rw [heq] at hm
  exact Option.some.inj (hm.symm.trans hn)

theorem suppliedHelper?_cases (x : Execution) (helper : Option Helper) :
    (x.Fails helper (.inconsistentHelper .helper) ∧
      x.suppliedHelper? = .error (.inconsistentHelper .helper)) ∨
    (¬ x.Fails helper (.inconsistentHelper .helper) ∧
      x.suppliedHelper? = .ok (x.bound Reserved.helper BindingValue.asHelper?)) := by
  unfold suppliedHelper? bound Fails
  cases x.bindings.get? Reserved.helper with
  | none => exact .inr ⟨by simp, rfl⟩
  | some v =>
      dsimp only [Option.bind_some]
      cases hv : v.asHelper? with
      | none => exact .inl ⟨⟨v, rfl, hv⟩, rfl⟩
      | some h => exact .inr ⟨by simp [hv], rfl⟩

/-- **The base layer fails with the first check that fails**, if the first of all holds. -/
theorem base?_cases {x : Execution} {helper : Option Helper} (hpasses : x.Passes helper 1)
    (around : Surroundings) :
    (∃ e, x.FirstFault helper e ∧ x.base? around helper = .error e) ∨
      ((∀ e, ¬ x.FirstFault helper e) ∧ ∃ base, x.base? around helper = .ok base) := by
  unfold base?
  obtain ⟨hdiffer, hrequests⟩ | ⟨hsame, request, hrequests, hrequest⟩ :=
    agree_cases .request (x.requests helper) <;> unfold requests at hrequests <;> rw [hrequests]
  · exact .inl ⟨_, ⟨1, rfl, hdiffer, hpasses⟩, rfl⟩
  have hpasses := hpasses.next (.inconsistentHelper .request) rfl hsame
  obtain ⟨hdiffer, hresponses⟩ | ⟨hsame, response, hresponses, hresponse⟩ :=
    agree_cases .response (x.responses helper) <;> unfold responses at hresponses <;>
      rw [hresponses]
  · exact .inl ⟨_, ⟨2, rfl, hdiffer, hpasses⟩, rfl⟩
  have hpasses := hpasses.next (.inconsistentHelper .response) rfl hsame
  cases request with
  | none =>
      -- Without a request, the checks that are left have nothing to complain of.
      have hnone : ∀ r, some r ∉ x.requests helper := by
        intro r hr
        cases (hrequest r).mp hr
      have hunpaired : ¬ x.Paired helper := fun ⟨⟨r, hr⟩, _⟩ => hnone r hr
      have hpasses := hpasses.next .missingResponse rfl fun ⟨⟨r, hr⟩, _⟩ => hnone r hr
      have hpasses := hpasses.next (.inconsistentHelper .resource) rfl fun h => hunpaired h.1
      have hpasses := hpasses.next (.inconsistentHelper .resolver) rfl fun h => hunpaired h.1
      exact .inr ⟨hpasses.not_firstFault, none, rfl⟩
  | some request =>
      have hpresent : some request ∈ x.requests helper := (hrequest request).mpr rfl
      cases response with
      | none =>
          have hnone : ∀ r, some r ∉ x.responses helper := by
            intro r hr
            cases (hresponse r).mp hr
          exact .inl ⟨_, ⟨3, rfl, ⟨⟨request, hpresent⟩, hnone⟩, hpasses⟩, rfl⟩
      | some response =>
          have hpresent' : some response ∈ x.responses helper := (hresponse response).mpr rfl
          have hpaired : x.Paired helper := ⟨⟨request, hpresent⟩, response, hpresent'⟩
          have hpasses := hpasses.next .missingResponse rfl fun h => h.2 response hpresent'
          obtain ⟨hdiffer, hresources⟩ | ⟨hsame, resource, hresources, -⟩ :=
            agree_cases .resource (x.resources helper) <;> unfold resources at hresources <;>
              rw [hresources]
          · exact .inl ⟨_, ⟨4, rfl, ⟨hpaired, hdiffer⟩, hpasses⟩, rfl⟩
          have hpasses := hpasses.next (.inconsistentHelper .resource) rfl fun h => hsame h.2
          obtain ⟨hdiffer, hresolvers⟩ | ⟨hsame, resolver, hresolvers, -⟩ :=
            agree_cases .resolver (x.resolvers helper) <;> unfold resolvers at hresolvers <;>
              rw [hresolvers]
          · exact .inl ⟨_, ⟨5, rfl, ⟨hpaired, hdiffer⟩, hpasses⟩, rfl⟩
          have hpasses := hpasses.next (.inconsistentHelper .resolver) rfl fun h => hsame h.2
          exact .inr ⟨hpasses.not_firstFault, _, rfl⟩

/-- **What the assembly checks before any provider runs.** -/
theorem conflict?_cases (x : Execution) (around : Surroundings) (w : World) :
    (∃ e, x.FirstFault (x.brought w) e ∧ x.conflict? around w = some e) ∨
      ((∀ e, ¬ x.FirstFault (x.brought w) e) ∧ x.conflict? around w = none) := by
  unfold conflict?
  obtain ⟨hfails, heq⟩ | ⟨hholds, heq⟩ := x.suppliedHelper?_cases (x.brought w) <;> rw [heq]
  · refine .inl ⟨_, ⟨0, rfl, hfails, ?_⟩, rfl⟩
    intro e he
    cases he
  · have hpasses : x.Passes (x.brought w) 1 := by
      intro e he
      rw [List.mem_singleton.mp he]
      exact hholds
    dsimp only
    obtain ⟨e, he, hbase⟩ | ⟨hclear, base, hbase⟩ := base?_cases hpasses around <;>
      unfold brought at hbase <;> rw [hbase]
    · exact .inl ⟨e, he, rfl⟩
    · exact .inr ⟨hclear, rfl⟩

/-- Past the checks, what is bound in the place of a helper is one. -/
theorem helper_of_clear {x : Execution} {around : Surroundings} {w : World}
    (hfree : x.conflict? around w = none) :
    (x.bindings.get? Reserved.helper = none ∧
      x.bound Reserved.helper BindingValue.asHelper? = none) ∨
    ∃ h, x.bindings.get? Reserved.helper = some (.helper h) ∧
      x.bound Reserved.helper BindingValue.asHelper? = some h := by
  unfold conflict? suppliedHelper? at hfree
  unfold bound
  cases hget : x.bindings.get? Reserved.helper with
  | none => exact .inl ⟨rfl, rfl⟩
  | some v =>
      rw [hget] at hfree
      cases v with
      | helper h => exact .inr ⟨h, rfl, rfl⟩
      | _ => cases hfree

/-- All that is given for the parts of a request is what a helper has for them. -/
structure Fits (x : Execution) (helper : Option Helper) (known : Helper) : Prop where
  request : ∀ r, some r ∈ x.requests helper → r = known.request
  response : ∀ r, some r ∈ x.responses helper → r = known.response
  resource : ∀ r, some r ∈ x.resources helper → r = known.resource
  resolver : ∀ r, some r ∈ x.resolvers helper → r = known.resolver

theorem Chooses.fits {x : Execution} {around : Surroundings} {helper : Option Helper} {b : Base}
    {known : Helper} (h : x.Chooses around helper b) (hparts : b.PartsOf known) :
    x.Fits helper known := by
  obtain ⟨hrequest, hresponse, hresource, hresolver⟩ := hparts
  obtain ⟨resource, hagreed, hchosen⟩ := h.resource
  obtain ⟨resolver, hagreed', hchosen'⟩ := h.resolver
  constructor
  · intro r hr
    rw [hrequest]
    exact (Option.some.inj ((h.request r).mp hr)).symm
  · intro r hr
    rw [hresponse]
    exact (Option.some.inj ((h.response r).mp hr)).symm
  · intro r hr
    rw [hresource, hchosen, (hagreed r).mp hr, Option.getD_some]
  · intro r hr
    rw [hresolver, hchosen', (hagreed' r).mp hr, Option.getD_some]

end Execution

/-! ## Past the checks -/

/-- A scope is of one piece: what its names stand for is its helper and what that helper has. -/
structure Scope.Unites (s : Scope) (w : World) (h : HelperId) (known : Helper) : Prop where
  helper : s.helper = some h
  found : w.helper? h = some known
  bound : s.bindings.get? Reserved.helper = some (.helper h)
  request : s.bindings.get? Reserved.request = some (.request known.request)
  response : s.bindings.get? Reserved.response = some (.response known.response)
  resource : s.bindings.get? Reserved.resource = some (.resource known.resource)
  resolver : s.bindings.get? Reserved.resolver = some (.resolver known.resolver)

namespace Pipeline

/-- What comes of an assembly is what its providers make of something laid for them. -/
def Provides (p : Pipeline) (x : Execution) (r : Except ScopeError Scope) : Prop :=
  ∃ laid w tracked, r.map Scope.bindings = (provide p.settings tracked (p.providersOf x) laid w).1

theorem provides_finish (p : Pipeline) (around : Surroundings) (x : Execution) (laid : Bindings)
    (helper : Option HelperId) (owns : Bool) (w : World) :
    p.Provides x (p.finish around x laid helper owns w).1 := by
  unfold finish
  dsimp only
  generalize (helper.bind w.helper?).any (fun h => (around.request h.request).tracked) = tracked
  refine ⟨laid, w, tracked, ?_⟩
  unfold providersOf
  rcases provide p.settings tracked _ laid w with ⟨e | bindings, v⟩ <;> rfl

theorem finish_ok {p : Pipeline} {around : Surroundings} {x : Execution} {laid : Bindings}
    {helper : Option HelperId} {owns : Bool} {w v : World} {scope : Scope}
    (h : p.finish around x laid helper owns w = (.ok scope, v)) :
    scope.helper = helper ∧ scope.ownsHelper = owns := by
  unfold finish at h
  dsimp only at h
  split at h
  · cases h
  · cases h
    exact ⟨rfl, rfl⟩

/-- How an assembly goes on once no check has failed: without a request, or over the host's own
names. -/
theorem build_of_clear {x : Execution} {around : Surroundings} {w : World}
    (hfree : x.conflict? around w = none) (p : Pipeline) :
    (Agreed (x.requests (x.brought w)) none ∧
      p.build around x w = p.finish around x (.ofList (x.extras false)) none false w) ∨
    ∃ b laid h v, x.Chooses around (x.brought w) b ∧
      p.layBase around x (x.bound Reserved.helper BindingValue.asHelper?) b w = ((laid, h), v) ∧
      p.build around x w = p.finish around x (laid.insertAll (x.extras true)) (some h)
        (x.bound Reserved.helper BindingValue.asHelper?).isNone v := by
  unfold Execution.conflict? at hfree
  unfold build
  obtain ⟨-, heq⟩ | ⟨-, heq⟩ := x.suppliedHelper?_cases (x.brought w) <;> rw [heq] at hfree ⊢
  · cases hfree
  dsimp only at hfree ⊢
  cases hbase : x.base? around (x.brought w) with
  | error e =>
      unfold Execution.brought at hbase
      rw [hbase] at hfree
      cases hfree
  | ok base =>
      have hchosen := x.base?_ok hbase
      unfold Execution.brought at hbase
      rw [hbase]
      rcases hchosen with ⟨b, rfl, hchosen⟩ | ⟨rfl, hnone⟩
      · dsimp only
        rcases hlay : p.layBase around x _ b w with ⟨⟨laid, h⟩, v⟩
        exact .inr ⟨b, laid, h, v, hchosen, hlay, rfl⟩
      · exact .inl ⟨hnone, rfl⟩

/-- The helper of a scope is there once its base has been laid. -/
theorem helper?_layBase {p : Pipeline} {around : Surroundings} {x : Execution}
    {supplied : Option HelperId} {b : Base} {w v : World} {laid : Bindings} {h : HelperId}
    (hknown : ∀ h, supplied = some h → (w.helper? h).isSome = true)
    (hlay : p.layBase around x supplied b w = ((laid, h), v)) : (v.helper? h).isSome = true := by
  have hv : v = (p.layBase around x supplied b w).2 := by rw [hlay]
  have hh := p.layBase_helper around x supplied b w
  rw [hlay] at hh
  dsimp only at hh
  cases supplied with
  | none =>
      rw [hv, hh, ← World.helpers_reader x around b w]
      exact Option.isSome_of_eq_some (World.helper?_addHelper_self (x.reader around b w).2 _)
  | some k =>
      have hsame : v.helpers = w.helpers := by
        rw [hv, ← World.helpers_reader x around b w]
        rfl
      rw [hh]
      unfold World.helper? at hknown ⊢
      rw [hsame]
      exact hknown k rfl

/-- **A scope with a request is of one piece.** -/
theorem unites_finish {p : Pipeline} {around : Surroundings} {x : Execution} {b : Base}
    {w v w' : World} {laid : Bindings} {h : HelperId} {scope : Scope}
    (hknown : ∀ h, x.bound Reserved.helper BindingValue.asHelper? = some h →
      (w.helper? h).isSome = true)
    (hchosen : x.Chooses around (x.brought w) b)
    (hlay : p.layBase around x (x.bound Reserved.helper BindingValue.asHelper?) b w =
      ((laid, h), v)) {owns : Bool}
    (hfinish : p.finish around x (laid.insertAll (x.extras true)) (some h) owns v =
      (.ok scope, w')) :
    ∃ known, scope.Unites w' h known ∧ x.Fits (x.brought w) known := by
  have hhosts := hosts_finish hchosen hlay hfinish
  have hh := p.layBase_helper around x (x.bound Reserved.helper BindingValue.asHelper?) b w
  rw [hlay] at hh
  have hsome : (w'.helper? h).isSome = true := by
    obtain ⟨es, hretains⟩ := advances_finish hfinish
    rw [(hretains h).helper, Option.isSome_map]
    exact helper?_layBase hknown hlay
  obtain ⟨known, hhelper⟩ := Option.isSome_iff_exists.mp hsome
  have hparts : b.PartsOf known := hhosts.parts known (hh ▸ hhelper)
  refine ⟨known, ?_, hchosen.fits hparts⟩
  obtain ⟨hrequest, hresponse, hresource, hresolver⟩ := hparts
  have hnames := hhosts.names
  rw [← show h = _ from hh] at hnames
  simp only [Execution.hostNames, List.forall_mem_cons] at hnames
  obtain ⟨hhelper', hrequest', hresponse', hresource', hresolver', -⟩ := hnames
  constructor
  · exact (finish_ok hfinish).1
  · exact hhelper
  · exact hhelper'
  · rw [hrequest', hrequest]
  · rw [hresponse', hresponse]
  · rw [hresource', hresource]
  · rw [hresolver', hresolver]

/-- **What is given more than once must be the same, and the first fault is named.** Whatever a
caller gives, the assembly of his scope ends with the first check that fails; if none does, what
comes of it is up to the providers. A scope that is assembled for a request with its response is of
one piece with its helper, all that was given is in it, and the helper goes with the scope just if
the caller has brought none. A helper that he has brought was made some time before. -/
theorem parts_must_agree (around : Surroundings) (p : Pipeline) (x : Execution) (w : World)
    (hknown : ∀ h, x.bindings.get? Reserved.helper = some (.helper h) →
      (w.helper? h).isSome = true) :
    (∀ e, x.FirstFault (x.brought w) e → p.build around x w = (.error e, w)) ∧
      ((∀ e, ¬ x.FirstFault (x.brought w) e) → p.Provides x (p.build around x w).1) ∧
      ∀ s w', p.build around x w = (.ok s, w') → x.Paired (x.brought w) →
        ∃ h known, s.Unites w' h known ∧ x.Fits (x.brought w) known ∧
          (s.ownsHelper = true ↔ x.bindings.get? Reserved.helper = none) ∧
          ∀ v, x.bindings.get? Reserved.helper = some v → v = .helper h := by
  refine ⟨fun e he => ?_, fun hclear => ?_, fun s w' hbuild hpaired => ?_⟩
  · obtain ⟨e', he', hconflict⟩ | ⟨hclear, -⟩ := x.conflict?_cases around w
    · rw [build_conflict hconflict, he.unique he']
    · exact absurd he (hclear e)
  · obtain ⟨e, he, -⟩ | ⟨-, hfree⟩ := x.conflict?_cases around w
    · exact absurd he (hclear e)
    · obtain ⟨-, hbuild⟩ | ⟨b, laid, h, v, -, -, hbuild⟩ := build_of_clear hfree p
      · rw [hbuild]
        exact provides_finish ..
      · rw [hbuild]
        exact provides_finish ..
  · have hfree : x.conflict? around w = none := by
      cases hconflict : x.conflict? around w with
      | none => rfl
      | some e => cases (build_conflict hconflict).symm.trans hbuild
    obtain ⟨hnone, -⟩ | ⟨b, laid, h, v, hchosen, hlay, heq⟩ := build_of_clear hfree p
    · obtain ⟨⟨r, hr⟩, -⟩ := hpaired
      cases (hnone r).mp hr
    · rw [heq] at hbuild
      have hthere : ∀ k, x.bound Reserved.helper BindingValue.asHelper? = some k →
          (w.helper? k).isSome = true := by
        intro k hk
        obtain ⟨-, hbound⟩ | ⟨j, hget, hbound⟩ := Execution.helper_of_clear hfree <;>
          rw [hbound] at hk <;> cases hk
        exact hknown k hget
      obtain ⟨known, hunites, hfits⟩ := unites_finish hthere hchosen hlay hbuild
      refine ⟨h, known, hunites, hfits, ?_⟩
      have howns := (finish_ok hbuild).2
      have hh := p.layBase_helper around x (x.bound Reserved.helper BindingValue.asHelper?) b w
      rw [hlay] at hh
      obtain ⟨hget, hbound⟩ | ⟨k, hget, hbound⟩ := Execution.helper_of_clear hfree <;>
        rw [hbound] at howns hh <;> rw [howns, hget]
      · refine ⟨iff_of_true rfl rfl, ?_⟩
        rintro v ⟨⟩
      · refine ⟨iff_of_false Bool.false_ne_true (Option.some_ne_none _), ?_⟩
        rintro v ⟨⟩
        exact congrArg BindingValue.helper hh.symm

end Pipeline

/-! ## A caller with a helper -/

namespace Sample

def aide : Helper where
  request := ⟨"r"⟩
  response := ⟨"r"⟩
  resource := ⟨"p"⟩
  resolver := ⟨"v"⟩
  script := ⟨"/s.x", "a"⟩
  serves := false

def staffed : World where
  helpers := [aide]

/-- An execution that has its request from its helper alone, beside a resource. What the caller has
bound in the place of the request is none. -/
def accompanied (resource : ResourceId) : Execution :=
  { crowded none with
    bindings := .ofList [(Reserved.helper, .helper ⟨0⟩), (Reserved.request, .data .null),
      (Reserved.resource, .resource resource)] }

end Sample

namespace Pipeline

open Sample

/-- Another resource than that of the helper is a fault, and with the same one all else is taken
from the helper. -/
theorem parts_must_agree_accompanied :
    (∀ resource h, (accompanied resource).bindings.get? Reserved.helper = some (.helper h) →
        (staffed.helper? h).isSome = true) ∧
      meddled.build desk (accompanied ⟨"q"⟩) staffed =
        (.error (.inconsistentHelper .resource), staffed) ∧
      ∃ s w', meddled.build desk (accompanied ⟨"p"⟩) staffed = (.ok s, w') ∧
        s.ownsHelper = false ∧
        s.bindings.get? Reserved.resolver = some (.resolver ⟨"v"⟩) := by
  have hknown : ∀ resource h,
      (accompanied resource).bindings.get? Reserved.helper = some (.helper h) →
        (staffed.helper? h).isSome = true := by
    rintro resource h ⟨⟩
    rfl
  refine ⟨hknown, ?_, ?_⟩
  · obtain ⟨hfaults, -, -⟩ := parts_must_agree desk meddled _ staffed (hknown ⟨"q"⟩)
    refine hfaults _ ?_
    have hfound : (accompanied ⟨"q"⟩).conflict? desk staffed =
        some (.inconsistentHelper .resource) := by cbv
    obtain ⟨e, he, hconflict⟩ | ⟨-, hnone⟩ := (accompanied ⟨"q"⟩).conflict?_cases desk staffed
    · cases hfound.symm.trans hconflict
      exact he
    · cases hfound.symm.trans hnone
  · obtain ⟨-, -, hunites⟩ := parts_must_agree desk meddled _ staffed (hknown ⟨"p"⟩)
    have hsucceeds : (meddled.build desk (accompanied ⟨"p"⟩) staffed).1.isOk = true := by cbv
    have hbrought : (accompanied ⟨"p"⟩).brought staffed = some aide := by cbv
    rw [hbrought] at hunites
    rcases hbuild : meddled.build desk (accompanied ⟨"p"⟩) staffed with ⟨e | s, w'⟩ <;>
      rw [hbuild] at hsucceeds
    · cases hsucceeds
    · have hpaired : (accompanied ⟨"p"⟩).Paired (some aide) :=
        ⟨⟨aide.request, by simp [Execution.requests]⟩, aide.response,
          by simp [Execution.responses]⟩
      obtain ⟨h, known, hpiece, hfits, howns, -⟩ := hunites s w' hbuild hpaired
      refine ⟨s, w', rfl, ?_, ?_⟩
      · refine Bool.eq_false_iff.mpr fun htrue => ?_
        cases howns.mp htrue
      · have hresolver := hfits.resolver aide.resolver (by simp [Execution.resolvers])
        rw [hpiece.resolver, ← hresolver]
        rfl

end Pipeline

end ScriptHost
