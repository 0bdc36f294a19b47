import Mathlib
import ScriptHost.Proofs.World.Handles
import ScriptHost.Template.Engine

/-! # Reserved names are out of reach

With a request, a scope is laid with the host's own nine names, and the caller's bindings come
beside them. What each of the nine stands for is chosen once, from the request and what belongs to
it (`Execution.Chooses`). Providers only write through the protected operations, which keep reserved
names as they are, so what has been laid is what the scope holds in the end. Without a request the
reserved names are the caller's, and no helper is bound. -/

namespace ScriptHost

/-! ## Protected writing -/

namespace Bindings

/-- The reserved names stand for the same. -/
def SameReserved (b c : Bindings) : Prop :=
  ∀ name, isReserved name = true → c.get? name = b.get? name

theorem put_of_reserved (b : Bindings) {name : String} (hname : isReserved name = true)
    (value : BindingValue) : b.put name value = .error (.reservedKey name) := by
  unfold put
  rw [if_pos hname]

theorem take_of_reserved (b : Bindings) {name : String} (hname : isReserved name = true) :
    b.take name = .error (.reservedKey name) := by
  unfold take
  rw [if_pos hname]

/-- The first reserved name is the one complained of. -/
theorem putAll_of_reserved (b : Bindings) {values : Bindings}
    (h : ∃ key ∈ values.keys, isReserved key = true) :
    ∃ name ∈ values.keys, isReserved name = true ∧
      b.putAll values = .error (.reservedKey name) := by
  obtain ⟨name, hname⟩ := Option.isSome_iff_exists.mp (List.find?_isSome.mpr h)
  refine ⟨name, List.mem_of_find?_eq_some hname, List.find?_some hname, ?_⟩
  unfold putAll
  rw [hname]

namespace SameReserved

theorem refl (b : Bindings) : b.SameReserved b :=
  fun _ _ => rfl

theorem trans {b c d : Bindings} (h₁ : b.SameReserved c) (h₂ : c.SameReserved d) :
    b.SameReserved d :=
  fun name hname => (h₂ name hname).trans (h₁ name hname)

end SameReserved

theorem put_sameReserved {b c : Bindings} {name : String} {value : BindingValue}
    {previous : Option BindingValue} (h : b.put name value = .ok (previous, c)) :
    b.SameReserved c := by
  unfold put at h
  split at h
  · cases h
  · next hname =>
      cases h
      intro k hk
      rw [OrderedMap.get?_insert, if_neg fun heq : k = name => hname (heq ▸ hk)]

theorem take_sameReserved {b c : Bindings} {name : String} {previous : Option BindingValue}
    (h : b.take name = .ok (previous, c)) : b.SameReserved c := by
  unfold take at h
  split at h
  · cases h
  · next hname =>
      cases h
      intro k hk
      rw [OrderedMap.get?_erase, if_neg fun heq : k = name => hname (heq ▸ hk)]

theorem putAll_sameReserved {b c values : Bindings} (h : b.putAll values = .ok c) :
    b.SameReserved c := by
  unfold putAll at h
  split at h
  · cases h
  · next hnone =>
      cases h
      intro k hk
      refine b.get?_insertAll_of_not_mem values.nodup fun hmem => ?_
      exact List.find?_eq_none.mp hnone k hmem hk

end Bindings

/-! ## Providers -/

theorem World.readers_acquire (w : World) (h : HelperId) (q : Query) :
    (w.acquire h q).2.readers = w.readers := by
  unfold World.acquire
  split
  · next helper services _ _ =>
      split
      · rcases services.lookup q with ⟨_ | _, _⟩ <;> rfl
      · rfl
  · rfl

/-- Reserved names stand for the same, and readers hold the same. -/
structure Workplace.Spares (s t : Workplace) : Prop where
  bindings : s.bindings.SameReserved t.bindings
  readers : t.world.readers = s.world.readers

namespace Workplace.Spares

theorem refl (s : Workplace) : s.Spares s :=
  ⟨.refl s.bindings, rfl⟩

theorem trans {s t u : Workplace} (h₁ : s.Spares t) (h₂ : t.Spares u) : s.Spares u :=
  ⟨h₁.bindings.trans h₂.bindings, h₂.readers.trans h₁.readers⟩

/-- The bindings alone have been written. -/
theorem of_bindings {s : Workplace} {b : Bindings} (h : s.bindings.SameReserved b) :
    s.Spares { s with bindings := b } :=
  ⟨h, rfl⟩

end Workplace.Spares

/-- **Whatever a provider does, reserved names keep what they stand for**, and readers what they
hold. -/
theorem Provision.run_spares (p : Provision) (s : Workplace) : s.Spares (p.run s).2 := by
  induction p generalizing s with
  | done => exact .refl s
  | fail e => exact .refl s
  | read next ih => exact ih s.bindings s
  | put name value next ih =>
      unfold Provision.run
      cases hput : s.bindings.put name value with
      | error e => exact ih (.error e) s
      | ok r => exact (Workplace.Spares.of_bindings (Bindings.put_sameReserved hput)).trans (ih _ _)
  | putAll values next ih =>
      unfold Provision.run
      cases hput : s.bindings.putAll values with
      | error e => exact ih (.error e) s
      | ok bindings =>
          exact (Workplace.Spares.of_bindings (Bindings.putAll_sameReserved hput)).trans (ih _ _)
  | take name next ih =>
      unfold Provision.run
      cases htake : s.bindings.take name with
      | error e => exact ih (.error e) s
      | ok r =>
          exact (Workplace.Spares.of_bindings (Bindings.take_sameReserved htake)).trans (ih _ _)
  | acquire helper q next ih =>
      have hfirst : s.Spares { s with world := (s.world.acquire helper q).2 } :=
        ⟨.refl s.bindings, s.world.readers_acquire helper q⟩
      exact hfirst.trans (ih _ _)
  | pause n next ih =>
      have hfirst : s.Spares { s with micros := s.micros + n } := ⟨.refl s.bindings, rfl⟩
      exact hfirst.trans (ih _)

namespace Pipeline

theorem spares_provide {settings : ScopeSettings} {tracked : Bool} {providers : List Provider}
    {b c : Bindings} {w v : World} (h : provide settings tracked providers b w = (.ok c, v)) :
    b.SameReserved c ∧ v.readers = w.readers := by
  induction providers generalizing b w with
  | nil =>
      cases h
      exact ⟨.refl _, rfl⟩
  | cons p ps ih =>
      have hfirst := p.provision.run_spares { bindings := b, world := w }
      unfold provide at h
      rcases hrun : p.provision.run { bindings := b, world := w } with ⟨e | _, s⟩ <;>
        rw [hrun] at h hfirst
      · cases h
      · obtain ⟨hsame, hreaders⟩ := ih h
        refine ⟨hfirst.bindings.trans hsame, hreaders.trans ?_⟩
        refine Eq.trans ?_ hfirst.readers
        split <;> rfl

theorem spares_finish {p : Pipeline} {around : Surroundings} {x : Execution} {laid : Bindings}
    {helper : Option HelperId} {owns : Bool} {w v : World} {scope : Scope}
    (h : p.finish around x laid helper owns w = (.ok scope, v)) :
    laid.SameReserved scope.bindings ∧ v.readers = w.readers := by
  obtain ⟨tracked, providers, v', ⟨e, _, heq⟩ | ⟨scope', hprovide, _, heq⟩⟩ :=
    World.finish_cases p around x laid helper owns w
  · rw [heq] at h
    cases h
  · rw [heq] at h
    cases h
    exact spares_provide hprovide

end Pipeline

/-! ## The choice of the base layer -/

/-- The one object that some candidates are, if there is any. -/
def Agreed {α : Type} (candidates : List (Option α)) (chosen : Option α) : Prop :=
  ∀ a, some a ∈ candidates ↔ chosen = some a

theorem agreed_of_agree {α : Type} [DecidableEq α] {field : HelperField}
    {candidates : List (Option α)} {chosen : Option α}
    (h : agree field candidates = .ok chosen) : Agreed candidates chosen := by
  fun_induction agree field candidates with
  | case1 =>
      cases h
      simp [Agreed]
  | case2 rest ih =>
      intro a
      rw [← ih h a]
      simp
  | case3 a rest hall =>
      cases h
      intro b
      have hrest : some b ∈ rest → a = b := by
        intro hb
        have hsame := List.all_eq_true.mp hall (some b) hb
        exact (by simpa using hsame : b = a).symm
      constructor
      · intro hb
        rcases List.mem_cons.mp hb with hb | hb
        · exact hb.symm
        · rw [hrest hb]
      · intro hb
        rw [hb]
        exact List.mem_cons_self
  | case4 a rest hall => cases h

/-- The requests that an execution comes with: its own, that among the bindings, and that of the
helper. -/
def Execution.requests (x : Execution) (helper : Option Helper) : List (Option RequestId) :=
  [x.request, x.bound Reserved.request BindingValue.asRequest?, helper.map Helper.request]

/-- What the host's own names are made of: the request and the response that all candidates are, and
the resource and the resolver that are given, or else those of the request. -/
structure Execution.Chooses (x : Execution) (around : Surroundings) (helper : Option Helper)
    (b : Base) : Prop where
  request : Agreed (x.requests helper) (some b.request)
  response : Agreed
    [x.response, x.bound Reserved.response BindingValue.asResponse?, helper.map Helper.response]
    (some b.response)
  resource : ∃ given, Agreed
      [x.bound Reserved.resource BindingValue.asResource?, helper.map Helper.resource] given ∧
    b.resource = given.getD (around.request b.request).resource
  resolver : ∃ given, Agreed
      [x.bound Reserved.resolver BindingValue.asResolver?, helper.map Helper.resolver] given ∧
    b.resolver = given.getD (around.request b.request).resolver

theorem exists_of_bind_ok {ε α β : Type} {first : Except ε α} {next : α → Except ε β} {b : β}
    (h : (first >>= next) = .ok b) : ∃ a, first = .ok a ∧ next a = .ok b := by
  cases first with
  | error e => cases h
  | ok a => exact ⟨a, rfl, h⟩

/-- **The base layer has chosen, or there is no request.** -/
theorem Execution.base?_ok {x : Execution} {around : Surroundings} {helper : Option Helper}
    {base : Option Base} (h : x.base? around helper = .ok base) :
    (∃ b, base = some b ∧ x.Chooses around helper b) ∨
      (base = none ∧ Agreed (x.requests helper) none) := by
  unfold Execution.base? at h
  obtain ⟨request, hrequest, h⟩ := exists_of_bind_ok h
  obtain ⟨response, hresponse, h⟩ := exists_of_bind_ok h
  have hrequest := agreed_of_agree hrequest
  cases request with
  | none =>
      cases h
      exact .inr ⟨rfl, hrequest⟩
  | some request =>
      cases response with
      | none => cases h
      | some response =>
          obtain ⟨resource, hresource, h⟩ := exists_of_bind_ok h
          obtain ⟨resolver, hresolver, h⟩ := exists_of_bind_ok h
          cases h
          exact .inl ⟨_, rfl, hrequest, agreed_of_agree hresponse,
            ⟨resource, agreed_of_agree hresource, rfl⟩, ⟨resolver, agreed_of_agree hresolver, rfl⟩⟩

/-! ## Scopes -/

/-- The nine reserved names of a scope with a request, and what each of them stands for. -/
def Execution.hostNames (x : Execution) (b : Base) (helper : HelperId) (reader : Reader)
    (out : Writer) : List (String × BindingValue) :=
  [(Reserved.helper, .helper helper),
    (Reserved.request, .request b.request),
    (Reserved.response, .response b.response),
    (Reserved.resource, .resource b.resource),
    (Reserved.resolver, .resolver b.resolver),
    (Reserved.reader, .reader reader),
    (Reserved.out, .writer out),
    (Reserved.log, .logger x.script.path),
    (Reserved.script, .data x.script.toData)]

theorem Execution.hostNames_keys (x : Execution) (b : Base) (helper : HelperId) (reader : Reader)
    (out : Writer) : (x.hostNames b helper reader out).map Prod.fst = Reserved.names := rfl

/-- The parts of a helper are those that the host's names are made of. -/
def Base.PartsOf (b : Base) (helper : Helper) : Prop :=
  helper.request = b.request ∧ helper.response = b.response ∧ helper.resource = b.resource ∧
    helper.resolver = b.resolver

/-- **What the reserved names stand for in a scope with a request.** The helper is the one that was
brought along or a new one, and goes with the request; the reader and the writer are the caller's if
he has bound any, and those of the request and the response if not. -/
structure Execution.Hosts (x : Execution) (around : Surroundings) (supplied : Option HelperId)
    (w w' : World) (bindings : Bindings) (b : Base) (reader : Reader) : Prop where
  chosen : x.Chooses around (supplied.bind w.helper?) b
  parts : ∀ helper, w'.helper? (supplied.getD ⟨w.helpers.length⟩) = some helper → b.PartsOf helper
  bound : ∀ r, x.bound Reserved.reader BindingValue.asReader? = some r → reader = r
  opened : x.bound Reserved.reader BindingValue.asReader? = none →
    reader = .opened w.readers.length ∧ w'.remaining reader = (around.request b.request).body
  names : ∀ e ∈ x.hostNames b (supplied.getD ⟨w.helpers.length⟩) reader
      ((x.bound Reserved.out BindingValue.asWriter?).getD (around.response b.response).writer),
    bindings.get? e.1 = some e.2

/-- **What they stand for in a scope without a request**: what the caller has bound, but no
helper. -/
structure Execution.Alone (x : Execution) (supplied : Option HelperId) (w : World)
    (bindings : Bindings) : Prop where
  requests : Agreed (x.requests (supplied.bind w.helper?)) none
  helper : bindings.get? Reserved.helper = none
  names : ∀ name ∈ Reserved.names, name ≠ Reserved.helper →
    bindings.get? name = x.bindings.get? name

namespace Pipeline

theorem alone_finish {p : Pipeline} {around : Surroundings} {x : Execution}
    {supplied : Option HelperId} {w w' : World} {scope : Scope}
    (hnone : Agreed (x.requests (supplied.bind w.helper?)) none)
    (h : p.finish around x (.ofList (x.extras false)) none false w = (.ok scope, w')) :
    x.Alone supplied w scope.bindings := by
  have hlaid : ∀ name, (OrderedMap.ofList (x.extras false)).get? name =
      if name = Reserved.helper then none else x.bindings.get? name := by
    intro name
    have hextras : x.extras false = (x.bindings.erase Reserved.helper).entries := by
      simp [Execution.extras]
    rw [hextras, OrderedMap.get?_ofList_entries, OrderedMap.get?_erase]
  have hsame := (spares_finish h).1
  refine ⟨hnone, ?_, fun name hname hne => ?_⟩
  · rw [hsame _ (by decide), hlaid, if_pos rfl]
  · rw [hsame _ (List.contains_iff_mem.mpr hname), hlaid, if_neg hne]

theorem advances_finish {p : Pipeline} {around : Surroundings} {x : Execution} {laid : Bindings}
    {helper : Option HelperId} {owns : Bool} {w v : World} {scope : Scope}
    (h : p.finish around x laid helper owns w = (.ok scope, v)) : w.Advances v := by
  obtain ⟨tracked, providers, v', ⟨e, _, heq⟩ | ⟨scope', hprovide, _, heq⟩⟩ :=
    World.finish_cases p around x laid helper owns w
  · rw [heq] at h
    cases h
  · rw [heq] at h
    cases h
    have hadvances := World.advances_provide p.settings tracked providers laid w
    rw [hprovide] at hadvances
    exact hadvances

/-- The caller's names never take the place of the host's. -/
theorem sameReserved_extras (x : Execution) (base : Bindings) :
    base.SameReserved (base.insertAll (x.extras true)) := by
  intro name hname
  refine base.get?_insertAll_of_not_mem ?_ ?_
  · exact (x.bindings.erase Reserved.helper).nodup.sublist (List.filter_sublist.map _)
  · intro hmem
    obtain ⟨e, he, rfl⟩ := List.mem_map.mp hmem
    have hfree := (List.mem_filter.mp he).2
    simp [hname] at hfree

theorem layBase_bindings (p : Pipeline) (around : Surroundings) (x : Execution)
    (supplied : Option HelperId) (b : Base) (w : World) :
    (p.layBase around x supplied b w).1.1 = .ofList (x.hostNames b
      (supplied.getD ⟨w.helpers.length⟩) (x.reader around b w).1 (x.writer around b)) := by
  have hbase : ∀ h r out, x.baseBindings b h r out = .ofList (x.hostNames b h r out) := by
    intro h r out
    unfold Execution.baseBindings Execution.hostNames
    rfl
  have hlay : (p.layBase around x supplied b w).1.1 =
      x.baseBindings b (supplied.getD ⟨(x.reader around b w).2.helpers.length⟩)
        (x.reader around b w).1 (x.writer around b) := by
    unfold layBase
    rcases x.reader around b w with ⟨r, v⟩
    cases supplied with
    | some h => dsimp only [Option.getD_some]
    | none => dsimp only [Option.getD_none, World.addHelper]
  rw [hlay, hbase, World.helpers_reader]

theorem readers_layBase (p : Pipeline) (around : Surroundings) (x : Execution)
    (supplied : Option HelperId) (b : Base) (w : World) :
    (p.layBase around x supplied b w).2.readers = (x.reader around b w).2.readers := by
  unfold layBase
  rcases x.reader around b w with ⟨r, v⟩
  cases supplied <;> rfl

theorem parts_layBase {p : Pipeline} {around : Surroundings} {x : Execution}
    {supplied : Option HelperId} {b : Base} {w : World}
    (hchosen : x.Chooses around (supplied.bind w.helper?) b) {helper : Helper}
    (hhelper : (p.layBase around x supplied b w).2.helper? (supplied.getD ⟨w.helpers.length⟩) =
      some helper) : b.PartsOf helper := by
  cases supplied with
  | none =>
      rw [← World.helpers_reader x around b w] at hhelper
      have hnew := hhelper.symm.trans (World.helper?_addHelper_self _ _)
      cases hnew
      exact ⟨rfl, rfl, rfl, rfl⟩
  | some h =>
      have hsame : w.helper? h = some helper := by
        have hsame : (x.reader around b w).2.helper? h = some helper := hhelper
        unfold World.helper? at hsame ⊢
        rwa [World.helpers_reader] at hsame
      -- What the helper brings along is a candidate, so it is what all candidates are.
      obtain ⟨resource, hresource, hresource'⟩ := hchosen.resource
      obtain ⟨resolver, hresolver, hresolver'⟩ := hchosen.resolver
      have hbrought : (some h).bind w.helper? = some helper := hsame
      have hrequest := (hchosen.request helper.request).mp
        (by simp [Execution.requests, hbrought])
      have hresponse := (hchosen.response helper.response).mp (by simp [hbrought])
      have hgiven := (hresource helper.resource).mp (by simp [hbrought])
      have hgiven' := (hresolver helper.resolver).mp (by simp [hbrought])
      rw [hgiven] at hresource'
      rw [hgiven'] at hresolver'
      exact ⟨(Option.some.inj hrequest).symm, (Option.some.inj hresponse).symm, hresource'.symm,
        hresolver'.symm⟩

theorem hosts_finish {p : Pipeline} {around : Surroundings} {x : Execution}
    {supplied : Option HelperId} {b : Base} {w v w' : World} {laid : Bindings} {h : HelperId}
    {scope : Scope} {owns : Bool} (hchosen : x.Chooses around (supplied.bind w.helper?) b)
    (hlay : p.layBase around x supplied b w = ((laid, h), v))
    (hfinish : p.finish around x (laid.insertAll (x.extras true)) (some h) owns v =
      (.ok scope, w')) :
    x.Hosts around supplied w w' scope.bindings b (x.reader around b w).1 := by
  obtain ⟨hsame, hreaders⟩ := spares_finish hfinish
  obtain ⟨es, hretains⟩ := advances_finish hfinish
  have hlaid := p.layBase_bindings around x supplied b w
  have hread := p.readers_layBase around x supplied b w
  rw [hlay] at hlaid hread
  dsimp only at hlaid hread
  refine ⟨hchosen, fun helper hhelper => ?_, fun r hr => ?_, fun hr => ?_, fun e he => ?_⟩
  · rw [(hretains _).helper] at hhelper
    obtain ⟨before, hbefore, rfl⟩ := Option.map_eq_some_iff.mp hhelper
    have hlaidBefore : (p.layBase around x supplied b w).2.helper?
        (supplied.getD ⟨w.helpers.length⟩) = some before := by
      rw [hlay]
      exact hbefore
    have hparts := parts_layBase hchosen hlaidBefore
    exact hparts
  · unfold Execution.reader
    rw [hr]
  · have hopened : x.reader around b w = w.openReader (around.request b.request).body := by
      unfold Execution.reader
      rw [hr]
    have hall : w'.readers = w.readers ++ [(around.request b.request).body] := by
      rw [hreaders, hread, hopened]
      rfl
    rw [hopened]
    refine ⟨rfl, ?_⟩
    unfold World.openReader World.remaining
    rw [hall]
    simp
  · have hkeys := x.hostNames_keys b (supplied.getD ⟨w.helpers.length⟩) (x.reader around b w).1
      (x.writer around b)
    have hreserved : isReserved e.1 = true := by
      refine List.contains_iff_mem.mpr ?_
      rw [← hkeys]
      exact List.mem_map_of_mem he
    rw [hsame _ hreserved, sameReserved_extras x _ _ hreserved, hlaid]
    refine OrderedMap.get?_ofList_of_mem ?_ he
    rw [hkeys]
    decide

end Pipeline

/-! ## Out of reach -/

namespace Pipeline

/-- **Reserved names are out of reach of callers and providers.** In a scope with a request they
stand for what the host has chosen, and in one without for what the caller has bound. A provider
that writes one is told so, and goes on as if it had not. -/
theorem reserved_out_of_reach (around : Surroundings) (p : Pipeline) (x : Execution) :
    (∀ (w w' : World) (scope : Scope), p.build around x w = (.ok scope, w') →
        ∃ supplied, x.suppliedHelper? = .ok supplied ∧
          ((∃ b reader, x.Hosts around supplied w w' scope.bindings b reader) ∨
            x.Alone supplied w scope.bindings)) ∧
      (∀ (name : String) (value : BindingValue) (s : Workplace)
        (next : Except ScopeError (Option BindingValue) → Provision), name ∈ Reserved.names →
        (Provision.put name value next).run s = (next (.error (.reservedKey name))).run s ∧
          (Provision.take name next).run s = (next (.error (.reservedKey name))).run s) ∧
      ∀ (values : Bindings) (s : Workplace) (next : Except ScopeError Unit → Provision),
        (∃ key ∈ values.keys, key ∈ Reserved.names) →
          ∃ name ∈ values.keys, name ∈ Reserved.names ∧
            (Provision.putAll values next).run s = (next (.error (.reservedKey name))).run s := by
  refine ⟨?_, ?_, ?_⟩
  · intro w w' scope h
    unfold build at h
    split at h
    · cases h
    · next supplied hsupplied =>
        refine ⟨supplied, hsupplied, ?_⟩
        split at h
        · cases h
        · next hbase =>
            rcases x.base?_ok hbase with ⟨b, hb, _⟩ | ⟨_, hnone⟩
            · cases hb
            · exact .inr (alone_finish hnone h)
        · next b hbase =>
            rcases x.base?_ok hbase with ⟨b, hb, hchosen⟩ | ⟨hb, _⟩
            · cases hb
              rcases hlay : p.layBase around x supplied b w with ⟨⟨laid, helper⟩, v⟩
              rw [hlay] at h
              exact .inl ⟨b, _, hosts_finish hchosen hlay h⟩
            · cases hb
  · intro name value s next hname
    have hreserved : isReserved name = true := List.contains_iff_mem.mpr hname
    refine ⟨?_, ?_⟩
    · rw [Provision.run, s.bindings.put_of_reserved hreserved]
    · rw [Provision.run, s.bindings.take_of_reserved hreserved]
  · rintro values s next ⟨key, hkey, hreserved⟩
    obtain ⟨name, hname, hreserved, hput⟩ :=
      s.bindings.putAll_of_reserved ⟨key, hkey, List.contains_iff_mem.mpr hreserved⟩
    refine ⟨name, hname, List.contains_iff_mem.mp hreserved, ?_⟩
    rw [Provision.run, hput]

end Pipeline

/-! ## A provider that meddles -/

namespace Sample

/-- A reserved name beside one that is free. -/
def mixed : Bindings :=
  .ofList [("a", .data .null), (Reserved.log, .data .null)]

/-- A pipeline with a provider that tries to write reserved names, alone and among others, and goes
on after each refusal. -/
def meddled : Pipeline where
  settings := {}
  providers := (ProviderRegistry.empty.activate.2.register {
    name := "meddler"
    provision := .putAll mixed fun _ => .put Reserved.out (.data .null) fun _ =>
      .take Reserved.request fun _ => .put "b" (.data .null) fun _ => .done } ⟨0, [], []⟩).2
  serves := false

/-- An execution whose caller binds reserved names, not all of them to what belongs there. -/
def crowded (request : Option RequestId) : Execution where
  script := ⟨"/s.x", "a"⟩
  engine := { Template.factory with
    factory := Template.factory, origin := .dynamic, priority := ⟨0, 1⟩ }
  request
  response := some ⟨"r"⟩
  bindings := .ofList [(Reserved.log, .data .null), (Reserved.out, .writer .discard)]

def desk : Surroundings where
  resource _ := { path := "", opening := .ok ⟨[], none⟩ }
  resolver _ := { resolve := fun _ => none }
  request _ := { path := "", resource := ⟨""⟩, resolver := ⟨""⟩, body := [], tracked := false }
  response _ := ⟨.output "o"⟩
  output _ := {}

end Sample

namespace Pipeline

open Sample

/-- With a request the logger and the caller's writer stay, and without one what the caller has
bound. -/
theorem reserved_out_of_reach_meddled :
    (∃ scope w', meddled.build desk (crowded (some ⟨"r"⟩)) {} = (.ok scope, w') ∧
      scope.bindings.keys = Reserved.names ++ ["b"] ∧
      scope.bindings.get? Reserved.log = some (.logger "/s.x") ∧
      scope.bindings.get? Reserved.out = some (.writer .discard)) ∧
      (∃ scope w', meddled.build desk (crowded none) {} = (.ok scope, w') ∧
        scope.bindings.get? Reserved.log = some (.data .null) ∧
        scope.bindings.get? Reserved.helper = none) ∧
      ∀ s, (Provision.putAll mixed fun _ => .done).run s = (.ok (), s) := by
  obtain ⟨hwith, -, hmixed⟩ := reserved_out_of_reach desk meddled (crowded (some ⟨"r"⟩))
  obtain ⟨hwithout, -, -⟩ := reserved_out_of_reach desk meddled (crowded none)
  refine ⟨?_, ?_, fun s => ?_⟩
  · have hkeys : (meddled.build desk (crowded (some ⟨"r"⟩)) {}).1.map (·.bindings.keys) =
      .ok (Reserved.names ++ ["b"]) := by cbv
    rcases hbuild : meddled.build desk (crowded (some ⟨"r"⟩)) {} with ⟨e | scope, w'⟩ <;>
      rw [hbuild] at hkeys
    · cases hkeys
    · obtain ⟨supplied, -, ⟨b, reader, hhosts⟩ | halone⟩ := hwith _ _ _ hbuild
      · have hbound : (crowded (some ⟨"r"⟩)).bound Reserved.out BindingValue.asWriter? =
          some .discard := by cbv
        have hlog := hhosts.names (Reserved.log, .logger "/s.x")
          (by simp [Execution.hostNames, crowded])
        have hout := hhosts.names (Reserved.out, .writer .discard)
          (by simp [Execution.hostNames, hbound])
        exact ⟨scope, w', rfl, Except.ok.inj hkeys, hlog, hout⟩
      · have hreq := (halone.requests ⟨"r"⟩).mp List.mem_cons_self
        cases hreq
  · have hsucceeds : (meddled.build desk (crowded none) {}).1.isOk = true := by cbv
    rcases hbuild : meddled.build desk (crowded none) {} with ⟨e | scope, w'⟩ <;>
      rw [hbuild] at hsucceeds
    · cases hsucceeds
    · obtain ⟨supplied, hsupplied, ⟨b, reader, hhosts⟩ | halone⟩ := hwithout _ _ _ hbuild
      · -- Nobody has brought a request along.
        have hnone : (crowded none).suppliedHelper? = .ok none := by cbv
        have hbound : (crowded none).bound Reserved.request BindingValue.asRequest? = none := by cbv
        rw [hnone] at hsupplied
        cases hsupplied
        have hmem := (hhosts.chosen.request b.request).mpr rfl
        unfold Execution.requests at hmem
        rw [hbound] at hmem
        simp [crowded] at hmem
      · have hlog := halone.names Reserved.log (by decide) (by decide)
        exact ⟨scope, w', rfl, hlog, halone.helper⟩
  · obtain ⟨name, -, -, hrun⟩ := hmixed mixed s (fun _ => .done)
      ⟨Reserved.log, by decide, by decide⟩
    exact hrun

end Pipeline

end ScriptHost
