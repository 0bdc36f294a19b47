import ScriptHost.Proofs.Provider.Activation
import ScriptHost.Proofs.Scope.Reserved

/-! # The provider whose binding stands

Providers of fixed values run one after the other and each overwrites what it binds, so a name that
is not reserved stands for what the last of them has given, and for what the caller has bound if
none has given anything (`Pipeline.build_static`). They run in the order of their priority
(`ProviderEntry.Outranks`), the strongest last: those keyed by a name of the engine after those
keyed by a language it is compatible with, and these after those for every engine; within a tier by
rank, and the oldest of one rank last. Put together, the strongest registration that gives a name
decides it, and registrations for other contexts or languages are as if they were not there
(`Pipeline.highest_priority_wins`). -/

namespace ScriptHost

open ProviderEntry (Coherent sorted mem_sorted pairwise_sorted sorted_filter)

/-! ## Priority -/

namespace ProviderEntry

/-- How closely a provider is keyed to an engine with some names and compatible languages: by a
name, only by a language, or by neither. -/
def tier (e : ProviderEntry) (names compatible : List String) : Nat :=
  if e.keyedBy names then 2 else if e.keyedBy compatible then 1 else 0

/-- Whether a provider is for an engine: for every engine, or keyed to this one. -/
def isFor (e : ProviderEntry) (names compatible : List String) : Bool :=
  e.languages.isEmpty || e.keyedBy names || e.keyedBy compatible

/-- What `a` binds stands against what `b` binds: by the tier, by a higher rank, or by an earlier
registration. -/
def Outranks (names compatible : List String) (a b : ProviderEntry) : Prop :=
  b.tier names compatible < a.tier names compatible ∨
    (a.tier names compatible = b.tier names compatible ∧
      (b.rank < a.rank ∨ (a.rank = b.rank ∧ a.id < b.id)))

instance (names compatible : List String) (a b : ProviderEntry) :
    Decidable (a.Outranks names compatible b) :=
  inferInstanceAs (Decidable (_ ∨ (_ ∧ (_ ∨ (_ ∧ _)))))

theorem keyedBy_of_isEmpty (e : ProviderEntry) (names : List String)
    (h : e.languages.isEmpty = true) : e.keyedBy names = false := by
  simp [keyedBy, List.isEmpty_iff.mp h]

variable {names compatible : List String}

/-- Of two providers in one tier the one that runs later has priority. -/
theorem eq_or_outranks {a b : ProviderEntry} (hid : a.id = b.id → a = b)
    (htier : a.tier names compatible = b.tier names compatible) (hle : a.le b = true) :
    a = b ∨ b.Outranks names compatible a := by
  by_cases hsame : a.id = b.id
  · exact .inl (hid hsame)
  · rw [le_iff] at hle
    unfold Outranks
    omega

end ProviderEntry

namespace ContextProviders

variable {names compatible : List String} {es : List ProviderEntry}

/-- The providers of one tier, in the order in which they run. -/
def stage (names compatible : List String) (t : Nat) (es : List ProviderEntry) :
    List ProviderEntry :=
  sorted (es.filter fun e => e.isFor names compatible && e.tier names compatible == t)

theorem mem_stage {t : Nat} {e : ProviderEntry} :
    e ∈ stage names compatible t es ↔
      e ∈ es ∧ e.isFor names compatible = true ∧ e.tier names compatible = t := by
  simp [stage, mem_sorted]

/-- What runs for an engine, tier by tier. -/
theorem entriesFor_of (h : Coherent es) : (of es).entriesFor names compatible =
    stage names compatible 0 es ++ stage names compatible 1 es ++ stage names compatible 2 es := by
  have hkeyed : Coherent (es.filter fun e => !e.languages.isEmpty) :=
    h.subset List.filter_sublist.subset
  unfold entriesFor of stage
  dsimp only
  rw [sorted_filter hkeyed, sorted_filter hkeyed, List.filter_filter, List.filter_filter]
  refine congrArg₂ (· ++ ·) (congrArg₂ (· ++ ·) ?_ ?_) ?_ <;>
  · refine congrArg (fun p => sorted (es.filter p)) (funext fun e => ?_)
    have hnames := e.keyedBy_of_isEmpty names
    have hcompatible := e.keyedBy_of_isEmpty compatible
    unfold ProviderEntry.isFor ProviderEntry.tier
    grind

theorem mem_entriesFor (h : Coherent es) {e : ProviderEntry} :
    e ∈ (of es).entriesFor names compatible ↔ e ∈ es ∧ e.isFor names compatible = true := by
  have htier : e.tier names compatible = 0 ∨ e.tier names compatible = 1 ∨
      e.tier names compatible = 2 := by
    unfold ProviderEntry.tier
    grind
  rw [entriesFor_of h]
  simp only [List.mem_append, mem_stage]
  tauto

theorem pairwise_stage (h : Coherent es) (t : Nat) : (stage names compatible t es).Pairwise
    fun a b => a = b ∨ b.Outranks names compatible a := by
  refine (pairwise_sorted _).imp_of_mem ?_
  intro a b ha hb hle
  obtain ⟨ha, -, hta⟩ := mem_stage.mp ha
  obtain ⟨hb, -, htb⟩ := mem_stage.mp hb
  exact ProviderEntry.eq_or_outranks (h a ha b hb) (hta.trans htb.symm) hle

/-- **Providers run in the order of their priority**, the strongest last. -/
theorem pairwise_entriesFor (h : Coherent es) :
    ((of es).entriesFor names compatible).Pairwise
      fun a b => a = b ∨ b.Outranks names compatible a := by
  have hcross : ∀ {s t : Nat}, s < t → ∀ a ∈ stage names compatible s es,
      ∀ b ∈ stage names compatible t es, a = b ∨ b.Outranks names compatible a := by
    intro s t hst a ha b hb
    obtain ⟨-, -, hta⟩ := mem_stage.mp ha
    obtain ⟨-, -, htb⟩ := mem_stage.mp hb
    exact .inr (.inl (by omega))
  rw [entriesFor_of h, List.pairwise_append, List.pairwise_append]
  refine ⟨⟨pairwise_stage h 0, pairwise_stage h 1, hcross (by decide)⟩, pairwise_stage h 2, ?_⟩
  intro a ha
  rcases List.mem_append.mp ha with ha | ha
  · exact hcross (by decide) a ha
  · exact hcross (by decide) a ha

/-- Providers that are not for an engine leave no trace in what runs for it. -/
theorem entriesFor_filter (h : Coherent es) :
    (of (es.filter fun e => e.isFor names compatible)).entriesFor names compatible =
      (of es).entriesFor names compatible := by
  have hstage : ∀ t, stage names compatible t (es.filter fun e => e.isFor names compatible) =
      stage names compatible t es := by
    intro t
    unfold stage
    rw [List.filter_filter]
    refine congrArg sorted (List.filter_congr fun e _ => ?_)
    cases e.isFor names compatible <;> simp
  rw [entriesFor_of h, entriesFor_of (h.subset List.filter_sublist.subset), hstage, hstage, hstage]

end ContextProviders

/-! ## Providers of fixed values -/

namespace Provider

/-- The values of a provider that only binds fixed values. -/
def values (p : Provider) : Bindings :=
  match p.provision with
  | .putAll values _ => values
  | _ => .empty

/-- All that a provider does is to bind fixed values, none of them to a reserved name. -/
structure IsStatic (p : Provider) : Prop where
  fixed : p = .ofValues p.name p.values
  unreserved : ∀ k ∈ p.values.keys, isReserved k = false

theorem IsStatic.run {p : Provider} (h : p.IsStatic) (s : Workplace) :
    p.provision.run s = (.ok (), { s with bindings := s.bindings.insertAll p.values.entries }) := by
  have hput : s.bindings.putAll p.values = .ok (s.bindings.insertAll p.values.entries) := by
    have hnone : p.values.keys.find? isReserved = none := by
      refine List.find?_eq_none.mpr fun k hk => ?_
      rw [h.unreserved k hk]
      exact Bool.false_ne_true
    unfold Bindings.putAll
    rw [hnone]
  rw [h.fixed]
  unfold Provider.ofValues
  rw [Provision.run, hput]
  rfl

/-- What a name stands for among some providers that run one after the other: what the last of them
has given. -/
def given (ps : List Provider) (k : String) : Option BindingValue :=
  ps.reverse.findSome? fun p => p.values.get? k

theorem given_cons (p : Provider) (ps : List Provider) (k : String) :
    given (p :: ps) k = (given ps k).or (p.values.get? k) := by
  unfold given
  rw [List.reverse_cons, List.findSome?_append, List.findSome?_singleton]

end Provider

namespace Pipeline

/-- **Providers of fixed values never fail, and the last value given for a name stands.** -/
theorem provide_static {settings : ScopeSettings} {tracked : Bool} {ps : List Provider}
    (h : ∀ p ∈ ps, p.IsStatic) (b : Bindings) (w : World) :
    ∃ b' w', provide settings tracked ps b w = (.ok b', w') ∧
      ∀ k, b'.get? k = (Provider.given ps k).or (b.get? k) := by
  induction ps generalizing b w with
  | nil => exact ⟨b, w, rfl, fun k => rfl⟩
  | cons p ps ih =>
      have hrun := (h p List.mem_cons_self).run { bindings := b, world := w }
      unfold provide
      rw [hrun]
      obtain ⟨b', w', hprovide, hget⟩ := ih (fun q hq => h q (List.mem_cons_of_mem p hq)) _ _
      refine ⟨b', w', hprovide, fun k => ?_⟩
      rw [hget, OrderedMap.get?_insertAll b p.values.nodup, Provider.given_cons, Option.or_assoc]
      rfl

/-- The providers that run for an execution. -/
def providersOf (p : Pipeline) (x : Execution) : List Provider :=
  p.providers.providersFor (x.context.getD p.settings.defaultContext) x.engine.names
    x.engine.compatibleLanguages

theorem finish_static {p : Pipeline} {x : Execution} (h : ∀ q ∈ p.providersOf x, q.IsStatic)
    (around : Surroundings) (laid : Bindings) (helper : Option HelperId) (owns : Bool)
    (w : World) : ∃ scope w', p.finish around x laid helper owns w = (.ok scope, w') ∧
      ∀ k, scope.bindings.get? k = (Provider.given (p.providersOf x) k).or (laid.get? k) := by
  unfold finish
  dsimp only
  generalize (helper.bind w.helper?).any (fun h => (around.request h.request).tracked) = tracked
  obtain ⟨b', w', hprovide, hget⟩ := provide_static h laid w
  unfold providersOf at hprovide
  rw [hprovide]
  exact ⟨_, w', rfl, hget⟩

end Pipeline

/-! ## What is laid before providers run -/

namespace Execution

theorem ne_helper {k : String} (hk : isReserved k = false) : k ≠ Reserved.helper := by
  rintro rfl
  exact absurd hk (by decide)

/-- The caller's names, as a map. -/
def extrasMap (x : Execution) (besideBase : Bool) : Bindings :=
  (x.bindings.erase Reserved.helper).filter fun name _ => !(besideBase && isReserved name)

theorem extras_eq (x : Execution) (besideBase : Bool) :
    x.extras besideBase = (x.extrasMap besideBase).entries :=
  rfl

theorem get?_extrasMap (x : Execution) (besideBase : Bool) {k : String}
    (hk : isReserved k = false) : (x.extrasMap besideBase).get? k = x.bindings.get? k := by
  unfold extrasMap
  rw [OrderedMap.get?_filter_key, OrderedMap.get?_erase, if_neg (ne_helper hk), hk]
  simp

theorem get?_hostNames (x : Execution) (b : Base) (h : HelperId) (r : Reader) (out : Writer)
    {k : String} (hk : isReserved k = false) :
    (OrderedMap.ofList (x.hostNames b h r out)).get? k = none := by
  have hkeys := x.hostNames_keys b h r out
  refine (OrderedMap.get?_insertAll_of_not_mem .empty ?_ ?_).trans (OrderedMap.get?_empty k)
  · rw [hkeys]
    decide
  · rw [hkeys]
    intro hmem
    rw [isReserved, List.contains_iff_mem.mpr hmem] at hk
    cases hk

/-- Why no scope is assembled: what the execution gives for the host's own names does not go
together. -/
def conflict? (x : Execution) (around : Surroundings) (w : World) : Option ScopeError :=
  match x.suppliedHelper? with
  | .error e => some e
  | .ok supplied =>
    match x.base? around (supplied.bind w.helper?) with
    | .error e => some e
    | .ok _ => none

end Execution

namespace Pipeline

/-- Either an execution is in conflict with itself, and nothing else comes of it, or it is settled
which request it has, if any. -/
theorem conflict_cases (p : Pipeline) (around : Surroundings) (x : Execution) (w : World) :
    (∃ e, x.conflict? around w = some e ∧ p.build around x w = (.error e, w)) ∨
      (x.conflict? around w = none ∧ ∃ supplied base, x.suppliedHelper? = .ok supplied ∧
        x.base? around (supplied.bind w.helper?) = .ok base) := by
  unfold Execution.conflict? build
  cases x.suppliedHelper? with
  | error e => exact .inl ⟨e, rfl, rfl⟩
  | ok supplied =>
      dsimp only
      cases hbase : x.base? around (supplied.bind w.helper?) with
      | error e => exact .inl ⟨e, rfl, rfl⟩
      | ok base => exact .inr ⟨rfl, supplied, base, rfl, hbase⟩

theorem build_conflict {p : Pipeline} {around : Surroundings} {x : Execution} {w : World}
    {e : ScopeError} (h : x.conflict? around w = some e) : p.build around x w = (.error e, w) := by
  rcases p.conflict_cases around x w with ⟨e', he', hbuild⟩ | ⟨hnone, -⟩
  · cases h.symm.trans he'
    exact hbuild
  · cases h.symm.trans hnone

/-- **The bindings of a scope whose providers have fixed values.** -/
theorem build_static {p : Pipeline} {x : Execution} (h : ∀ q ∈ p.providersOf x, q.IsStatic)
    {around : Surroundings} {w : World} (hfree : x.conflict? around w = none) :
    ∃ scope w', p.build around x w = (.ok scope, w') ∧ ∀ k, isReserved k = false →
      scope.bindings.get? k = (Provider.given (p.providersOf x) k).or (x.bindings.get? k) := by
  rcases p.conflict_cases around x w with ⟨e, he, -⟩ | ⟨-, supplied, base, hsupplied, hbase⟩
  · cases hfree.symm.trans he
  unfold build
  rw [hsupplied]
  dsimp only
  rw [hbase]
  cases base with
  | none =>
      obtain ⟨scope, w', hfinish, hget⟩ :=
        finish_static h around (.ofList (x.extras false)) none false w
      refine ⟨scope, w', hfinish, fun k hk => ?_⟩
      rw [hget, x.extras_eq, OrderedMap.get?_ofList_entries, x.get?_extrasMap false hk]
  | some b =>
      rcases hlay : p.layBase around x supplied b w with ⟨⟨laid, helper⟩, v⟩
      obtain ⟨scope, w', hfinish, hget⟩ := finish_static h around
        (laid.insertAll (x.extras true)) (some helper) supplied.isNone v
      dsimp only
      rw [hlay]
      refine ⟨scope, w', hfinish, fun k hk => ?_⟩
      -- The host's own names are reserved, so beside them the caller's name is found alone.
      have hbase := p.layBase_bindings around x supplied b w
      rw [hlay] at hbase
      have hnone : laid.get? k = none := by
        rw [show laid = _ from hbase]
        exact x.get?_hostNames b _ _ _ hk
      have hlaid : (laid.insertAll (x.extras true)).get? k = x.bindings.get? k := by
        rw [x.extras_eq, laid.get?_insertAll (x.extrasMap true).nodup, hnone, Option.or_none]
        exact x.get?_extrasMap true hk
      rw [hget, hlaid]

end Pipeline

/-! ## The strongest registration -/

namespace Provider

theorem given_map (es : List ProviderEntry) (k : String) :
    given (es.map ProviderEntry.provider) k =
      es.reverse.findSome? fun e => e.provider.values.get? k := by
  unfold given
  rw [← List.map_reverse, List.findSome?_map]
  rfl

/-- The last of some providers in the order of their priority is the strongest of those that give a
name. -/
theorem strongest_of_given {names compatible : List String} {es : List ProviderEntry}
    (horder : es.Pairwise fun a b => a = b ∨ b.Outranks names compatible a) {k : String}
    {value : BindingValue} (h : given (es.map ProviderEntry.provider) k = some value) :
    ∃ e ∈ es, e.provider.values.get? k = some value ∧
      ∀ f ∈ es, k ∈ f.provider.values.keys → f = e ∨ e.Outranks names compatible f := by
  rw [given_map, List.findSome?_eq_some_iff] at h
  obtain ⟨later, e, earlier, hes, hvalue, hlater⟩ := h
  have horder' := List.pairwise_reverse.mpr horder
  rw [hes, List.pairwise_append, List.pairwise_cons] at horder'
  have hmem : ∀ f, f ∈ es ↔ f ∈ later ∨ f = e ∨ f ∈ earlier := by
    intro f
    rw [← List.mem_reverse, hes, List.mem_append, List.mem_cons]
  refine ⟨e, (hmem e).mpr (.inr (.inl rfl)), hvalue, fun f hf hk => ?_⟩
  rcases (hmem f).mp hf with hf | hf | hf
  · exact absurd hk (OrderedMap.get?_eq_none_iff.mp (hlater f hf))
  · exact .inl hf
  · exact horder'.2.1.1 f hf

end Provider

namespace ProviderRegistry

variable {names compatible : List String} {context : String}

/-- The registrations for a context and an engine among some. -/
def applicable (ms : List Live) (context : String) (names compatible : List String) : List Live :=
  ms.filter fun m => m.served.contains context && m.isFor names compatible

theorem mem_applicable {ms : List Live} {m : Live} : m ∈ applicable ms context names compatible ↔
    m ∈ ms ∧ context ∈ m.served ∧ m.isFor names compatible = true := by
  simp [applicable]

theorem entered_applicable (ms : List Live) :
    entered (applicable ms context names compatible) context =
      (entered ms context).filter fun e => e.isFor names compatible := by
  have hserved : ∀ ns : List Live,
      entered (ns.filter fun m => m.served.contains context) context = entered ns context := by
    intro ns
    induction ns with
    | nil => rfl
    | cons n ns ih =>
        unfold entered at ih ⊢
        rw [List.filter_cons, List.flatMap_cons, ← ih]
        split
        · rfl
        · next hnot =>
            have hnone : n.entriesIn context = [] := by
              unfold Live.entriesIn
              rw [List.count_eq_zero.mpr fun hmem => hnot (List.contains_iff_mem.mpr hmem)]
              rfl
            rw [hnone, List.nil_append]
  have hsplit : applicable ms context names compatible =
      (ms.filter fun m => m.isFor names compatible).filter fun m => m.served.contains context :=
    (List.filter_filter).symm
  rw [hsplit, hserved]
  exact entered_filter ms context fun e => e.isFor names compatible

/-- What a run of calls leaves for a context and an engine. -/
theorem providersFor_calling {calls : List Call} (hactive : Call.activate ∈ calls) :
    (empty.calling calls).2.providersFor context names compatible =
      ((ContextProviders.of (entered (applicable (live (requests calls)) context names compatible)
        context)).entriesFor names compatible).map ProviderEntry.provider := by
  obtain ⟨-, hfollows⟩ := follows_calling follows_empty calls
  have hcoherent : Coherent (entered (live (requests calls)) context) :=
    Ledger.coherent_entered _ context
  rw [hfollows.providersFor (active_calling (.inr hactive)), entered_applicable,
    ContextProviders.entriesFor_filter hcoherent]
  rfl

theorem mem_requests {calls : List Call} {q : Request} (h : q ∈ requests calls) :
    Call.request q ∈ calls := by
  induction calls with
  | nil => cases h
  | cons c calls ih =>
      cases c with
      | request q' =>
          rcases List.mem_cons.mp h with rfl | h
          · exact List.mem_cons_self
          · exact List.mem_cons_of_mem _ (ih h)
      | activate => exact List.mem_cons_of_mem _ (ih h)

/-- A registration in force has been asked for. -/
theorem registered_of_mem_live {calls : List Call} {m : Live} (h : m ∈ live (requests calls)) :
    Call.request (.register m.provider m.registration) ∈ calls := by
  obtain ⟨before, after, hrequests, -, -⟩ := mem_live_iff.mp h
  apply mem_requests
  rw [hrequests]
  simp

end ProviderRegistry

namespace Pipeline

open ProviderRegistry

/-- The registrations for an execution among some. -/
def rivals (p : Pipeline) (x : Execution) (ms : List Live) : List Live :=
  applicable ms (x.context.getD p.settings.defaultContext) x.engine.names
    x.engine.compatibleLanguages

/-- The pipeline with the registry that some calls leave. -/
def filled (p : Pipeline) (calls : List Call) : Pipeline :=
  { p with providers := (empty.calling calls).2 }

/-- Assembly depends on the calls only through the providers that run. -/
theorem build_filled {p : Pipeline} {calls calls' : List Call} {x : Execution}
    (h : (p.filled calls).providersOf x = (p.filled calls').providersOf x)
    (around : Surroundings) (w : World) :
    (p.filled calls).build around x w = (p.filled calls').build around x w := by
  have hfinish : ∀ laid helper owns v, (p.filled calls).finish around x laid helper owns v =
      (p.filled calls').finish around x laid helper owns v := by
    intro laid helper owns v
    unfold providersOf filled at h
    unfold finish filled
    dsimp only at h ⊢
    rw [h]
  unfold build
  simp only [hfinish]
  rfl

/-- What runs for an execution once some registrations have been entered. -/
def running (p : Pipeline) (x : Execution) (ms : List Live) : List ProviderEntry :=
  (ContextProviders.of (entered ms (x.context.getD p.settings.defaultContext))).entriesFor
    x.engine.names x.engine.compatibleLanguages

theorem providersOf_filled {calls : List Call} (hactive : Call.activate ∈ calls) (p : Pipeline)
    (x : Execution) : (p.filled calls).providersOf x =
      (p.running x (p.rivals x (live (requests calls)))).map ProviderEntry.provider :=
  providersFor_calling hactive

theorem coherent_rivals (p : Pipeline) (x : Execution) (qs : List ProviderRegistry.Request) :
    Coherent (entered (p.rivals x (live qs)) (x.context.getD p.settings.defaultContext)) := by
  unfold rivals
  rw [entered_applicable]
  exact (Ledger.coherent_entered _ _).subset List.filter_sublist.subset

theorem mem_running {p : Pipeline} {x : Execution} {qs : List ProviderRegistry.Request}
    {e : ProviderEntry} :
    e ∈ p.running x (p.rivals x (live qs)) ↔
      ∃ m ∈ p.rivals x (live qs), e = m.toProviderEntry := by
  refine (ContextProviders.mem_entriesFor (p.coherent_rivals x qs)).trans ?_
  rw [mem_entered]
  constructor
  · rintro ⟨⟨m, hm, -, rfl⟩, -⟩
    exact ⟨m, hm, rfl⟩
  · rintro ⟨m, hm, rfl⟩
    obtain ⟨-, hcontext, hfor⟩ := mem_applicable.mp hm
    exact ⟨⟨m, hm, hcontext, rfl⟩, hfor⟩

theorem pairwise_running (p : Pipeline) (x : Execution) (qs : List ProviderRegistry.Request) :
    (p.running x (p.rivals x (live qs))).Pairwise fun a b =>
      a = b ∨ b.Outranks x.engine.names x.engine.compatibleLanguages a :=
  ContextProviders.pairwise_entriesFor (p.coherent_rivals x qs)

/-- **The highest-priority write wins.** Let the providers of a pipeline be those that a run of
calls has registered, all of them static. Unless the execution is in conflict with itself its scope
is assembled, and a name that is not reserved stands there for what the strongest registration that
gives it says; for what the caller has bound, if there is none. Only registrations for the context
and the engine of the execution have a part in its scope. -/
theorem highest_priority_wins (around : Surroundings) (p : Pipeline) (x : Execution) (w : World)
    (calls : List Call) (hactive : Call.activate ∈ calls)
    (hstatic : ∀ q r, Call.request (.register q r) ∈ calls → q.IsStatic) :
    let rivals := p.rivals x (live (requests calls))
    (∀ e, x.conflict? around w = some e → (p.filled calls).build around x w = (.error e, w)) ∧
    (x.conflict? around w = none →
      ∃ scope w', (p.filled calls).build around x w = (.ok scope, w') ∧
        ∀ k, isReserved k = false →
          (∃ m ∈ rivals, k ∈ m.provider.values.keys ∧
            scope.bindings.get? k = m.provider.values.get? k ∧
            ∀ n ∈ rivals, k ∈ n.provider.values.keys →
              n = m ∨ m.Outranks x.engine.names x.engine.compatibleLanguages n.toProviderEntry) ∨
          ((∀ m ∈ rivals, k ∉ m.provider.values.keys) ∧
            scope.bindings.get? k = x.bindings.get? k)) ∧
    ∀ calls', Call.activate ∈ calls' → p.rivals x (live (requests calls')) = rivals →
      (p.filled calls').build around x w = (p.filled calls).build around x w := by
  intro rivals
  have hlive : ∀ m ∈ rivals, m ∈ live (requests calls) := fun m hm => (mem_applicable.mp hm).1
  refine ⟨fun e => build_conflict, fun hfree => ?_, fun calls' hactive' hrivals => ?_⟩
  · have hproviders := providersOf_filled hactive p x
    have horder := p.pairwise_running x (requests calls)
    have hall : ∀ q ∈ (p.filled calls).providersOf x, q.IsStatic := by
      intro q hq
      rw [hproviders] at hq
      obtain ⟨e, he, rfl⟩ := List.mem_map.mp hq
      obtain ⟨m, hm, rfl⟩ := mem_running.mp he
      exact hstatic _ _ (registered_of_mem_live (hlive m hm))
    obtain ⟨scope, w', hbuild, hget⟩ := build_static hall hfree
    refine ⟨scope, w', hbuild, fun k hk => ?_⟩
    have hscope := hget k hk
    rw [hproviders] at hscope
    cases hgiven : Provider.given ((p.running x rivals).map ProviderEntry.provider) k with
    | some value =>
        obtain ⟨e, he, hvalue, hbest⟩ := Provider.strongest_of_given horder hgiven
        obtain ⟨m, hm, rfl⟩ := mem_running.mp he
        rw [hgiven] at hscope
        refine .inl ⟨m, hm, ?_, hscope.trans hvalue.symm, fun n hn hnk => ?_⟩
        · rw [← OrderedMap.isSome_get?, hvalue]
          rfl
        · -- An entry has the number of one registration, so equal entries are of the same.
          rcases hbest _ (mem_running.mpr ⟨n, hn, rfl⟩) hnk with heq | houtranks
          · have hid : n.id = m.id := congrArg ProviderEntry.id heq
            exact .inl (Ledger.eq_of_id _ (hlive n hn) (hlive m hm) hid)
          · exact .inr houtranks
    | none =>
        rw [hgiven] at hscope
        refine .inr ⟨fun m hm => ?_, hscope⟩
        rw [Provider.given_map, List.findSome?_eq_none_iff] at hgiven
        have hm' := List.mem_reverse.mpr (mem_running.mpr ⟨m, hm, rfl⟩)
        exact OrderedMap.get?_eq_none_iff.mp (hgiven _ hm')
  · refine build_filled ?_ around w
    rw [providersOf_filled hactive', providersOf_filled hactive, hrivals]

end Pipeline

/-! ## Overlapping languages -/

namespace Sample

open ProviderRegistry (Live Call)

def counted (n : Int) : Provider :=
  .ofValues "counted" (.ofList [("n", .data (.int n))])

/-- For every engine, with a high rank. -/
def general : Live :=
  ⟨⟨0, 9, [], counted 0⟩, []⟩

/-- Two for names of the engine. -/
def elder : Live :=
  ⟨⟨1, 0, ["TMPL"], counted 1⟩, ["request"]⟩

def younger : Live :=
  ⟨⟨2, 0, ["template"], counted 2⟩, []⟩

def elsewhere : Live :=
  ⟨⟨3, 9, ["template"], counted 3⟩, ["jobs"]⟩

def overlapping : List Call :=
  .activate :: [general, elder, younger, elsewhere].map fun m =>
    .request (.register m.provider m.registration)

theorem keys_counted (n : Int) : (counted n).values.keys = ["n"] := rfl

theorem counted_isStatic (n : Int) : (counted n).IsStatic := by
  refine ⟨rfl, fun k hk => ?_⟩
  rw [keys_counted, List.mem_singleton] at hk
  rw [hk]
  decide

/-- A caller who binds one name that providers give, and one that none gives. -/
def counting : Execution :=
  { crowded none with bindings := .ofList [("n", .data .null), ("own", .data .null)] }

end Sample

namespace Pipeline

open Sample ProviderRegistry

/-- Of two registrations for a name of the engine the older one stands, whatever the rank of the
others. -/
theorem highest_priority_wins_overlapping :
    Call.activate ∈ overlapping ∧
      (∀ q r, Call.request (.register q r) ∈ overlapping → q.IsStatic) ∧
      ∃ scope w', (meddled.filled overlapping).build desk counting {} = (.ok scope, w') ∧
        scope.bindings.get? "n" = some (.data (.int 1)) ∧
        scope.bindings.get? "own" = some (.data .null) := by
  have hactive : Call.activate ∈ overlapping := List.mem_cons_self
  have hstatic : ∀ q r, Call.request (.register q r) ∈ overlapping → q.IsStatic := by
    intro q r h
    simp only [overlapping, List.map_cons, List.map_nil, List.mem_cons, List.not_mem_nil,
      reduceCtorEq, Call.request.injEq, Request.register.injEq, or_false, false_or] at h
    rcases h with ⟨rfl, -⟩ | ⟨rfl, -⟩ | ⟨rfl, -⟩ | ⟨rfl, -⟩ <;> exact counted_isStatic _
  obtain ⟨-, hbound, -⟩ :=
    highest_priority_wins desk meddled counting {} overlapping hactive hstatic
  have hfree : counting.conflict? desk {} = none := by cbv
  have hrivals : meddled.rivals counting (live (requests overlapping)) =
      [general, elder, younger] := by cbv
  rw [hrivals] at hbound
  obtain ⟨scope, w', hbuild, hget⟩ := hbound hfree
  refine ⟨hactive, hstatic, scope, w', hbuild, ?_, ?_⟩
  · obtain ⟨m, hm, -, hvalue, hbest⟩ | ⟨hnone, -⟩ := hget "n" (by decide)
    · have helder : elder = m ∨ m.Outranks ["template", "tmpl"] [] elder.toProviderEntry :=
        hbest elder (by simp) (by simp [elder, keys_counted])
      simp only [List.mem_cons, List.not_mem_nil, or_false] at hm
      rcases hm with rfl | rfl | rfl
      · rcases helder with heq | houtranks
        · cases heq
        · exact absurd houtranks (by decide)
      · exact hvalue
      · rcases helder with heq | houtranks
        · cases heq
        · exact absurd houtranks (by decide)
    · exact absurd List.mem_cons_self (hnone elder (by simp))
  · obtain ⟨m, hm, hkey, -, -⟩ | ⟨-, hcaller⟩ := hget "own" (by decide)
    · simp only [List.mem_cons, List.not_mem_nil, or_false] at hm
      rcases hm with rfl | rfl | rfl <;> exact absurd (List.mem_singleton.mp hkey) (by decide)
    · exact hcaller

end Pipeline

end ScriptHost
