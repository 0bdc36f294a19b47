import Mathlib
import ScriptHost.Proofs.Provider.Buckets

/-! # The moment of activation

Until a provider registry is activated it keeps registrations in a queue, and afterwards in the
buckets of their contexts. Both are views of one ledger, the registrations in force from the oldest
to the newest: `Follows` says how a registry shows it, and every call keeps that
(`Follows.serve`, `Follows.activate`, `follows_calling`). The ledger knows nothing of activation, so
whatever can be asked of an active registry is the same whenever it was activated
(`activation_moment_irrelevant`). -/

namespace ScriptHost

open ProviderEntry (Coherent)
open ContextProviders (bucket bucket_of_mem bucket_eq_some)

namespace ProviderRegistry

/-! ## Registrations in force -/

/-- A registration: the provider as it is entered, and the contexts that were named. -/
structure Live extends ProviderEntry where
  contexts : List String

namespace Live

def registration (m : Live) : ProviderRegistration :=
  ⟨m.rank, m.contexts, m.languages⟩

/-- The contexts that a registration serves. -/
def served (m : Live) : List String :=
  if m.contexts.isEmpty then [defaultContext] else m.contexts

theorem exists_served (m : Live) : ∃ context, context ∈ m.served := by
  unfold served
  cases hcontexts : m.contexts with
  | nil => exact ⟨defaultContext, List.mem_cons_self⟩
  | cons context _ => exact ⟨context, List.mem_cons_self⟩

/-- How it stands in the queue. -/
def queued (m : Live) : Nat × ProviderRegistration × Provider :=
  (m.id, m.registration, m.provider)

/-- How it stands in a context. -/
def entriesIn (m : Live) (context : String) : List ProviderEntry :=
  List.replicate (m.served.count context) m.toProviderEntry

end Live

/-- What some registrations leave in a context: each as often as it names the context. -/
def entered (ms : List Live) (context : String) : List ProviderEntry :=
  ms.flatMap fun m => m.entriesIn context

theorem mem_entered {ms : List Live} {context : String} {e : ProviderEntry} :
    e ∈ entered ms context ↔ ∃ m ∈ ms, context ∈ m.served ∧ e = m.toProviderEntry := by
  simp only [entered, List.mem_flatMap, Live.entriesIn, List.mem_replicate, ne_eq,
    List.count_eq_zero, Classical.not_not]

theorem entered_subset (ms : List Live) (context : String) :
    entered ms context ⊆ ms.map Live.toProviderEntry := by
  intro e he
  obtain ⟨m, hm, -, rfl⟩ := mem_entered.mp he
  exact List.mem_map_of_mem hm

theorem entered_append (ms ns : List Live) (context : String) :
    entered (ms ++ ns) context = entered ms context ++ entered ns context :=
  List.flatMap_append

theorem entered_filter (ms : List Live) (context : String) (p : ProviderEntry → Bool) :
    entered (ms.filter fun m => p m.toProviderEntry) context = (entered ms context).filter p := by
  induction ms with
  | nil => rfl
  | cons m ms ih =>
      have hhead : (m.entriesIn context).filter p =
          if p m.toProviderEntry then m.entriesIn context else [] :=
        List.filter_replicate
      unfold entered at ih ⊢
      rw [List.flatMap_cons, List.filter_append, hhead, ← ih, List.filter_cons]
      cases p m.toProviderEntry <;> rfl

inductive Request where
  | register (provider : Provider) (registration : ProviderRegistration)
  | unregister (id : Nat)

inductive Answer where
  | registered (id : Nat)
  | removed (any : Bool)

/-- The registrations in force, oldest first, and the number of the next. -/
structure Ledger where
  nextId : Nat
  live : List Live
  ascending : live.Pairwise fun a b => a.id < b.id
  below : ∀ m ∈ live, m.id < nextId

namespace Ledger

def empty : Ledger := ⟨0, [], .nil, by simp⟩

def register (l : Ledger) (p : Provider) (r : ProviderRegistration) : Ledger where
  nextId := l.nextId + 1
  live := l.live ++ [⟨⟨l.nextId, r.rank, r.languages, p⟩, r.contexts⟩]
  ascending := List.pairwise_append.mpr
    ⟨l.ascending, List.pairwise_singleton _ _, by simpa using l.below⟩
  below m hm := by
    rcases List.mem_append.mp hm with hm | hm
    · exact Nat.lt_succ_of_lt (l.below m hm)
    · rw [List.mem_singleton.mp hm]
      exact Nat.lt_succ_self _

def unregister (l : Ledger) (id : Nat) : Ledger where
  nextId := l.nextId
  live := l.live.filter fun m => m.id != id
  ascending := l.ascending.filter _
  below m hm := l.below m (List.mem_filter.mp hm).1

def serve (l : Ledger) : Request → Answer × Ledger
  | .register p r => (.registered l.nextId, l.register p r)
  | .unregister id => (.removed (l.live.any fun m => m.id == id), l.unregister id)

def serving (l : Ledger) : List Request → List Answer × Ledger
  | [] => ([], l)
  | q :: qs =>
    let (answer, l) := l.serve q
    let (answers, l) := l.serving qs
    (answer :: answers, l)

theorem mem_register {l : Ledger} {p : Provider} {r : ProviderRegistration} {m : Live} :
    m ∈ (l.register p r).live ↔
      m ∈ l.live ∨ (m.id = l.nextId ∧ p = m.provider ∧ r = m.registration) := by
  obtain ⟨⟨id, rank, languages, provider⟩, contexts⟩ := m
  obtain ⟨rank', contexts', languages'⟩ := r
  simp only [register, List.mem_append, List.mem_singleton, Live.mk.injEq,
    ProviderEntry.mk.injEq, Live.registration, ProviderRegistration.mk.injEq]
  grind

theorem mem_unregister {l : Ledger} {id : Nat} {m : Live} :
    m ∈ (l.unregister id).live ↔ m ∈ l.live ∧ m.id ≠ id := by
  simp [unregister]

theorem eq_of_id (l : Ledger) {a b : Live} (ha : a ∈ l.live) (hb : b ∈ l.live)
    (hid : a.id = b.id) : a = b := by
  have hnodup : (l.live.map fun m => m.id).Nodup :=
    List.pairwise_map.mpr (l.ascending.imp fun h => Nat.ne_of_lt h)
  exact List.inj_on_of_nodup_map hnodup ha hb hid

theorem coherent_live (l : Ledger) : Coherent (l.live.map Live.toProviderEntry) := by
  intro a ha b hb hid
  obtain ⟨m, hm, rfl⟩ := List.mem_map.mp ha
  obtain ⟨n, hn, rfl⟩ := List.mem_map.mp hb
  rw [l.eq_of_id hm hn hid]

theorem coherent_entered (l : Ledger) (context : String) : Coherent (entered l.live context) :=
  l.coherent_live.subset (entered_subset l.live context)

end Ledger

/-- The registrations in force after some requests. -/
def live (qs : List Request) : List Live :=
  (Ledger.empty.serving qs).2.live

/-- How many registrations there are among some requests. -/
def registrations : List Request → Nat
  | [] => 0
  | .register _ _ :: qs => registrations qs + 1
  | .unregister _ :: qs => registrations qs

/-- What requests leave in force: what was, unless it is unregistered, and what is registered and
not unregistered later. Registrations are numbered in their order. -/
theorem Ledger.mem_serving (l : Ledger) {qs : List Request} {m : Live} :
    m ∈ (l.serving qs).2.live ↔ (m ∈ l.live ∧ Request.unregister m.id ∉ qs) ∨
      ∃ before after, qs = before ++ .register m.provider m.registration :: after ∧
        m.id = l.nextId + registrations before ∧ Request.unregister m.id ∉ after := by
  induction qs generalizing l with
  | nil => simp [serving]
  | cons q qs ih =>
      refine (ih (l.serve q).2).trans ?_
      cases q with
      | register p r =>
          -- The new registration is the one with nothing before it.
          simp only [serve, mem_register, List.cons_eq_append_iff, List.mem_cons]
          constructor
          · rintro (⟨hm | ⟨hid, rfl, rfl⟩, hnot⟩ | ⟨before, after, rfl, hid, hnot⟩)
            · exact .inl ⟨hm, by simpa using hnot⟩
            · exact .inr ⟨[], qs, .inl ⟨rfl, rfl⟩, hid, hnot⟩
            · refine .inr ⟨.register p r :: before, after, .inr ⟨_, rfl, rfl⟩, ?_, hnot⟩
              simp only [register, registrations] at hid ⊢
              omega
          · rintro (⟨hm, hnot⟩ | ⟨before, after, ⟨rfl, hq⟩ | ⟨before', rfl, rfl⟩, hid, hnot⟩)
            · exact .inl ⟨.inl hm, by simpa using hnot⟩
            · cases hq
              exact .inl ⟨.inr ⟨hid, rfl, rfl⟩, hnot⟩
            · refine .inr ⟨before', after, rfl, ?_, hnot⟩
              simp only [register, registrations] at hid ⊢
              omega
      | unregister id =>
          simp only [serve, mem_unregister, List.cons_eq_append_iff, List.mem_cons]
          constructor
          · rintro (⟨⟨hm, hne⟩, hnot⟩ | ⟨before, after, rfl, hid, hnot⟩)
            · exact .inl ⟨hm, by simpa [hne] using hnot⟩
            · exact .inr ⟨.unregister id :: before, after, .inr ⟨_, rfl, rfl⟩, hid, hnot⟩
          · rintro (⟨hm, hnot⟩ | ⟨before, after, ⟨rfl, hq⟩ | ⟨before', rfl, rfl⟩, hid, hnot⟩)
            · simp only [Request.unregister.injEq, not_or] at hnot
              exact .inl ⟨⟨hm, hnot.1⟩, hnot.2⟩
            · cases hq
            · exact .inr ⟨before', after, rfl, hid, hnot⟩

theorem mem_live_iff {qs : List Request} {m : Live} :
    m ∈ live qs ↔ ∃ before after, qs = before ++ .register m.provider m.registration :: after ∧
      m.id = registrations before ∧ Request.unregister m.id ∉ after := by
  simp [live, Ledger.mem_serving, Ledger.empty]

/-! ## Runs of a registry -/

def serve (reg : ProviderRegistry) : Request → Answer × ProviderRegistry
  | .register p r =>
    let (id, reg) := reg.register p r
    (.registered id, reg)
  | .unregister id =>
    let (any, reg) := reg.unregister id
    (.removed any, reg)

inductive Call where
  | request (q : Request)
  | activate

/-- The calls without those that activate. -/
def requests : List Call → List Request
  | [] => []
  | .request q :: calls => q :: requests calls
  | .activate :: calls => requests calls

/-- Makes some calls, and gives the answers to the requests among them. -/
def calling (reg : ProviderRegistry) : List Call → List Answer × ProviderRegistry
  | [] => ([], reg)
  | .request q :: calls =>
    let (answer, reg) := reg.serve q
    let (answers, reg) := reg.calling calls
    (answer :: answers, reg)
  | .activate :: calls => reg.activate.2.calling calls

/-! ## One ledger in two views -/

/-- **How a registry shows a ledger**: as a queue until it is activated, and in the buckets of the
contexts from then on. -/
structure Follows (reg : ProviderRegistry) (l : Ledger) : Prop where
  nextId : reg.nextId = l.nextId
  waiting : reg.active = false → reg.pending = l.live.map Live.queued ∧ reg.contexts = .empty
  working : reg.active = true → reg.pending = [] ∧
    ∀ context, reg.contexts.get? context = bucket (entered l.live context)

theorem follows_empty : empty.Follows .empty :=
  ⟨rfl, fun _ => ⟨rfl, rfl⟩, fun h => nomatch h⟩

theorem get?_enter {contexts : OrderedMap String ContextProviders} {es : List ProviderEntry}
    {context : String} (h : contexts.get? context = bucket es) {m : Live}
    (hcoherent : Coherent (es ++ [m.toProviderEntry])) :
    (enter contexts m.id m.registration m.provider).get? context =
      bucket (es ++ m.entriesIn context) :=
  get?_foldl_insert m.served h hcoherent

/-- The invariant of the replay: what has been entered so far comes before what is replayed. -/
theorem get?_replay {ms : List Live} {contexts : OrderedMap String ContextProviders}
    {es : List ProviderEntry} {context : String} (h : contexts.get? context = bucket es)
    (hcoherent : Coherent (es ++ ms.map Live.toProviderEntry)) :
    (ms.foldl (fun cs m => enter cs m.id m.registration m.provider) contexts).get? context =
      bucket (es ++ entered ms context) := by
  induction ms generalizing contexts es with
  | nil => simpa [entered] using h
  | cons m ms ih =>
      have hhead : Coherent (es ++ [m.toProviderEntry]) := by
        apply hcoherent.subset
        simp
      -- The context may get the same entry several times, but no other entry of that number.
      have htail : Coherent (es ++ m.entriesIn context ++ ms.map Live.toProviderEntry) := by
        apply hcoherent.subset
        intro e he
        simp only [Live.entriesIn, List.mem_append, List.mem_replicate, List.map_cons,
          List.mem_cons] at he ⊢
        grind
      rw [List.foldl_cons, ih (get?_enter h hhead) htail, List.append_assoc]
      rfl

theorem Follows.register {reg : ProviderRegistry} {l : Ledger} (h : reg.Follows l) (p : Provider)
    (r : ProviderRegistration) :
    (reg.register p r).1 = l.nextId ∧ (reg.register p r).2.Follows (l.register p r) := by
  let m : Live := ⟨⟨l.nextId, r.rank, r.languages, p⟩, r.contexts⟩
  have hlive : (l.register p r).live = l.live ++ [m] := rfl
  have hcoherent := (l.register p r).coherent_live
  obtain ⟨active, pending, contexts, nextId⟩ := reg
  obtain rfl : nextId = l.nextId := h.nextId
  cases active with
  | false =>
      obtain ⟨hpending, hcontexts⟩ := h.waiting rfl
      refine ⟨rfl, rfl, fun _ => ⟨?_, hcontexts⟩, fun h => nomatch h⟩
      show pending ++ [m.queued] = _
      rw [hlive, List.map_append, ← hpending]
      rfl
  | true =>
      obtain ⟨hpending, hcontexts⟩ := h.working rfl
      refine ⟨rfl, rfl, (fun h => nomatch h), fun _ => ⟨hpending, fun context => ?_⟩⟩
      have hnew : Coherent (entered l.live context ++ [m.toProviderEntry]) := by
        refine hcoherent.subset ?_
        rw [hlive, List.map_append]
        exact List.append_subset.mpr ⟨List.subset_append_of_subset_left _ (entered_subset _ _),
          List.subset_append_right _ _⟩
      show (enter contexts m.id m.registration m.provider).get? context = _
      rw [get?_enter (hcontexts context) hnew, hlive, entered_append]
      congr 1
      simp [entered]

/-- A provider is found in a context if and only if its registration is in force: every registration
serves some context. -/
theorem any_holds {contexts : OrderedMap String ContextProviders} {ms : List Live}
    (h : ∀ context, contexts.get? context = bucket (entered ms context)) (id : Nat) :
    (contexts.entries.any fun c => c.2.holds id) = ms.any fun m => m.id == id := by
  rw [Bool.eq_iff_iff, List.any_eq_true, List.any_eq_true]
  constructor
  · rintro ⟨⟨context, c⟩, hc, hholds⟩
    have hbucket := (h context).symm.trans (OrderedMap.mem_entries_iff.mp hc)
    rw [← bucket_eq_some hbucket, ContextProviders.holds_of] at hholds
    obtain ⟨e, he, hid⟩ := hholds
    obtain ⟨m, hm, -, rfl⟩ := mem_entered.mp he
    exact ⟨m, hm, beq_iff_eq.mpr hid⟩
  · rintro ⟨m, hm, hid⟩
    obtain ⟨context, hcontext⟩ := m.exists_served
    have he : m.toProviderEntry ∈ entered ms context := mem_entered.mpr ⟨m, hm, hcontext, rfl⟩
    have hbucket : contexts.get? context = some (.of (entered ms context)) :=
      (h context).trans (bucket_of_mem he)
    exact ⟨_, OrderedMap.mem_entries_iff.mpr hbucket,
      (ContextProviders.holds_of _ id).mpr ⟨_, he, beq_iff_eq.mp hid⟩⟩

theorem Follows.unregister {reg : ProviderRegistry} {l : Ledger} (h : reg.Follows l) (id : Nat) :
    (reg.unregister id).1 = (l.live.any fun m => m.id == id) ∧
      (reg.unregister id).2.Follows (l.unregister id) := by
  obtain ⟨active, pending, contexts, nextId⟩ := reg
  obtain rfl : nextId = l.nextId := h.nextId
  cases active with
  | false =>
      obtain ⟨rfl, rfl⟩ := h.waiting rfl
      have hany : ((l.live.map Live.queued).any fun q => q.1 == id) =
          l.live.any fun m => m.id == id :=
        List.any_map
      unfold ProviderRegistry.unregister
      dsimp only
      rw [hany]
      split
      · next hsome =>
          refine ⟨hsome.symm, rfl, fun _ => ⟨?_, rfl⟩, fun h => nomatch h⟩
          exact List.filter_map
      · next hnone =>
          -- The contexts are still empty, so there is nothing to be found in them either.
          have hall : (l.unregister id).live = l.live := by
            refine List.filter_eq_self.mpr fun m hm => ?_
            simp only [List.any_eq_true, beq_iff_eq, not_exists, not_and] at hnone
            simpa using hnone m hm
          refine ⟨(Bool.not_eq_true _ ▸ hnone).symm, rfl, fun _ => ⟨?_, rfl⟩, fun h => nomatch h⟩
          rw [hall]
  | true =>
      obtain ⟨rfl, hcontexts⟩ := h.working rfl
      refine ⟨any_holds hcontexts id, rfl, (fun h => nomatch h), fun _ => ⟨rfl, fun context => ?_⟩⟩
      show ((contexts.mapValues fun c => c.remove id).filter fun _ c => !c.isEmpty).get? context = _
      rw [OrderedMap.get?_filter, OrderedMap.get?_mapValues, hcontexts,
        ContextProviders.remove_bucket (l.coherent_entered context)]
      exact congrArg bucket (entered_filter l.live context fun e => e.id != id).symm

theorem Follows.activate {reg : ProviderRegistry} {l : Ledger} (h : reg.Follows l) :
    reg.activate.2.Follows l := by
  obtain ⟨active, pending, contexts, nextId⟩ := reg
  cases active with
  | true => exact h
  | false =>
      obtain ⟨hpending, hcontexts⟩ := h.waiting rfl
      refine ⟨h.nextId, (fun h => nomatch h), fun _ => ⟨rfl, fun context => ?_⟩⟩
      have hnone : contexts.get? context = bucket [] := by
        rw [show contexts = .empty from hcontexts]
        rfl
      have hreplay := get?_replay hnone l.coherent_live
      show (pending.foldl _ contexts).get? context = _
      rw [show pending = _ from hpending, List.foldl_map]
      exact hreplay

theorem Follows.serve {reg : ProviderRegistry} {l : Ledger} (h : reg.Follows l) (q : Request) :
    (reg.serve q).1 = (l.serve q).1 ∧ (reg.serve q).2.Follows (l.serve q).2 := by
  cases q with
  | register p r =>
      obtain ⟨hid, hfollows⟩ := h.register p r
      exact ⟨congrArg Answer.registered hid, hfollows⟩
  | unregister id =>
      obtain ⟨hany, hfollows⟩ := h.unregister id
      exact ⟨congrArg Answer.removed hany, hfollows⟩

/-- **A run of a registry is a run of its ledger**, wherever the registry is activated. -/
theorem follows_calling {reg : ProviderRegistry} {l : Ledger} (h : reg.Follows l)
    (calls : List Call) :
    (reg.calling calls).1 = (l.serving (requests calls)).1 ∧
      (reg.calling calls).2.Follows (l.serving (requests calls)).2 := by
  induction calls generalizing reg l with
  | nil => exact ⟨rfl, h⟩
  | cons c calls ih =>
      cases c with
      | request q =>
          obtain ⟨hanswer, hstep⟩ := h.serve q
          obtain ⟨hanswers, hrest⟩ := ih hstep
          exact ⟨congrArg₂ List.cons hanswer hanswers, hrest⟩
      | activate => exact ih h.activate

theorem active_serve (reg : ProviderRegistry) (q : Request) :
    (reg.serve q).2.active = reg.active := by
  obtain ⟨active, pending, contexts, nextId⟩ := reg
  cases q with
  | register p r => cases active <;> rfl
  | unregister id =>
      show (ProviderRegistry.unregister _ id).2.active = _
      unfold ProviderRegistry.unregister
      split <;> rfl

theorem active_activate (reg : ProviderRegistry) : reg.activate.2.active = true := by
  obtain ⟨_ | _, pending, contexts, nextId⟩ := reg <;> rfl

theorem active_calling {reg : ProviderRegistry} {calls : List Call}
    (h : reg.active = true ∨ Call.activate ∈ calls) : (reg.calling calls).2.active = true := by
  induction calls generalizing reg with
  | nil =>
      show reg.active = true
      simpa using h
  | cons c calls ih =>
      cases c with
      | request q =>
          have hstep : (reg.serve q).2.active = true ∨ Call.activate ∈ calls := by
            rw [active_serve]
            simpa using h
          exact ih hstep
      | activate => exact ih (.inl reg.active_activate)

/-! ## What an active registry tells -/

theorem Follows.providersFor {reg : ProviderRegistry} {l : Ledger} (h : reg.Follows l)
    (hactive : reg.active = true) (context : String) (names compatible : List String) :
    reg.providersFor context names compatible =
      ((ContextProviders.of (entered l.live context)).entriesFor names compatible).map
        ProviderEntry.provider := by
  unfold ProviderRegistry.providersFor
  rw [(h.working hactive).2, ← ContextProviders.getD_bucket]
  cases bucket (entered l.live context) <;> rfl

/-- A context is listed if and only if a registration in force serves it. -/
theorem Follows.mem_contextNames {reg : ProviderRegistry} {l : Ledger} (h : reg.Follows l)
    (hactive : reg.active = true) {context : String} :
    context ∈ reg.contextNames ↔ ∃ m ∈ l.live, context ∈ m.served := by
  unfold ProviderRegistry.contextNames
  rw [(List.mergeSort_perm _ _).mem_iff, ← OrderedMap.isSome_get?, (h.working hactive).2]
  constructor
  · intro hsome
    obtain ⟨e, he⟩ := List.exists_mem_of_ne_nil (entered l.live context) fun hnil => by
      rw [hnil] at hsome
      cases hsome
    obtain ⟨m, hm, hcontext, -⟩ := mem_entered.mp he
    exact ⟨m, hm, hcontext⟩
  · rintro ⟨m, hm, hcontext⟩
    rw [bucket_of_mem (mem_entered.mpr ⟨m, hm, hcontext, rfl⟩)]
    rfl

theorem pairwise_contextNames (reg : ProviderRegistry) : reg.contextNames.Pairwise (· < ·) := by
  have hle : reg.contextNames.Pairwise fun a b => decide (a ≤ b) = true := by
    refine List.pairwise_mergeSort ?_ ?_ _
    · intro a b c hab hbc
      exact decide_eq_true (String.le_trans (of_decide_eq_true hab) (of_decide_eq_true hbc))
    · intro a b
      simpa using String.le_total a b
  have hne : reg.contextNames.Nodup :=
    (List.mergeSort_perm _ _).nodup_iff.mpr reg.contexts.keys_nodup
  exact hle.imp₂ (fun a b hab hne => Std.lt_of_le_of_ne (of_decide_eq_true hab) hne) hne

theorem requests_activate_first (qs : List Request) :
    requests (.activate :: qs.map .request) = qs := by
  show requests (qs.map .request) = qs
  induction qs with
  | nil => rfl
  | cons q qs ih => exact congrArg (q :: ·) ih

/-- **The moment of activation is irrelevant.** Requests are answered as if the registry had been
activated first, wherever and however often it is activated. Once it is active it gives the same
providers for every context and engine, and lists the same contexts: in order those that a
registration in force serves. -/
theorem activation_moment_irrelevant (calls : List Call) :
    let reg := empty.calling calls
    let first := empty.calling (.activate :: (requests calls).map .request)
    reg.1 = first.1 ∧ (Call.activate ∈ calls →
      (∀ context names compatible,
        reg.2.providersFor context names compatible =
          first.2.providersFor context names compatible) ∧
      reg.2.contextNames = first.2.contextNames ∧
      reg.2.contextNames.Pairwise (· < ·) ∧
      ∀ context, context ∈ reg.2.contextNames ↔
        ∃ m ∈ live (requests calls), context ∈ m.served) := by
  intro reg first
  obtain ⟨hanswers, hfollows⟩ := follows_calling follows_empty calls
  obtain ⟨hanswers', hfollows'⟩ :=
    follows_calling follows_empty (.activate :: (requests calls).map .request)
  rw [requests_activate_first] at hanswers' hfollows'
  refine ⟨hanswers.trans hanswers'.symm, fun hmem => ?_⟩
  have hactive : reg.2.active = true := active_calling (.inr hmem)
  have hactive' : first.2.active = true := active_calling (.inr List.mem_cons_self)
  refine ⟨fun context names compatible => ?_, ?_, pairwise_contextNames _,
    fun context => hfollows.mem_contextNames hactive⟩
  · rw [hfollows.providersFor hactive, hfollows'.providersFor hactive']
  · refine (pairwise_contextNames _).eq_of_mem_iff (pairwise_contextNames _) fun context => ?_
    rw [hfollows.mem_contextNames hactive, hfollows'.mem_contextNames hactive']

end ProviderRegistry

/-! ## A late activation -/

namespace Sample

def silent (name : String) : Provider :=
  .ofValues name .empty

/-- One registration for two contexts, and one that is withdrawn while it waits; after the
activation one more of the same rank, in a context that is named twice. -/
def lateCalls : List ProviderRegistry.Call := [
  .request (.register (silent "both") ⟨1, ["b", "a"], []⟩),
  .request (.register (silent "gone") ⟨0, [], []⟩),
  .request (.unregister 1),
  .activate,
  .request (.register (silent "twice") ⟨1, ["a", "a"], []⟩),
  .request (.unregister 1),
  .activate]

end Sample

namespace ProviderRegistry

open Sample

/-- Seen from the end, the activations might as well have come first. -/
theorem activation_moment_irrelevant_late :
    Call.activate ∈ lateCalls ∧
      (empty.calling (.activate :: (requests lateCalls).map .request)).1 =
        [.registered 0, .registered 1, .removed true, .registered 2, .removed false] ∧
      ((empty.calling lateCalls).2.providersFor "a" [] []).map Provider.name =
        ["twice", "twice", "both"] ∧
      (empty.calling lateCalls).2.contextNames = ["a", "b"] := by
  have hmem : Call.activate ∈ lateCalls := by simp [lateCalls]
  obtain ⟨hanswers, hactive⟩ := activation_moment_irrelevant lateCalls
  obtain ⟨hproviders, hnames, -, -⟩ := hactive hmem
  refine ⟨hmem, ?_, ?_, ?_⟩
  · rw [← hanswers]
    cbv
  · rw [hproviders]
    cbv
  · rw [hnames]
    cbv

end ProviderRegistry

end ScriptHost
