import ScriptHost.Proofs.Provider.Priority
import ScriptHost.Proofs.Repeats

/-! # The turns of providers

For a context and an engine the registrations in force that are for both take their turns in the
order of their priority, the weakest first (`inTurn`). That order is strict, so it leaves no room
for a registration to come in twice, however its languages meet the names of the engine and the
languages it is compatible with. What a provider can have twice is its turn: a registration has as
many, one after the other, as it names the context (`turns_by_priority`). -/

namespace ScriptHost

open ProviderEntry (Coherent sorted_perm)

namespace ProviderEntry

variable {names compatible : List String} {a b c : ProviderEntry}

theorem Outranks.asymm (h : a.Outranks names compatible b) : ¬ b.Outranks names compatible a := by
  unfold Outranks at *
  omega

theorem not_outranks_trans (hab : ¬ a.Outranks names compatible b)
    (hbc : ¬ b.Outranks names compatible c) : ¬ a.Outranks names compatible c := by
  unfold Outranks at *
  omega

/-- Of two registrations one has priority. -/
theorem outranks_of_not (hid : a.id ≠ b.id) (h : ¬ a.Outranks names compatible b) :
    b.Outranks names compatible a := by
  unfold Outranks at *
  omega

end ProviderEntry

namespace ContextProviders

variable {names compatible : List String} {es : List ProviderEntry}

/-- The three tiers together are what is for an engine. -/
theorem entriesFor_perm (h : Coherent es) : ((of es).entriesFor names compatible).Perm
    (es.filter fun e => e.isFor names compatible) := by
  -- There are three tiers only: those of the lowest are cut off first, then those of the next.
  let mine := es.filter fun e => e.isFor names compatible
  let keyed := mine.filter fun e => !(e.tier names compatible == 0)
  have hstage : ∀ t, (stage names compatible t es).Perm
      (mine.filter fun e => e.tier names compatible == t) := by
    intro t
    refine (sorted_perm _).trans (.of_eq ?_)
    simp only [mine, List.filter_filter, Bool.and_comm]
  have hone : (mine.filter fun e => e.tier names compatible == 1) =
      keyed.filter fun e => e.tier names compatible == 1 := by
    simp only [keyed, List.filter_filter]
    exact List.filter_congr fun e _ => by grind
  have htwo : (mine.filter fun e => e.tier names compatible == 2) =
      keyed.filter fun e => !(e.tier names compatible == 1) := by
    simp only [keyed, List.filter_filter]
    refine List.filter_congr fun e _ => ?_
    unfold ProviderEntry.tier
    grind
  have hkeyed : (stage names compatible 1 es ++ stage names compatible 2 es).Perm keyed :=
    ((hone ▸ hstage 1).append (htwo ▸ hstage 2)).trans (List.filter_append_perm _ keyed)
  rw [entriesFor_of h, List.append_assoc]
  exact ((hstage 0).append hkeyed).trans (List.filter_append_perm _ mine)

end ContextProviders

namespace ProviderRegistry

variable {names compatible : List String} {context : String}

/-- Some registrations in the order of their priority for an engine, the strongest last. -/
def inTurn (names compatible : List String) (ms : List Live) : List Live :=
  ms.mergeSort fun a b => decide ¬ a.Outranks names compatible b.toProviderEntry

theorem inTurn_perm (ms : List Live) : (inTurn names compatible ms).Perm ms :=
  List.mergeSort_perm _ _

theorem pairwise_inTurn {ms : List Live} (hids : ms.Pairwise fun a b => a.id ≠ b.id) :
    (inTurn names compatible ms).Pairwise fun a b =>
      b.Outranks names compatible a.toProviderEntry := by
  have hsorted : (inTurn names compatible ms).Pairwise fun a b =>
      decide (¬ a.Outranks names compatible b.toProviderEntry) = true := by
    refine List.pairwise_mergeSort ?_ ?_ ms
    · intro a b c hab hbc
      exact decide_eq_true (ProviderEntry.not_outranks_trans (of_decide_eq_true hab)
        (of_decide_eq_true hbc))
    · intro a b
      rw [Bool.or_eq_true, decide_eq_true_iff, decide_eq_true_iff]
      exact or_iff_not_imp_left.mpr fun hab => (Classical.not_not.mp hab).asymm
  have hdistinct : (inTurn names compatible ms).Pairwise fun a b => a.id ≠ b.id :=
    (inTurn_perm ms).symm.pairwise hids Ne.symm
  exact hsorted.imp₂ (fun a b hab hid =>
    ProviderEntry.outranks_of_not hid (of_decide_eq_true hab)) hdistinct

theorem distinct_applicable (qs : List Request) :
    (applicable (live qs) context names compatible).Pairwise fun a b => a.id ≠ b.id :=
  ((Ledger.serving .empty qs).2.ascending.imp fun h => Nat.ne_of_lt h).filter _

/-- What some registrations leave in a context, as repeats of them. -/
theorem entered_eq (ms : List Live) : entered ms context =
    (repeated (fun m => m.served.count context) ms).map Live.toProviderEntry := by
  induction ms with
  | nil => rfl
  | cons m ms ih =>
      unfold entered at ih ⊢
      rw [List.flatMap_cons, ih, repeated_cons, List.map_append, List.map_replicate]
      rfl

/-- What runs is what has been entered, in turn. -/
theorem entriesFor_entered {qs : List Request} :
    (ContextProviders.of (entered (applicable (live qs) context names compatible)
        context)).entriesFor names compatible =
      (repeated (fun m => m.served.count context) (inTurn names compatible
        (applicable (live qs) context names compatible))).map Live.toProviderEntry := by
  let mine := applicable (live qs) context names compatible
  have hmine : entered mine context =
      (entered (live qs) context).filter fun e => e.isFor names compatible :=
    entered_applicable (live qs)
  have hcoherent : Coherent (entered mine context) := by
    rw [hmine]
    exact (Ledger.coherent_entered _ context).subset List.filter_sublist.subset
  have hids : mine.Pairwise fun a b => a.id ≠ b.id := distinct_applicable qs
  -- Both lists have the same entries, and equal ones aside the order between them is strict.
  refine List.Perm.eq_of_pairwise ?_ (ContextProviders.pairwise_entriesFor hcoherent) ?_ ?_
  · rintro a b - - hab hba
    rcases hab with hab | hab
    · exact hab
    · exact (hba.resolve_right hab.asymm).symm
  · refine List.pairwise_map.mpr (pairwise_repeated (fun m => .inl rfl) ?_)
    exact (pairwise_inTurn hids).imp fun h => .inr h
  · have hall : (entered mine context).filter (fun e => e.isFor names compatible) =
        entered mine context := by
      rw [hmine, List.filter_filter]
      simp only [Bool.and_self]
    refine (ContextProviders.entriesFor_perm hcoherent).trans ?_
    rw [hall, entered_eq]
    exact (repeated_perm _ (inTurn_perm mine).symm).map _

/-- **Providers take turns by their priority, each as often as its registration names the context.**
Let a registry be activated at some point of a run of calls. For every context and every engine what
runs there comes from the registrations in force that serve the context and are for every engine,
for a name of this one or for a language it is compatible with; from each of them, and one after the
other with the strongest last. They run once each if and only if none of them names the context
more than once. -/
theorem turns_by_priority (calls : List Call) (hactive : Call.activate ∈ calls) (context : String)
    (names compatible : List String) :
    let mine := inTurn names compatible
      (applicable (live (requests calls)) context names compatible)
    let running := (empty.calling calls).2.providersFor context names compatible
    (∀ m, m ∈ mine ↔ m ∈ live (requests calls) ∧ context ∈ m.served ∧
      m.isFor names compatible = true) ∧
    (mine.Pairwise fun a b => b.Outranks names compatible a.toProviderEntry) ∧
    running = (repeated (fun m => m.served.count context) mine).map (·.provider) ∧
    (running = mine.map (·.provider) ↔ ∀ m ∈ mine, m.served.count context = 1) := by
  intro mine running
  have hmem : ∀ m, m ∈ mine ↔ m ∈ live (requests calls) ∧ context ∈ m.served ∧
      m.isFor names compatible = true := by
    intro m
    rw [(inTurn_perm _).mem_iff, mem_applicable]
  have hrunning : running =
      (repeated (fun m => m.served.count context) mine).map (·.provider) := by
    refine (providersFor_calling hactive).trans ?_
    rw [entriesFor_entered, List.map_map]
    rfl
  refine ⟨hmem, pairwise_inTurn (distinct_applicable _), hrunning, ?_⟩
  rw [hrunning]
  exact map_repeated_eq_iff _ fun m hm => List.count_pos_iff.mpr ((hmem m).mp hm).2.1

end ProviderRegistry

/-! ## A context that is named twice -/

namespace Sample

open ProviderRegistry (Call)

/-- For engine `x`, which is compatible with `y`: one registration for every engine, one for both
names at once, one that is withdrawn, and one that names its context twice. -/
def overlaps : List Call := [
  .request (.register (silent "plain") ⟨7, ["a"], []⟩),
  .activate,
  .request (.register (silent "both") ⟨0, ["b", "a"], ["Y", "x"]⟩),
  .request (.register (silent "gone") ⟨1, ["a"], ["x"]⟩),
  .request (.unregister 2),
  .request (.register (silent "twice") ⟨0, ["a", "a"], ["y"]⟩)]

end Sample

namespace ProviderRegistry

open Sample

theorem turns_by_priority_overlaps :
    Call.activate ∈ overlaps ∧
      (inTurn ["x"] ["y"] (applicable (live (requests overlaps)) "a" ["x"] ["y"])).map
        (·.provider.name) = ["plain", "twice", "both"] ∧
      ((empty.calling overlaps).2.providersFor "a" ["x"] ["y"]).map Provider.name =
        ["plain", "twice", "twice", "both"] := by
  have hactive : Call.activate ∈ overlaps := by simp [overlaps]
  obtain ⟨-, -, hrunning, -⟩ := turns_by_priority overlaps hactive "a" ["x"] ["y"]
  refine ⟨hactive, by cbv, ?_⟩
  rw [hrunning]
  cbv

/-- One registration that serves one context, and runs there twice. -/
theorem named_twice_runs_twice :
    let calls : List Call := [.activate, .request (.register (silent "p") ⟨0, ["a", "a"], []⟩)]
    (live (requests calls)).map (·.provider.name) = ["p"] ∧
      ((empty.calling calls).2.providersFor "a" [] []).map Provider.name = ["p", "p"] := by
  cbv

end ProviderRegistry

end ScriptHost
