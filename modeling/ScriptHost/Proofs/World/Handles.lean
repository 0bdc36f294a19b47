import ScriptHost.Scope

/-! # Handles of services

A helper holds the services that it has acquired until it is disposed of. Whatever goes on in the
meantime, sessions and provisions included, the world only goes on with its journal, and each helper
`Retains` what it has: it keeps what it holds, takes on what it acquires, and gives nothing back.
Disposing of a helper then gives back just what it has acquired, in that order (`GivenBack`), and
concerns no other helper. -/

namespace ScriptHost

namespace Journal

theorem acquiredBy_append (j es : Journal) (h : HelperId) :
    (j ++ es).acquiredBy h = j.acquiredBy h ++ es.acquiredBy h :=
  List.flatMap_append

theorem releasedBy_append (j es : Journal) (h : HelperId) :
    (j ++ es).releasedBy h = j.releasedBy h ++ es.releasedBy h :=
  List.filterMap_append

/-- The releases of what a helper held, in order. -/
def releases (h : HelperId) (ids : List Nat) (taken : Bool) : Journal :=
  ids.map fun id => .release h id taken

@[simp] theorem acquiredBy_releases (h k : HelperId) (ids : List Nat) (taken : Bool) :
    (releases h ids taken).acquiredBy k = [] := by
  simp [releases, acquiredBy]

@[simp] theorem releasedBy_releases_self (h : HelperId) (ids : List Nat) (taken : Bool) :
    (releases h ids taken).releasedBy h = ids := by
  unfold releases releasedBy
  induction ids with
  | nil => rfl
  | cons id ids ih =>
      rw [List.map_cons, List.filterMap_cons, ih]
      simp

theorem releasedBy_releases_of_ne {h k : HelperId} (hk : h ≠ k) (ids : List Nat) (taken : Bool) :
    (releases h ids taken).releasedBy k = [] := by
  simp [releases, releasedBy, hk]

end Journal

/-- A helper that has acquired some services. -/
def Helper.acquire (helper : Helper) (ids : List Nat) : Helper :=
  { helper with acquired := helper.acquired ++ ids }

/-- A helper that has been disposed of. -/
def Helper.dispose (helper : Helper) : Helper :=
  { helper with acquired := [], disposed := true }

theorem HelperId.index_ne {h k : HelperId} (hk : h ≠ k) : h.index ≠ k.index := by
  intro hindex
  cases h
  cases k
  cases hindex
  exact hk rfl

/-- Whether an event is about the services of a helper. -/
def Event.isHandling : Event → Bool
  | .acquire _ _ => true
  | .release _ _ _ => true
  | _ => false

namespace World

/-! ## Keeping handles -/

/-- Between two worlds a helper gives nothing back: it is the same as before, but for the services
it has acquired. Only a helper that finds services acquires any. -/
structure Retains (h : HelperId) (w v : World) (es : Journal) : Prop where
  journal : v.journal = w.journal ++ es
  released : es.releasedBy h = []
  helper : v.helper? h = (w.helper? h).map fun helper => helper.acquire (es.acquiredBy h)
  finds : es.acquiredBy h ≠ [] →
    ∃ helper, w.helper? h = some helper ∧ helper.serves = true ∧ helper.disposed = false

namespace Retains

/-- Nothing happened to the helper. -/
theorem of_same {h : HelperId} {w v : World} {es : Journal} (hhelper : v.helper? h = w.helper? h)
    (hjournal : v.journal = w.journal ++ es) (hreleased : es.releasedBy h = [])
    (hacquired : es.acquiredBy h = []) : Retains h w v es where
  journal := hjournal
  released := hreleased
  helper := by
    rw [hacquired, hhelper]
    cases w.helper? h with
    | none => rfl
    | some helper => simp [Helper.acquire]
  finds := fun hne => absurd hacquired hne

theorem refl (h : HelperId) (w : World) : Retains h w w [] :=
  of_same rfl (List.append_nil _).symm rfl rfl

theorem trans {h : HelperId} {u v w : World} {es fs : Journal} (h₁ : Retains h u v es)
    (h₂ : Retains h v w fs) : Retains h u w (es ++ fs) where
  journal := by rw [h₂.journal, h₁.journal, List.append_assoc]
  released := by rw [Journal.releasedBy_append, h₁.released, h₂.released, List.append_nil]
  helper := by
    rw [h₂.helper, h₁.helper, Option.map_map, Journal.acquiredBy_append]
    congr 1
    funext helper
    simp [Helper.acquire]
  finds := by
    intro hne
    rw [Journal.acquiredBy_append] at hne
    by_cases hes : es.acquiredBy h = []
    · rw [hes, List.nil_append] at hne
      obtain ⟨helper, hhelper, hfinds⟩ := h₂.finds hne
      rw [h₁.helper] at hhelper
      obtain ⟨before, hbefore, rfl⟩ := Option.map_eq_some_iff.mp hhelper
      exact ⟨before, hbefore, hfinds⟩
    · exact h₁.finds hes

end Retains

/-- One world comes from another while all helpers keep what they have. -/
def Advances (w v : World) : Prop :=
  ∃ es, ∀ h, Retains h w v es

namespace Advances

theorem refl (w : World) : w.Advances w :=
  ⟨[], fun h => Retains.refl h w⟩

theorem trans {u v w : World} : u.Advances v → v.Advances w → u.Advances w := by
  rintro ⟨es, h₁⟩ ⟨fs, h₂⟩
  exact ⟨es ++ fs, fun h => (h₁ h).trans (h₂ h)⟩

end Advances

/-! ## What goes on in the meantime -/

theorem advances_record (w : World) {e : Event} (he : e.isHandling = false) :
    w.Advances (w.record e) := by
  refine ⟨[e], fun h => Retains.of_same rfl rfl ?_ ?_⟩
  · cases e <;> first | rfl | cases he
  · cases e <;> first | rfl | cases he

theorem advances_of_silent {w v : World} (hhelpers : v.helpers = w.helpers)
    (hjournal : v.journal = w.journal) : w.Advances v := by
  refine ⟨[], fun h => Retains.of_same ?_ (by rw [hjournal, List.append_nil]) rfl rfl⟩
  unfold helper?
  rw [hhelpers]

theorem advances_call (w : World) (on : Writer) (c : OutputCall) : w.Advances (w.call on c) := by
  cases on with
  | discard => exact Advances.refl w
  | output name => exact advances_of_silent rfl rfl

theorem advances_write (w : World) (around : Surroundings) (target : Writer) (text : Bytes) :
    w.Advances (w.write around target text).2 := by
  have hrecord := w.advances_record
    (e := .write target text (w.writeFault around target text)) rfl
  unfold write
  cases text.isEmpty with
  | true => exact hrecord
  | false => exact hrecord.trans (advances_call _ target _)

theorem advances_flush (w : World) (around : Surroundings) (on : Writer) :
    w.Advances (w.flush around on).2 :=
  (w.advances_record rfl).trans (advances_call _ on _)

theorem advances_readText (w : World) (r : Reader) : w.Advances (w.readText r).2 := by
  unfold readText leave
  cases Text.decode? (w.remaining r) with
  | none => exact Advances.refl w
  | some text =>
      cases r with
      | empty => exact Advances.refl w
      | opened index => exact advances_of_silent rfl rfl

theorem advances_openResource (w : World) (around : Surroundings) (r : ResourceId) :
    w.Advances (w.openResource around r).2 := by
  unfold openResource
  dsimp only
  cases (around.resource r).opening with
  | ok bytes => exact w.advances_record rfl
  | error fault => exact w.advances_record rfl

/-- A helper that finds services acquires some. -/
theorem advances_of_acquired {w v : World} {h : HelperId} {helper : Helper} {ids : List Nat}
    (hhelper : w.helper? h = some helper) (hserves : helper.serves = true)
    (hdisposed : helper.disposed = false)
    (hhelpers : v.helpers = w.helpers.set h.index (helper.acquire ids))
    (hjournal : v.journal = w.journal ++ [.acquire h ids]) : w.Advances v := by
  refine ⟨[.acquire h ids], fun k => ?_⟩
  by_cases hk : h = k
  · subst hk
    refine ⟨hjournal, rfl, ?_, fun _ => ⟨helper, hhelper, hserves, hdisposed⟩⟩
    have hids : Journal.acquiredBy [.acquire h ids] h = ids := by simp [Journal.acquiredBy]
    obtain ⟨hlt, _⟩ := List.getElem?_eq_some_iff.mp hhelper
    rw [hids, hhelper]
    unfold helper?
    rw [hhelpers]
    exact List.getElem?_set_self hlt
  · refine Retains.of_same ?_ hjournal rfl (by simp [Journal.acquiredBy, hk])
    unfold helper?
    rw [hhelpers, List.getElem?_set_ne (HelperId.index_ne hk)]

theorem advances_acquire (w : World) (h : HelperId) (q : Query) :
    w.Advances (w.acquire h q).2 := by
  unfold acquire
  split
  · next helper services hhelper hservices =>
      split
      · next hfinds =>
          obtain ⟨hserves, hdisposed⟩ := Bool.and_eq_true_iff.mp hfinds
          rcases services.lookup q with ⟨_ | found, services'⟩
          · exact advances_of_silent rfl rfl
          · exact advances_of_acquired hhelper hserves (by simpa using hdisposed) rfl rfl
      · exact Advances.refl w
  · exact Advances.refl w

/-- **In a session no helper gives anything back.** -/
theorem advances_run {α : Type} (around : Surroundings) (session : Session α) (w : World) :
    w.Advances (World.run around session w).2 := by
  induction session generalizing w with
  | done result => exact Advances.refl w
  | write target text next ih => exact (w.advances_write around target text).trans (ih _ _)
  | flush on next ih => exact (w.advances_flush around on).trans (ih _ _)
  | readText r next ih => exact (w.advances_readText r).trans (ih _ _)
  | acquire helper q next ih => exact (w.advances_acquire helper q).trans (ih _ _)

/-- **Whatever a provider does, no helper gives anything back.** -/
theorem advances_provision (p : Provision) (s : Workplace) :
    s.world.Advances (p.run s).2.world := by
  induction p generalizing s with
  | done => exact Advances.refl s.world
  | fail e => exact Advances.refl s.world
  | read next ih => exact ih s.bindings s
  | put name value next ih =>
      unfold Provision.run
      cases s.bindings.put name value with
      | ok r => exact ih (.ok r.1) { s with bindings := r.2 }
      | error e => exact ih (.error e) s
  | putAll values next ih =>
      unfold Provision.run
      cases s.bindings.putAll values with
      | ok bindings => exact ih (.ok ()) { s with bindings }
      | error e => exact ih (.error e) s
  | take name next ih =>
      unfold Provision.run
      cases s.bindings.take name with
      | ok r => exact ih (.ok r.1) { s with bindings := r.2 }
      | error e => exact ih (.error e) s
  | acquire helper q next ih =>
      exact (s.world.advances_acquire helper q).trans
        (ih (s.world.acquire helper q).1 { s with world := (s.world.acquire helper q).2 })
  | pause n next ih => exact ih { s with micros := s.micros + n }

theorem advances_provide (settings : ScopeSettings) (tracked : Bool) (providers : List Provider)
    (b : Bindings) (w : World) :
    w.Advances (Pipeline.provide settings tracked providers b w).2 := by
  induction providers generalizing b w with
  | nil => exact Advances.refl w
  | cons p ps ih =>
      have hfirst := advances_provision p.provision { bindings := b, world := w }
      unfold Pipeline.provide
      rcases hrun : p.provision.run { bindings := b, world := w } with ⟨_ | _, s⟩ <;>
        rw [hrun] at hfirst
      · exact hfirst
      · refine Advances.trans hfirst (Advances.trans ?_ (ih s.bindings _))
        split
        · exact s.world.advances_record rfl
        · exact Advances.refl s.world

/-- Providers run over the names laid so far. If one fails the helper made for the scope is given
up, and if none does it belongs to the scope. -/
theorem finish_cases (p : Pipeline) (around : Surroundings) (x : Execution) (laid : Bindings)
    (helper : Option HelperId) (owns : Bool) (w : World) :
    ∃ (tracked : Bool) (providers : List Provider) (v : World),
      (∃ e, Pipeline.provide p.settings tracked providers laid w = (.error e, v) ∧
        p.finish around x laid helper owns w =
          (.error e, v.dispose? (if owns then helper else none))) ∨
      (∃ scope, Pipeline.provide p.settings tracked providers laid w = (.ok scope.bindings, v) ∧
        scope.owned? = (if owns then helper else none) ∧
        p.finish around x laid helper owns w = (.ok scope, v)) := by
  unfold Pipeline.finish
  dsimp only
  generalize (helper.bind w.helper?).any (fun h => (around.request h.request).tracked) = tracked
  generalize p.providers.providersFor (x.context.getD p.settings.defaultContext) x.engine.names
    x.engine.compatibleLanguages = providers
  refine ⟨tracked, providers, ?_⟩
  rcases Pipeline.provide p.settings tracked providers laid w with ⟨e | bindings, v⟩
  · exact ⟨v, .inl ⟨e, rfl, rfl⟩⟩
  · exact ⟨v, .inr ⟨_, rfl, rfl, rfl⟩⟩

theorem helpers_reader (x : Execution) (around : Surroundings) (b : Base) (w : World) :
    (x.reader around b w).2.helpers = w.helpers := by
  unfold Execution.reader
  cases x.bound Reserved.reader BindingValue.asReader? <;> rfl

theorem advances_reader (x : Execution) (around : Surroundings) (b : Base) (w : World) :
    w.Advances (x.reader around b w).2 := by
  unfold Execution.reader
  cases x.bound Reserved.reader BindingValue.asReader? with
  | some r => exact Advances.refl w
  | none => exact advances_of_silent rfl rfl

/-! ## Giving handles back -/

/-- A helper has been made, and holds what it has acquired since. -/
structure Holds (h : HelperId) (w v : World) (es : Journal) : Prop where
  made : w.helper? h = none
  journal : v.journal = w.journal ++ es
  released : es.releasedBy h = []
  helper : ∃ helper, v.helper? h = some helper ∧ helper.disposed = false ∧
    helper.acquired = es.acquiredBy h ∧ (helper.serves = false → es.acquiredBy h = [])

/-- A helper has been made, and has given back each service that it acquired once, in the order in
which it acquired them and after all else was done. -/
structure GivenBack (h : HelperId) (w w' : World) : Prop where
  made : w.helper? h = none
  journal : ∃ es : Journal, es.releasedBy h = [] ∧
    w'.journal = w.journal ++ es ++ Journal.releases h (es.acquiredBy h) w'.releases
  disposed : ∃ helper, w'.helper? h = some helper ∧ helper.disposed = true ∧ helper.acquired = []

theorem helper?_addHelper_self (w : World) (helper : Helper) :
    (w.addHelper helper).2.helper? ⟨w.helpers.length⟩ = some helper := by
  simp [addHelper, helper?]

theorem helper?_addHelper_of_ne {w : World} {k : HelperId} (hk : k ≠ ⟨w.helpers.length⟩)
    (helper : Helper) : (w.addHelper helper).2.helper? k = w.helper? k := by
  have hindex : k.index ≠ w.helpers.length := HelperId.index_ne hk
  unfold addHelper helper?
  rw [List.getElem?_append]
  split
  · rfl
  · next hle =>
      rw [List.getElem?_eq_none (by simp; omega), List.getElem?_eq_none (by omega)]

theorem Holds.retains {h : HelperId} {u v w : World} {es fs : Journal} (hh : Holds h u v es)
    (hr : Retains h v w fs) : Holds h u w (es ++ fs) := by
  obtain ⟨helper, hhelper, hdisposed, hacquired, hserves⟩ := hh.helper
  refine ⟨hh.made, ?_, ?_, helper.acquire (fs.acquiredBy h), ?_, hdisposed, ?_, ?_⟩
  · rw [hr.journal, hh.journal, List.append_assoc]
  · rw [Journal.releasedBy_append, hh.released, hr.released, List.append_nil]
  · rw [hr.helper, hhelper]
    rfl
  · rw [Journal.acquiredBy_append, ← hacquired]
    rfl
  · intro hnone
    have hfs : fs.acquiredBy h = [] := by
      refine Decidable.byContradiction fun hne => ?_
      obtain ⟨found, hfound, hfinds, _⟩ := hr.finds hne
      rw [hhelper] at hfound
      cases hfound
      exact Bool.false_ne_true (hnone.symm.trans hfinds)
    rw [Journal.acquiredBy_append, hserves hnone, hfs, List.append_nil]

/-- A helper made later has acquired nothing before. -/
theorem Retains.holds {h : HelperId} {u v w : World} {es fs : Journal} (hr : Retains h u v es)
    (hh : Holds h v w fs) : Holds h u w (es ++ fs) := by
  have hmade : u.helper? h = none := by
    have hnone := hh.made
    rw [hr.helper] at hnone
    exact Option.map_eq_none_iff.mp hnone
  have hes : es.acquiredBy h = [] := by
    refine Decidable.byContradiction fun hne => ?_
    obtain ⟨helper, hhelper, _⟩ := hr.finds hne
    rw [hmade] at hhelper
    cases hhelper
  have hacquired : (es ++ fs).acquiredBy h = fs.acquiredBy h := by
    rw [Journal.acquiredBy_append, hes, List.nil_append]
  refine ⟨hmade, ?_, ?_, ?_⟩
  · rw [hh.journal, hr.journal, List.append_assoc]
  · rw [Journal.releasedBy_append, hr.released, hh.released, List.append_nil]
  · rw [hacquired]
    exact hh.helper

/-- The first time, disposing of a helper gives back what it holds. -/
theorem dispose_eq {w : World} {h : HelperId} {helper : Helper}
    (hhelper : w.helper? h = some helper) (hdisposed : helper.disposed = false) :
    w.dispose h = { w with
      helpers := w.helpers.set h.index helper.dispose
      journal := w.journal ++
        if helper.serves then Journal.releases h helper.acquired w.releases else [] } := by
  unfold World.dispose
  simp only [hhelper, hdisposed, Bool.false_eq_true, if_false]
  split
  · rfl
  · rw [List.append_nil]
    rfl

theorem Holds.dispose {h : HelperId} {w v : World} {es : Journal} (hh : Holds h w v es) :
    GivenBack h w (v.dispose h) := by
  obtain ⟨helper, hhelper, hdisposed, hacquired, hserves⟩ := hh.helper
  obtain ⟨hlt, _⟩ := List.getElem?_eq_some_iff.mp hhelper
  rw [dispose_eq hhelper hdisposed]
  refine ⟨hh.made, ⟨es, hh.released, ?_⟩, helper.dispose, List.getElem?_set_self hlt, rfl, rfl⟩
  dsimp only
  rw [hh.journal, hacquired]
  split
  · rfl
  · next hnone =>
      -- What finds no services holds none.
      rw [hserves (by simpa using hnone)]
      rfl

/-- All that the journal says of it is then even: what was released is what was acquired, in one
order. -/
theorem GivenBack.even {h : HelperId} {w w' : World} (hg : GivenBack h w w') :
    ∃ es : Journal, w'.journal = w.journal ++ es ∧ es.releasedBy h = es.acquiredBy h := by
  obtain ⟨es, hreleased, hjournal⟩ := hg.journal
  refine ⟨es ++ Journal.releases h (es.acquiredBy h) w'.releases, ?_, ?_⟩
  · rw [hjournal, List.append_assoc]
  · rw [Journal.releasedBy_append, Journal.acquiredBy_append, hreleased]
    simp

/-- Disposing of a helper does not concern any other. -/
theorem retains_dispose {h k : HelperId} (hk : h ≠ k) (w : World) :
    ∃ es, Retains k w (w.dispose h) es := by
  cases hhelper : w.helper? h with
  | none =>
      refine ⟨[], ?_⟩
      unfold World.dispose
      rw [hhelper]
      exact Retains.refl k w
  | some helper =>
      cases hdisposed : helper.disposed with
      | true =>
          refine ⟨[], ?_⟩
          unfold World.dispose
          simp only [hhelper, hdisposed, if_true]
          exact Retains.refl k w
      | false =>
          rw [dispose_eq hhelper hdisposed]
          refine ⟨_, Retains.of_same (List.getElem?_set_ne (HelperId.index_ne hk)) rfl ?_ ?_⟩
          · split
            · exact Journal.releasedBy_releases_of_ne hk _ _
            · rfl
          · split
            · exact Journal.acquiredBy_releases h k _ _
            · rfl

/-! ## The helper of an execution -/

/-- What becomes of helpers when a part of an execution is over: the one that was made for it, if
any, has been disposed of, and no other gives anything back. -/
structure Settles (made : Option HelperId) (w w' : World) : Prop where
  own : ∀ h, made = some h → GivenBack h w w'
  others : ∀ h, made ≠ some h → ∃ es, Retains h w w' es

/-- The same while the execution goes on. -/
def Pending (made : Option HelperId) (w v : World) : Prop :=
  ∃ es, (∀ h, made = some h → Holds h w v es) ∧ ∀ h, made ≠ some h → Retains h w v es

theorem Advances.pending {w v : World} : w.Advances v → Pending none w v := by
  rintro ⟨es, hes⟩
  refine ⟨es, ?_, fun h _ => hes h⟩
  rintro h ⟨⟩

theorem pending_addHelper (w : World) {helper : Helper} (hacquired : helper.acquired = [])
    (hdisposed : helper.disposed = false) :
    Pending (some ⟨w.helpers.length⟩) w (w.addHelper helper).2 := by
  refine ⟨[], ?_, fun h hne => ?_⟩
  · rintro h ⟨⟩
    have hnone : w.helper? ⟨w.helpers.length⟩ = none := List.getElem?_eq_none (Nat.le_refl _)
    exact ⟨hnone, (List.append_nil _).symm, rfl, helper, helper?_addHelper_self w helper, hdisposed,
      hacquired, fun _ => rfl⟩
  · have hother : h ≠ ⟨w.helpers.length⟩ := fun heq => hne (by rw [heq])
    exact Retains.of_same (helper?_addHelper_of_ne hother helper) (List.append_nil _).symm rfl rfl

theorem Pending.advances {made : Option HelperId} {u v w : World} :
    Pending made u v → v.Advances w → Pending made u w := by
  rintro ⟨es, hmade, hothers⟩ ⟨fs, hfs⟩
  exact ⟨es ++ fs, fun h hh => (hmade h hh).retains (hfs h),
    fun h hh => (hothers h hh).trans (hfs h)⟩

theorem Advances.then {made : Option HelperId} {u v w : World} :
    u.Advances v → Pending made v w → Pending made u w := by
  rintro ⟨es, hes⟩ ⟨fs, hmade, hothers⟩
  exact ⟨es ++ fs, fun h hh => (hes h).holds (hmade h hh),
    fun h hh => (hes h).trans (hothers h hh)⟩

/-- **When its helper is disposed of, the handles of an execution are settled.** -/
theorem Pending.settles {made : Option HelperId} {w v : World} :
    Pending made w v → Settles made w (v.dispose? made) := by
  rintro ⟨es, hmade, hothers⟩
  cases made with
  | none =>
      refine ⟨?_, fun h hh => ⟨es, hothers h hh⟩⟩
      rintro h ⟨⟩
  | some h =>
      refine ⟨?_, fun k hk => ?_⟩
      · rintro k ⟨⟩
        exact (hmade h rfl).dispose
      · obtain ⟨fs, hfs⟩ := retains_dispose (fun heq : h = k => hk (by rw [heq])) v
        exact ⟨es ++ fs, (hothers k hk).trans hfs⟩

end World

end ScriptHost
