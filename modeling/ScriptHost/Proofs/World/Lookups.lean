import ScriptHost.Proofs.Service.Coherence
import ScriptHost.Proofs.Service.Order
import ScriptHost.Proofs.World.Handles

/-! # Two ways to a service

A helper looks services up in the cache, or it goes past the cache straight to the directory. Going
past the cache it holds what it finds. The cache may have asked long ago, but what it remembers is
up to date, so both ways lead to the same services in every state that a run comes to
(`World.lookups_agree`): in the interplay with a directory of any kind, and for the helpers of the
running program.

What the directory does in the course of a look-up, reports and nested look-ups included, are
moments of the run. As long as its services do not change meanwhile, they do not matter. -/

namespace ScriptHost

/-! ## In the interplay -/

/-- Whether a moment reports a change or ends a look-up in the cache. -/
def Moment.stirs : Moment → Bool
  | .change _ | .invalidate _ | .clear | .settle _ _ => true
  | .hit _ _ | .miss _ _ | .collect _ _ => false

namespace Interplay

variable {δ : Type} {answer : δ → Query → Answer}

/-- Only a change of the capability changes what the directory offers for a query. -/
theorem Step.offers_iff {s t : Interplay δ} {m : Moment} {q : Query} (hs : Step answer s m t)
    (h : m ≠ .change q.capability) (found : List Service) :
    Offers answer t.directory q found ↔ Offers answer s.directory q found := by
  cases hs with
  | change hd => exact hd q (fun heq => h (congrArg Moment.change heq.symm)) found
  | invalidate _ => rfl
  | clear => rfl
  | hit _ => rfl
  | miss _ _ => rfl
  | collect _ _ => rfl
  | settle _ => rfl

theorem Run.offers_iff {s t : Interplay δ} {ms : List Moment} {q : Query} (hr : Run answer s ms t)
    (h : .change q.capability ∉ ms) (found : List Service) :
    Offers answer t.directory q found ↔ Offers answer s.directory q found := by
  induction hr with
  | nil => rfl
  | snoc _ hstep ih =>
      rw [List.mem_append, List.mem_singleton, not_or] at h
      exact (hstep.offers_iff (Ne.symm h.2) found).trans (ih h.1)

theorem Step.cache_eq {s t : Interplay δ} {m : Moment} (hs : Step answer s m t)
    (h : m.stirs = false) : t.cache = s.cache := by
  cases hs with
  | hit _ => rfl
  | miss _ _ => rfl
  | collect _ _ => rfl
  | change _ => cases h
  | invalidate _ => cases h
  | clear => cases h
  | settle _ => cases h

/-- **The cache is left as it is as long as nothing is reported and no look-up in it ends.** -/
theorem Run.cache_eq {s t : Interplay δ} {ms : List Moment} (hr : Run answer s ms t)
    (h : ∀ m ∈ ms, m.stirs = false) : t.cache = s.cache := by
  induction hr with
  | nil => rfl
  | @snoc t u ms m _ hstep ih =>
      rw [hstep.cache_eq (h m (by simp))]
      exact ih fun m hm => h m (List.mem_append_left _ hm)

variable (answer) in
/-- A look-up in the cache, with the services it returns: a hit, or a call that does not fail and
in whose course the capability does not change. -/
inductive Returns (q : Query) (s : Interplay δ) (found : List Service) (t : Interplay δ) : Prop
    where
  | hit : Step answer s (.hit q found) t → Returns q s found t
  | miss {number : Nat} {ms : List Moment} :
      Call answer number q s ms found t → .change q.capability ∉ ms →
      (∀ e, .collect number (.error e) ∉ ms) → Returns q s found t

variable (answer) in
/-- A look-up past the cache, with the directory's answer: at some moment in its course the
directory collects it. -/
inductive Direct (q : Query) (s : Interplay δ) : List Moment → Answer → Interplay δ → Prop
    where
  | mk {u t : Interplay δ} {ms ns : List Moment} :
      Run answer s ms u → Run answer u ns t → Direct q s (ms ++ ns) (answer u.directory q) t

theorem Call.offers {s t : Interplay δ} {number : Nat} {q : Query} {ms : List Moment}
    {found : List Service} (hc : Call answer number q s ms found t) (hs : Sound answer s)
    (hch : .change q.capability ∉ ms) (hfail : ∀ e, .collect number (.error e) ∉ ms) :
    Offers answer s.directory q found := by
  obtain ⟨s₁, s₂, epoch, a, hmiss, _, hr, ha, hok, _, rfl, _⟩ := hc.holding
  have hs₂ : Sound answer s₂ := hr.sound (hmiss.sound hs)
  rw [← hmiss.offers_iff (q := q) (by simp), ← hr.offers_iff hch]
  cases a with
  | error e => exact absurd ((ha _).mpr rfl) (hfail e)
  | ok services =>
      rw [ServiceCache.settle_ok_fst]
      -- What a nested look-up has stored is up to date as well.
      cases hknown : s₂.cache.entries.get? q with
      | some known => exact hs₂.stored q known hknown
      | none => exact hok services rfl hch

theorem Returns.offers {s t : Interplay δ} {q : Query} {found : List Service}
    (h : Returns answer q s found t) (hs : Sound answer s) :
    Offers answer s.directory q found := by
  cases h with
  | hit hstep =>
      cases hstep with
      | hit hhit => exact hs.stored q found (ServiceCache.remembered_eq_inl_iff.mp hhit)
  | miss hc hch hfail => exact hc.offers hs hch hfail

/-- What is collected past the cache is what was on offer at first. -/
theorem Direct.offers_iff {s t : Interplay δ} {q : Query} {ms : List Moment} {a : Answer}
    (h : Direct answer q s ms a t) (hch : .change q.capability ∉ ms) (found : List Service) :
    Offers answer s.directory q found ↔
      ∃ services, a = .ok services ∧ Service.Arranged q.capability services found := by
  cases h with
  | mk hbefore _ =>
      exact (hbefore.offers_iff (fun hmem => hch (List.mem_append_left _ hmem)) found).symm

theorem lookups_setLookup_of_le {s : Interplay δ} {bound : Nat}
    (h : ∀ number, bound ≤ number → s.lookups number = none) (k : Nat) (l : Option Lookup) :
    ∀ number, max bound (k + 1) ≤ number → (s.setLookup k l).lookups number = none := by
  intro number hnumber
  rw [setLookup_of_ne s (by omega)]
  exact h number (by omega)

/-- Only finitely many look-ups are under way. -/
theorem Run.exists_bound {d : δ} {s : Interplay δ} {ms : List Moment}
    (hr : Run answer (start d) ms s) :
    ∃ bound, ∀ number, bound ≤ number → s.lookups number = none := by
  induction hr with
  | nil => exact ⟨0, fun _ _ => rfl⟩
  | snoc _ hstep ih =>
      obtain ⟨bound, hbound⟩ := ih
      cases hstep with
      | change _ => exact ⟨bound, hbound⟩
      | invalidate _ => exact ⟨bound, hbound⟩
      | clear => exact ⟨bound, hbound⟩
      | hit _ => exact ⟨bound, hbound⟩
      | miss _ _ => exact ⟨_, lookups_setLookup_of_le hbound _ _⟩
      | collect _ _ => exact ⟨_, lookups_setLookup_of_le hbound _ _⟩
      | settle _ => exact ⟨_, lookups_setLookup_of_le hbound _ none⟩

/-- Where the directory answers, a look-up in the cache can be made. -/
theorem exists_returns {s : Interplay δ} {q : Query} {services : List Service} {number : Nat}
    (hfree : s.lookups number = none) (h : answer s.directory q = .ok services) :
    ∃ found t, Returns answer q s found t := by
  cases hr : s.cache.remembered q with
  | inl found => exact ⟨found, s, .hit (.hit hr)⟩
  | inr epoch =>
      have hcollect := Run.single (@Step.collect _ answer _ _ _ _ _
        (setLookup_self s number (some ⟨q, epoch, none⟩)) (.inl h.symm))
      exact ⟨_, _, .miss (.mk (.miss hfree hr) hcollect (by simp)
        (.settle (setLookup_self _ number _))) (by simp) (by simp)⟩

end Interplay

/-! ## What a helper finds -/

/-- What a helper hands out of a directory's answer, and the helper thereafter. -/
def Helper.find (helper : Helper) (q : Query) (a : Answer) : List Service × Helper :=
  if helper.serves && !helper.disposed then
    match a with
    | .error _ => ([], helper)
    | .ok services =>
      let found := Service.ordered q.capability services
      (found, helper.acquire (found.map Service.id))
  else ([], helper)

theorem Helper.find_ok {helper : Helper} (hserves : helper.serves = true)
    (hdisposed : helper.disposed = false) (q : Query) (services : List Service) :
    helper.find q (.ok services) = (Service.ordered q.capability services,
      helper.acquire ((Service.ordered q.capability services).map Service.id)) := by
  simp [find, hserves, hdisposed]

namespace Interplay

variable {δ : Type} {answer : δ → Query → Answer}

variable (answer) in
/-- How the look-ups that begin in `s` go together, where the directory answers with `services`. -/
structure Agrees (s : Interplay δ) (q : Query) (services : List Service) : Prop where
  returns : ∃ found t, Returns answer q s found t
  arranged : ∀ found t, Returns answer q s found t → Service.Arranged q.capability services found
  /-- Past the cache a helper finds what the cache returns, and holds just that. -/
  same : ∀ found t ms a u, Returns answer q s found t → Direct answer q s ms a u →
    .change q.capability ∉ ms →
    ∀ helper : Helper, helper.serves = true → helper.disposed = false →
      helper.find q a = (found, helper.acquire (found.map Service.id))
  untouched : ∀ ms a u, Direct answer q s ms a u → (∀ m ∈ ms, m.stirs = false) →
    u.cache = s.cache

theorem Direct.cache_eq {s t : Interplay δ} {q : Query} {ms : List Moment} {a : Answer}
    (h : Direct answer q s ms a t) (hms : ∀ m ∈ ms, m.stirs = false) : t.cache = s.cache := by
  cases h with
  | mk hbefore hafter => exact (hbefore.append hafter).cache_eq hms

theorem agrees_of_run {d : δ} {ms : List Moment} {s : Interplay δ} {q : Query}
    {services : List Service} (hr : Run answer (start d) ms s)
    (h : answer s.directory q = .ok services) : Agrees answer s q services := by
  have hs : Sound answer s := hr.sound (sound_start d)
  have hfound : ∀ {found t}, Returns answer q s found t →
      found = Service.ordered q.capability services := by
    intro found t hreturns
    exact (offers_iff_of_answer h).mp (hreturns.offers hs)
  refine ⟨?_, ?_, ?_, fun ms a u hd hms => hd.cache_eq hms⟩
  · obtain ⟨bound, hfree⟩ := hr.exists_bound
    exact exists_returns (hfree bound (Nat.le_refl bound)) h
  · intro found t hreturns
    exact Service.arranged_iff.mpr (hfound hreturns)
  · intro found t ns a u hreturns hdirect hch helper hserves hdisposed
    -- What strays the directory has collected since does not show once its answer is in order.
    obtain ⟨collected, rfl, harranged⟩ := (hdirect.offers_iff hch found).mp (hreturns.offers hs)
    rw [Helper.find_ok hserves hdisposed, ← Service.arranged_iff.mp harranged]

end Interplay

/-! ## In the running program -/

namespace Services

open Interplay

/-- The first service of a capability in the cache. -/
def first? (s : Services) (capability : Capability) : Option Service × Services :=
  let (found, s) := s.references ⟨capability, none⟩
  (found.head?, s)

theorem listings_referencesOnce (s : Services) (q : Query) :
    (s.referencesOnce q).2.directory.listings = s.directory.listings := by
  unfold referencesOnce
  split
  · rfl
  · exact (s.ask_spec q).2.1

/-- Whatever the directory does in the course of a look-up, it hands out the answer it collected,
and its services stay. -/
theorem lookup_spec (s : Services) (q : Query) :
    (s.lookup q).1 = s.directory.answer q ∧
      (s.lookup q).2.directory.listings = s.directory.listings := by
  obtain ⟨hanswer, hlistings, _⟩ := s.ask_spec q
  obtain ⟨hfirst, hsame | ⟨-, hnext⟩⟩ := s.lookup_cases q
  · rw [hfirst, hsame]
    exact ⟨hanswer, hlistings⟩
  · rw [hfirst, hnext, listings_referencesOnce]
    exact ⟨hanswer, hlistings⟩

/-- A directory that neither reports a change nor asks back leaves the cache alone. -/
theorem cache_lookup_of_quiet {s : Services} (hracing : s.directory.racing = false)
    (hreentering : s.directory.reentering = false) (q : Query) :
    (s.lookup q).2.cache = s.cache := by
  have hask : (s.ask q).2.cache = s.cache ∧ (s.ask q).2.directory.reentering = false := by
    unfold ask
    dsimp only
    split
    · exact ⟨rfl, hreentering⟩
    · rw [hracing]
      exact ⟨rfl, hreentering⟩
  obtain ⟨-, hsame | ⟨hreenters, -⟩⟩ := s.lookup_cases q
  · rw [hsame]
    exact hask.1
  · rw [hask.2] at hreenters
    cases hreenters

/-- A directory that answers does not fail. -/
theorem offers_listed_iff {s : Services} {q : Query} {services found : List Service}
    (h : s.directory.answer q = .ok services) :
    Offers listed s.directory.listings q found ↔
      found = Service.ordered q.capability services := by
  refine offers_iff_of_answer ?_
  cases hfailing : s.directory.failing with
  | true => simp [Directory.answer, hfailing] at h
  | false => simpa [listed, Directory.answer, hfailing] using h

/-- **Where the directory answers, the cache returns its present answer in order**, be it a hit or a
miss. -/
theorem Reported.references_eq {s : Services} (hs : s.Reported) {q : Query}
    {services : List Service} (h : s.directory.answer q = .ok services) :
    (s.references q).1 = Service.ordered q.capability services := by
  unfold Services.references
  cases hr : s.cache.remembered q with
  | inl found =>
      exact (offers_listed_iff h).mp (hs.stored (ServiceCache.remembered_eq_inl_iff.mp hr))
  | inr epoch =>
      obtain ⟨hanswer, hlistings⟩ := s.lookup_spec q
      dsimp only
      rw [hanswer, h, ServiceCache.settle_ok_fst]
      -- If the directory asks back, its own look-up may have stored the answer first.
      cases hknown : (s.lookup q).2.cache.entries.get? q with
      | none => rfl
      | some known =>
          have hstored := (hs.lookup q).stored hknown
          rw [hlistings] at hstored
          exact (offers_listed_iff h).mp hstored

end Services

namespace World

theorem services_call (w : World) (on : Writer) (c : OutputCall) :
    (w.call on c).services = w.services := by
  cases on <;> rfl

theorem services_write (w : World) (around : Surroundings) (target : Writer) (text : Bytes) :
    (w.write around target text).2.services = w.services := by
  unfold World.write
  cases text.isEmpty with
  | true => rfl
  | false => exact services_call _ target _

theorem services_flush (w : World) (around : Surroundings) (on : Writer) :
    (w.flush around on).2.services = w.services :=
  services_call _ on _

theorem services_readText (w : World) (r : Reader) : (w.readText r).2.services = w.services := by
  unfold readText leave
  cases Text.decode? (w.remaining r) with
  | none => rfl
  | some text => cases r <;> rfl

/-- The services of a world have come about with every change reported. -/
def Reported (w : World) : Prop :=
  ∀ s, w.services = some s → s.Reported

namespace Reported

theorem of_services {w v : World} (hw : w.Reported) (h : v.services = w.services) : v.Reported :=
  fun s hs => hw s (h.symm.trans hs)

theorem acquire {w : World} (hw : w.Reported) (h : HelperId) (q : Query) :
    (w.acquire h q).2.Reported := by
  unfold World.acquire
  split
  · next helper services _ hservices =>
      have hlookup : (services.lookup q).2.Reported := (hw services hservices).lookup q
      split
      · rcases ha : services.lookup q with ⟨_ | found, services'⟩ <;> rw [ha] at hlookup
        · rintro s ⟨⟩
          exact hlookup
        · rintro s ⟨⟩
          exact hlookup
      · exact hw
  · exact hw

theorem service? {w : World} (hw : w.Reported) (h : HelperId) (capability : Capability) :
    (w.service? h capability).2.Reported := by
  unfold World.service?
  split
  · next helper services _ hservices =>
      split
      · rintro s ⟨⟩
        exact (hw services hservices).references _
      · exact hw
  · exact hw

/-- **In a session every change stays reported.** -/
theorem run {α : Type} {w : World} (hw : w.Reported) (around : Surroundings)
    (session : Session α) : (World.run around session w).2.Reported := by
  induction session generalizing w with
  | done result => exact hw
  | write target text next ih => exact ih _ (hw.of_services (w.services_write around target text))
  | flush on next ih => exact ih _ (hw.of_services (w.services_flush around on))
  | readText r next ih => exact ih _ (hw.of_services (w.services_readText r))
  | acquire helper q next ih => exact ih _ (hw.acquire helper q)

/-- **Whatever a provider does, every change stays reported.** -/
theorem provision {s : Workplace} (hs : s.world.Reported) (p : Provision) :
    (p.run s).2.world.Reported := by
  induction p generalizing s with
  | done => exact hs
  | fail e => exact hs
  | read next ih => exact ih s.bindings hs
  | put name value next ih =>
      unfold Provision.run
      cases s.bindings.put name value with
      | ok r => exact ih (.ok r.1) hs
      | error e => exact ih (.error e) hs
  | putAll values next ih =>
      unfold Provision.run
      cases s.bindings.putAll values with
      | ok bindings => exact ih (.ok ()) hs
      | error e => exact ih (.error e) hs
  | take name next ih =>
      unfold Provision.run
      cases s.bindings.take name with
      | ok r => exact ih (.ok r.1) hs
      | error e => exact ih (.error e) hs
  | acquire helper q next ih => exact ih _ (hs.acquire helper q)
  | pause n next ih => exact ih hs

end Reported

/-- A helper asks the directory itself, and what it finds is all that changes besides. -/
theorem acquire_spec {w : World} {h : HelperId} {helper : Helper} {s : Services}
    (hhelper : w.helper? h = some helper) (hservices : w.services = some s)
    (hserves : helper.serves = true) (hdisposed : helper.disposed = false) (q : Query) :
    (w.acquire h q).1 = (helper.find q (s.lookup q).1).1 ∧
      (w.acquire h q).2.helpers = w.helpers.set h.index (helper.find q (s.lookup q).1).2 ∧
      (w.acquire h q).2.services = some (s.lookup q).2 := by
  obtain ⟨hlt, hget⟩ := List.getElem?_eq_some_iff.mp hhelper
  have hfinds : (helper.serves && !helper.disposed) = true := by rw [hserves, hdisposed]; rfl
  unfold acquire Helper.find
  simp only [hhelper, hservices, hfinds, if_true]
  cases (s.lookup q).1 with
  | error e => exact ⟨rfl, by rw [← hget, List.set_getElem_self], rfl⟩
  | ok services => exact ⟨rfl, rfl, rfl⟩

theorem service?_spec {w : World} {h : HelperId} {helper : Helper} {s : Services}
    (hhelper : w.helper? h = some helper) (hservices : w.services = some s)
    (hserves : helper.serves = true) (capability : Capability) :
    w.service? h capability =
      ((s.first? capability).1, { w with services := some (s.first? capability).2 }) := by
  simp [service?, Services.first?, hhelper, hservices, hserves]

/-- How the look-ups of a helper go together where the directory answers with `services`. -/
structure Agrees (w : World) (h : HelperId) (helper : Helper) (s : Services) (q : Query)
    (services : List Service) : Prop where
  /-- The helper finds what the cache returns, be that a hit or a miss. -/
  same : (w.acquire h q).1 = (s.references q).1
  arranged : Service.Arranged q.capability services (w.acquire h q).1
  first : q.filter = none → (w.service? h q.capability).1 = (w.acquire h q).1.head? ∧
    (s.first? q.capability).1 = (w.acquire h q).1.head?
  nothing : q.filter = none → ((w.service? h q.capability).1 = none ↔ (w.acquire h q).1 = [])
  /-- It holds just what it found, in that order, and no other helper is concerned. -/
  held : (w.acquire h q).2.helper? h =
    some (helper.acquire ((w.acquire h q).1.map Service.id))
  others : ∀ k, k ≠ h → (w.acquire h q).2.helper? k = w.helper? k
  untouched : s.directory.racing = false → s.directory.reentering = false →
    (w.acquire h q).2.services.map Services.cache = some s.cache
  reported : (w.acquire h q).2.Reported ∧ (w.service? h q.capability).2.Reported

/-- **Straight from the directory a helper finds what the cache returns**, after any run over a
directory that reports its changes, whether it is a directory of any kind or that of the running
program. -/
theorem lookups_agree :
    (∀ {δ : Type} {answer : δ → Query → Answer} {d : δ} {ms : List Moment}
      {s : Interplay δ} {q : Query} {services : List Service},
      Interplay.Run answer (Interplay.start d) ms s → answer s.directory q = .ok services →
      Interplay.Agrees answer s q services) ∧
    ∀ {w : World} {h : HelperId} {helper : Helper} {s : Services} {q : Query}
      {services : List Service},
      w.helper? h = some helper → helper.serves = true → helper.disposed = false →
      w.services = some s → w.Reported → s.directory.answer q = .ok services →
      Agrees w h helper s q services := by
  refine ⟨Interplay.agrees_of_run, ?_⟩
  intro w h helper s q services hhelper hserves hdisposed hservices hw hanswer
  have hreferences := (hw s hservices).references_eq hanswer
  obtain ⟨hfound, hhelpers, hnext⟩ := acquire_spec hhelper hservices hserves hdisposed q
  rw [(s.lookup_spec q).1, hanswer, Helper.find_ok hserves hdisposed] at hfound hhelpers
  have hfirst : q.filter = none → (s.first? q.capability).1 = (w.acquire h q).1.head? := by
    intro hfilter
    have hq : (⟨q.capability, none⟩ : Query) = q := by rw [← hfilter]
    unfold Services.first?
    rw [hq, hfound, ← hreferences]
  have hservice : q.filter = none →
      (w.service? h q.capability).1 = (w.acquire h q).1.head? := by
    intro hfilter
    rw [service?_spec hhelper hservices hserves]
    exact hfirst hfilter
  refine ⟨hfound.trans hreferences.symm, Service.arranged_iff.mpr hfound,
    fun hfilter => ⟨hservice hfilter, hfirst hfilter⟩, ?_, ?_, ?_, ?_,
    hw.acquire h q, hw.service? h q.capability⟩
  · intro hfilter
    rw [hservice hfilter, List.head?_eq_none_iff]
  · obtain ⟨hlt, _⟩ := List.getElem?_eq_some_iff.mp hhelper
    unfold helper?
    rw [hhelpers, hfound]
    exact List.getElem?_set_self hlt
  · intro k hk
    unfold helper?
    rw [hhelpers]
    exact List.getElem?_set_ne (HelperId.index_ne (Ne.symm hk))
  · intro hracing hreentering
    rw [hnext, Option.map_some, Services.cache_lookup_of_quiet hracing hreentering]

/-- A stray of another capability, and services of one ranking, two of which share their number.
The answer is in the cache, from a look-up in which the directory asked back, and the directory
now reports a change and asks back again. -/
theorem lookups_agree_level :
    let q : Query := ⟨⟨"jobs"⟩, none⟩
    let low : Service := ⟨1, 0, ⟨"jobs"⟩, "low"⟩
    let late : Service := ⟨4, 5, ⟨"jobs"⟩, "late"⟩
    let first : Service := ⟨2, 5, ⟨"jobs"⟩, "first"⟩
    let again : Service := ⟨2, 5, ⟨"jobs"⟩, "again"⟩
    let stray : Service := ⟨3, 9, ⟨"mail"⟩, "stray"⟩
    let answered := [low, late, first, stray, again]
    let ordered := [first, again, late, low]
    let listings : List Listing := [⟨low, none, false⟩, ⟨late, none, false⟩,
      ⟨first, none, false⟩, ⟨stray, none, true⟩, ⟨again, none, false⟩]
    let fresh : Services := { directory := { listings, reentering := true } }
    let asked : Services := (fresh.references q).2
    let s : Services :=
      { asked with directory := { asked.directory with racing := true, reentering := true } }
    let helper : Helper :=
      ⟨⟨"q"⟩, ⟨"p"⟩, ⟨"r"⟩, ⟨"t"⟩, ⟨"/s.x", "x"⟩, true, [7], none, false⟩
    let w : World := { helpers := [helper], services := some s }
    (∃ ms t, Interplay.Run Interplay.everything (Interplay.start answered) ms t ∧
      t.cache.entries.get? q = some ordered ∧
      Interplay.Agrees Interplay.everything t q answered) ∧
    (s.cache.entries.get? q = some ordered ∧ (w.acquire ⟨0⟩ q).1 = ordered ∧
      Agrees w ⟨0⟩ helper s q answered) := by
  intro q low late first again stray answered ordered listings fresh asked s helper w
  refine ⟨?_, by cbv, by cbv, ?_⟩
  · have hmiss : Interplay.Step Interplay.everything (Interplay.start answered) (.miss 0 q) _ :=
      @Interplay.Step.miss _ Interplay.everything _ _ _ 0 rfl rfl
    have hr := ((Interplay.Run.single hmiss).snoc
      (.collect (Interplay.setLookup_self (Interplay.start answered) 0 _) (.inl rfl))).snoc
      (.settle (Interplay.setLookup_self _ 0 _))
    exact ⟨_, _, hr, by cbv, lookups_agree.1 hr rfl⟩
  · have hs : s.Reported := 
      .behave false true true (.references q (.behave false false true (.start listings)))
    have hw : w.Reported := by
      rintro s' ⟨⟩
      exact hs
    exact lookups_agree.2 rfl rfl rfl rfl hw (by cbv)

end World

end ScriptHost
