import Mathlib
import ScriptHost.Proofs.Service.Interplay
import ScriptHost.Service.Directory

/-! # The cache agrees with the directory

Whatever happens between the steps of a look-up, what the cache stores is what the directory answers
at present, and a look-up during which its capability does not change returns just that. The
directory in memory with the cache over it is an interplay of this kind: `Services.references_call`
takes its look-ups apart into moments, the reports and the nested look-ups included. -/

namespace ScriptHost

namespace Interplay

variable {δ : Type} {answer : δ → Query → Answer}

/-! ## One look-up from its miss to its end -/

variable (answer) in
/-- A look-up from the moment in which it misses, with all that happens until it ends. -/
inductive Call (number : Nat) (q : Query) :
    Interplay δ → List Moment → List Service → Interplay δ → Prop where
  | mk {s s₁ s₂ t : Interplay δ} {ms : List Moment} {found : List Service} :
      Step answer s (.miss number q) s₁ → Run answer s₁ ms s₂ →
      (∀ other, .settle number other ∉ ms) → Step answer s₂ (.settle number found) t →
      Call number q s ms found t

variable (answer) in
/-- How far a look-up has come after the moments `ms`: it waits for the directory, or it holds the
one answer that was collected, and that answer is up to date unless the capability has changed. -/
inductive Progress (number : Nat) (q : Query) (ms : List Moment) (s : Interplay δ) : Prop where
  | waiting (epoch : Nat) :
      s.lookups number = some ⟨q, epoch, none⟩ → (∀ a, .collect number a ∉ ms) →
      Progress number q ms s
  | holding (epoch : Nat) (a : Answer) :
      s.lookups number = some ⟨q, epoch, some a⟩ →
      (∀ b, .collect number b ∈ ms ↔ b = a) →
      (∀ services, a = .ok services → .change q.capability ∉ ms →
        Offers answer s.directory q (Service.ordered q.capability services)) →
      Progress number q ms s

/-- A moment that leaves a look-up alone, and is no change of its capability unless one is in
`ms` already, leaves its progress as it is. -/
theorem Progress.keep {number : Nat} {q : Query} {ms : List Moment} {s t : Interplay δ} {m : Moment}
    (h : Progress answer number q ms s) (hl : t.lookups number = s.lookups number)
    (hm : ∀ a, m ≠ .collect number a)
    (hsame : m ≠ .change q.capability → ∀ found,
      Offers answer t.directory q found ↔ Offers answer s.directory q found) :
    Progress answer number q (ms ++ [m]) t := by
  have hmem : ∀ a, .collect number a ∈ ms ++ [m] ↔ .collect number a ∈ ms := by
    intro a
    rw [List.mem_append, List.mem_singleton, or_iff_left (Ne.symm (hm a))]
  cases h with
  | waiting epoch hw hc =>
      refine .waiting epoch (hl.trans hw) ?_
      intro a
      rw [hmem]
      exact hc a
  | holding epoch a hw hc hok =>
      refine .holding epoch a (hl.trans hw) (fun b => (hmem b).trans (hc b)) ?_
      intro services ha hch
      rw [List.mem_append, List.mem_singleton, not_or] at hch
      exact (hsame (Ne.symm hch.2) _).mpr (hok services ha hch.1)

/-- **Until it ends, a look-up waits or holds one answer.** -/
theorem Step.progress {number : Nat} {q : Query} {ms : List Moment} {s t : Interplay δ} {m : Moment}
    (hs : Step answer s m t) (h : Progress answer number q ms s)
    (hend : ∀ found, m ≠ .settle number found) : Progress answer number q (ms ++ [m]) t := by
  cases hs with
  | @change capability d hd =>
      refine h.keep rfl (fun a => by simp) ?_
      intro hne
      exact hd q fun heq => hne (congrArg Moment.change heq.symm)
  | invalidate capability => exact h.keep rfl (fun a => by simp) (fun _ _ => Iff.rfl)
  | clear => exact h.keep rfl (fun a => by simp) (fun _ _ => Iff.rfl)
  | hit _ => exact h.keep rfl (fun a => by simp) (fun _ _ => Iff.rfl)
  | @miss k q' epoch hfree _ =>
      -- A number that is under way is not free, so the miss is another look-up's.
      have hk : number ≠ k := by
        rintro rfl
        cases h with
        | waiting e hw _ => rw [hfree] at hw; cases hw
        | holding e a hw _ _ => rw [hfree] at hw; cases hw
      exact h.keep (setLookup_of_ne s hk _) (fun a => by simp) (fun _ _ => Iff.rfl)
  | @collect k q' epoch a hl ha =>
      by_cases hk : number = k
      · subst hk
        cases h with
        -- Who holds an answer is not asked again.
        | holding e b hw _ _ => rw [hl] at hw; cases hw
        | waiting e hw hc =>
            rw [hl] at hw
            cases hw
            refine .holding epoch a (setLookup_self s number _) ?_ ?_
            · intro b
              rw [List.mem_append, or_iff_right (hc b), List.mem_singleton]
              simp
            · intro services hok _
              rcases ha with ha | ⟨e, ha⟩
              · exact offers_ordered (ha.symm.trans hok)
              · rw [hok] at ha
                cases ha
      · refine h.keep (setLookup_of_ne s hk _) ?_ (fun _ _ => Iff.rfl)
        intro b heq
        cases heq
        exact hk rfl
  | @settle k q' epoch a hl =>
      have hk : number ≠ k := fun heq => hend _ (by rw [heq])
      exact h.keep (setLookup_of_ne s hk _) (fun a => by simp) (fun _ _ => Iff.rfl)

theorem Run.progress {number : Nat} {q : Query} {ms ns : List Moment} {s t : Interplay δ}
    (hr : Run answer s ns t) (h : Progress answer number q ms s)
    (hend : ∀ found, .settle number found ∉ ns) : Progress answer number q (ms ++ ns) t := by
  induction hr with
  | nil => simpa using h
  | @snoc t u ns m _ hstep ih =>
      rw [← List.append_assoc]
      have hns : ∀ found, .settle number found ∉ ns :=
        fun found hmem => hend found (List.mem_append_left _ hmem)
      refine hstep.progress (ih hns) ?_
      rintro found rfl
      exact hend found (by simp)

/-! ## Coherence -/

variable (answer) in
/-- What callers and the directory can rely on when a run has come to `s`. -/
structure Coherent (s : Interplay δ) : Prop where
  /-- What is stored is the directory's present answer, in order. -/
  stored : ∀ q found, s.cache.entries.get? q = some found → Offers answer s.directory q found
  hit : ∀ q found t, Step answer s (.hit q found) t → Offers answer t.directory q found
  /-- A look-up asks the directory once. -/
  asked : ∀ number q ms found t, Call answer number q s ms found t →
    ∃ a, ∀ b, .collect number b ∈ ms ↔ b = a
  /-- If its capability does not change meanwhile, it returns the directory's present answer. -/
  returned : ∀ number q ms found t, Call answer number q s ms found t →
    .change q.capability ∉ ms → (∀ e, .collect number (.error e) ∉ ms) →
    Offers answer t.directory q found
  /-- If the directory fails, it returns nothing, and its end leaves the cache as it is. -/
  failed : ∀ number q ms found t e, Call answer number q s ms found t →
    .collect number (.error e) ∈ ms →
    found = [] ∧ ∃ s₁ s₂, Step answer s (.miss number q) s₁ ∧ s₁.cache = s.cache ∧
      Run answer s₁ ms s₂ ∧ t.cache = s₂.cache

/-- A look-up ends with the answer that it holds. -/
theorem Call.holding {s t : Interplay δ} {number : Nat} {q : Query} {ms : List Moment}
    {found : List Service} (h : Call answer number q s ms found t) :
    ∃ s₁ s₂ epoch a, Step answer s (.miss number q) s₁ ∧ s₁.cache = s.cache ∧
      Run answer s₁ ms s₂ ∧ (∀ b, .collect number b ∈ ms ↔ b = a) ∧
      (∀ services, a = .ok services → .change q.capability ∉ ms →
        Offers answer s₂.directory q (Service.ordered q.capability services)) ∧
      t.directory = s₂.directory ∧ found = (s₂.cache.settle q epoch a).1 ∧
      t.cache = (s₂.cache.settle q epoch a).2 := by
  cases h with
  | @mk s₁ s₂ _ _ _ hmiss hr hend hsettle =>
      have hstart : Progress answer number q [] s₁ ∧ s₁.cache = s.cache := by
        cases hmiss with
        | miss _ _ => exact ⟨.waiting _ (setLookup_self s number _) (by simp), rfl⟩
      have hp : Progress answer number q ms s₂ := hr.progress hstart.1 hend
      cases hsettle with
      | @settle _ q' epoch a hl =>
          cases hp with
          | waiting e hw _ => rw [hl] at hw; cases hw
          | holding e b hw hc hok =>
              rw [hl] at hw
              cases hw
              exact ⟨s₁, s₂, epoch, a, hmiss, hstart.2, hr, hc, hok, rfl, rfl, rfl⟩

/-- **In every run the cache agrees with the directory**, however look-ups, changes, reports and
nested look-ups follow each other. -/
theorem coherent {d : δ} {ms : List Moment} {s : Interplay δ} (h : Run answer (start d) ms s) :
    Coherent answer s where
  stored := (h.sound (sound_start d)).stored
  hit := by
    intro q found t hs
    cases hs with
    | hit hhit =>
        rw [ServiceCache.remembered_eq_inl_iff] at hhit
        exact (h.sound (sound_start d)).stored q found hhit
  asked := by
    intro number q ns found t hc
    obtain ⟨_, _, _, a, _, _, _, ha, _⟩ := hc.holding
    exact ⟨a, ha⟩
  returned := by
    intro number q ns found t hc hch hfail
    obtain ⟨s₁, s₂, epoch, a, hmiss, _, hr, ha, hok, hd, rfl, _⟩ := hc.holding
    have hs₂ : Sound answer s₂ := hr.sound (hmiss.sound (h.sound (sound_start d)))
    rw [hd]
    cases a with
    | error e => exact absurd ((ha _).mpr rfl) (hfail e)
    | ok services =>
        rw [ServiceCache.settle_ok_fst]
        -- Another look-up may have stored its answer meanwhile; then that one is returned.
        cases hk : s₂.cache.entries.get? q with
        | some known => exact hs₂.stored q known hk
        | none => exact hok services rfl hch
  failed := by
    intro number q ns found t e hc hmem
    obtain ⟨s₁, s₂, epoch, a, hmiss, hcache, hr, ha, _, _, rfl, ht⟩ := hc.holding
    cases (ha _).mp hmem
    exact ⟨rfl, s₁, s₂, hmiss, hcache, hr, ht⟩

/-- A directory of services that answers every query with all of them. -/
def everything (services : List Service) (_ : Query) : Answer := .ok services

/-- While a look-up holds its answer a service is added, and a nested look-up stores what there is
now. The outer one ends with that, and so does a later one; its own answer is out of date. The
directory lists a stray first, and the other services the wrong way round. -/
theorem coherent_after_lookup :
    let q : Query := ⟨⟨"jobs"⟩, none⟩
    let stray : Service := ⟨9, 9, ⟨"mail"⟩, "stray"⟩
    let low : Service := ⟨1, 0, ⟨"jobs"⟩, "low"⟩
    let high : Service := ⟨3, 5, ⟨"jobs"⟩, "high"⟩
    let level : Service := ⟨2, 5, ⟨"jobs"⟩, "level"⟩
    let before := [stray, low, high]
    let after := before ++ [level]
    let ordered := [level, high, low]
    ∃ s, Run everything (start before) [.miss 0 q, .collect 0 (.ok before), .change ⟨"jobs"⟩,
        .miss 1 q, .collect 1 (.ok after), .settle 1 ordered, .settle 0 ordered, .hit q ordered]
        s ∧
      s.cache.entries.get? q = some ordered ∧ Coherent everything s := by
  intro q stray low high level before after ordered
  have hdiffers : DiffersIn everything ⟨"jobs"⟩ before after := by
    intro k hk found
    have hsame : (after.filter fun s => s.capability = k.capability) =
        before.filter fun s => s.capability = k.capability := by
      show (before ++ [level]).filter _ = _
      rw [List.filter_append]
      simp [level, Ne.symm hk]
    simpa [Offers, everything] using Service.arranged_congr hsame
  have hheld := (Run.single (@Step.miss _ everything (start before) 0 q 0 rfl rfl)).snoc
    (.collect (setLookup_self _ 0 _) (.inl rfl))
  have hnested := (((hheld.snoc (.change hdiffers)).snoc
    (@Step.miss _ everything _ 1 q 1 rfl rfl)).snoc
    (.collect (setLookup_self _ 1 _) (.inl rfl))).snoc (.settle (setLookup_self _ 1 _))
  have hended := (hnested.snoc (@Step.settle _ everything _ 0 q 0 (.ok before) rfl)).snoc
    (@Step.hit _ everything _ q ordered (by cbv))
  refine ⟨_, ?_, ?_, coherent hended⟩
  · convert hended using 1
    cbv
  · cbv

end Interplay

/-! ## The directory in memory -/

namespace Services

open Interplay

/-- What a directory with some listings answers when it does not fail. -/
def listed (listings : List Listing) (q : Query) : Answer :=
  ({ listings } : Directory).answer q

/-- The directory's listings and the cache, with look-ups under way. -/
def interplay (s : Services) (lookups : Nat → Option Lookup) : Interplay (List Listing) :=
  ⟨s.directory.listings, s.cache, lookups⟩

/-- Nothing is under way. -/
def idle (s : Services) : Interplay (List Listing) := s.interplay fun _ => none

/-- A listing plays no part in what is on offer for other capabilities. -/
theorem offers_listed_middle {l : Listing} {q : Query} (h : q.capability ≠ l.service.capability)
    (ls ls' : List Listing) (found : List Service) :
    Offers listed (ls ++ l :: ls') q found ↔ Offers listed (ls ++ ls') q found := by
  have harranged : ∀ p : Listing → Bool,
      Service.Arranged q.capability (((ls ++ l :: ls').filter p).map Listing.service) found ↔
        Service.Arranged q.capability (((ls ++ ls').filter p).map Listing.service) found := by
    intro p
    refine Service.arranged_congr ?_
    by_cases hp : p l = true
    · simp [List.filter_append, hp, Ne.symm h]
    · simp [List.filter_append, hp]
  simp only [Offers, listed, Directory.answer]
  cases q.filter with
  | none => simpa using harranged _
  | some filter =>
      by_cases hf : filter.toList.head? = some '('
      · simpa [hf] using harranged _
      · simp [hf]

/-- Publishing a service, and reporting it, is a change of its capability. -/
theorem publish_step (s : Services) (l : Listing) (h : s.connected = true) :
    Step listed s.idle (.change l.service.capability) (s.publish l false).idle := by
  have hd : DiffersIn listed l.service.capability s.directory.listings
      (s.directory.listings ++ [l]) := by
    intro q hq found
    have := offers_listed_middle hq s.directory.listings [] found
    rwa [List.append_nil] at this
  have hs : (s.publish l false).idle = { s.idle with
      directory := s.directory.listings ++ [l]
      cache := s.cache.invalidate l.service.capability } := by
    simp [publish, notify, h, idle, interplay, Directory.publish]
  rw [hs]
  exact .change hd

/-- Withdrawing a service, and reporting it, is a change of its capability, and if there is no such
service nothing happens. -/
theorem withdraw_step (s : Services) (id : Nat) (h : s.connected = true) :
    (s.withdraw id false).2 = s ∨
      ∃ capability, Step listed s.idle (.change capability) (s.withdraw id false).2.idle := by
  unfold withdraw Directory.withdraw?
  cases hf : s.directory.listings.find? fun l => l.service.id == id with
  | none => exact .inl rfl
  | some l =>
      refine .inr ⟨l.service.capability, ?_⟩
      obtain ⟨hl, ls, ls', hsplit, hls⟩ := List.find?_eq_some_iff_append.mp hf
      have herase : s.directory.listings.eraseP (fun l => l.service.id == id) = ls ++ ls' := by
        rw [hsplit, List.eraseP_append_right _ (by simpa using hls),
          List.eraseP_cons_of_pos (p := fun l : Listing => l.service.id == id) hl]
      have hd : DiffersIn listed l.service.capability s.directory.listings (ls ++ ls') := by
        intro q hq found
        rw [hsplit]
        exact (offers_listed_middle hq ls ls' found).symm
      simpa [notify, h, herase, idle, interplay] using
        (@Step.change _ listed s.idle _ _ hd)

theorem ask_spec (s : Services) (q : Query) :
    (s.ask q).1 = s.directory.answer q ∧
      (s.ask q).2.directory.listings = s.directory.listings ∧
      ((s.ask q).2.cache = s.cache ∨ (s.ask q).2.cache = s.cache.invalidate q.capability) := by
  have hanswer : ({ s.directory with lookups := s.directory.lookups + 1 } : Directory).answer q =
      s.directory.answer q := rfl
  unfold ask
  simp only [hanswer]
  cases s.directory.answer q with
  | error e => exact ⟨rfl, rfl, .inl rfl⟩
  | ok services =>
      cases hracing : s.directory.racing with
      | false => exact ⟨rfl, by simp, .inl (by simp)⟩
      | true => cases hconnected : s.connected <;> simp [notify]

/-- All that comes of asking the directory is perhaps the report of a change. -/
theorem interplay_ask (s : Services) (q : Query) (L : Nat → Option Lookup) :
    (s.ask q).2.interplay L = s.interplay L ∨
      (s.ask q).2.interplay L =
        { s.interplay L with cache := s.cache.invalidate q.capability } := by
  obtain ⟨_, hlistings, hcache⟩ := s.ask_spec q
  unfold interplay
  rw [hlistings]
  rcases hcache with hcache | hcache
  · exact .inl (by rw [hcache])
  · exact .inr (by rw [hcache])

/-- The directory collects its answer to a look-up, and it may report a change after that. -/
theorem ask_run (s : Services) (L : Nat → Option Lookup) (number : Nat) (q : Query) (epoch : Nat) :
    ∃ ms, (∀ k found, .settle k found ∉ ms) ∧
      Run listed ((s.interplay L).setLookup number (some ⟨q, epoch, none⟩)) ms
        (((s.ask q).2.interplay L).setLookup number (some ⟨q, epoch, some (s.ask q).1⟩)) := by
  obtain ⟨hanswer, _⟩ := s.ask_spec q
  have hfaithful : (s.ask q).1 = listed s.directory.listings q ∨ ∃ e, (s.ask q).1 = .error e := by
    rw [hanswer]
    cases hf : s.directory.failing with
    | true => exact .inr ⟨.unavailable, by simp [Directory.answer, hf]⟩
    | false => exact .inl (by simp [listed, Directory.answer, hf])
  have hr := Run.single (@Step.collect _ listed _ _ _ _ _
    (setLookup_self (s.interplay L) number (some ⟨q, epoch, none⟩)) hfaithful)
  rw [setLookup_setLookup] at hr
  rcases s.interplay_ask q L with hs | hs
  · rw [hs]
    exact ⟨[.collect number (s.ask q).1], by simp, hr⟩
  · rw [hs]
    exact ⟨[.collect number (s.ask q).1, .invalidate q.capability], by simp,
      hr.append (.single (.invalidate q.capability))⟩

/-- Ending a look-up leaves what else was under way. -/
theorem settle_step (s : Services) {L : Nat → Option Lookup} {number : Nat} (q : Query)
    (epoch : Nat) (a : Answer) (h : L number = none) :
    Step listed ((s.interplay L).setLookup number (some ⟨q, epoch, some a⟩))
      (.settle number (s.cache.settle q epoch a).1)
      ({ s with cache := (s.cache.settle q epoch a).2 }.interplay L) := by
  have hs := @Step.settle _ listed _ _ _ _ _
    (setLookup_self (s.interplay L) number (some ⟨q, epoch, some a⟩))
  rw [setLookup_setLookup, setLookup_eq_self (s := s.interplay L) (l := none) h] at hs
  exact hs

/-- A look-up with a directory that does not ask back is a run. -/
theorem referencesOnce_run (s : Services) (q : Query) (L : Nat → Option Lookup) (number : Nat)
    (h : L number = none) :
    ∃ ms, (∀ k found, .settle k found ∈ ms → k = number) ∧
      Run listed (s.interplay L) ms ((s.referencesOnce q).2.interplay L) := by
  unfold referencesOnce
  cases hr : s.cache.remembered q with
  | inl services => exact ⟨[.hit q services], by simp, .single (.hit hr)⟩
  | inr epoch =>
      obtain ⟨ms, hms, hask⟩ := s.ask_run L number q epoch
      refine ⟨_, ?_, ((Run.single (.miss h hr)).append hask).append
        (.single ((s.ask q).2.settle_step q epoch (s.ask q).1 h))⟩
      intro k found hmem
      simp only [List.mem_append, List.mem_singleton, reduceCtorEq, false_or] at hmem
      rcases hmem with hmem | hmem
      · exact absurd hmem (hms k found)
      · cases hmem
        rfl

/-- The directory no longer asks back. -/
def disarmed (s : Services) : Services :=
  { s with directory := { s.directory with reentering := false } }

/-- The directory hands out what it was asked for first, whether it asks back before that or not. -/
theorem lookup_cases (s : Services) (q : Query) : (s.lookup q).1 = (s.ask q).1 ∧
    ((s.lookup q).2 = (s.ask q).2 ∨
      (s.ask q).2.directory.reentering = true ∧
        (s.lookup q).2 = ((s.ask q).2.disarmed.referencesOnce q).2) := by
  unfold lookup
  rcases s.ask q with ⟨_ | services, s'⟩
  · exact ⟨rfl, .inl rfl⟩
  · dsimp only
    split
    · next hreentering => exact ⟨rfl, .inr ⟨hreentering, rfl⟩⟩
    · exact ⟨rfl, .inl rfl⟩

/-- Between its miss and its end a look-up is a run, also if the directory asks back. -/
theorem lookup_run (s : Services) (q : Query) (L : Nat → Option Lookup) {number other : Nat}
    (epoch : Nat) (hne : other ≠ number) (h : L other = none) :
    ∃ ms, (∀ found, .settle number found ∉ ms) ∧
      Run listed ((s.interplay L).setLookup number (some ⟨q, epoch, none⟩)) ms
        (((s.lookup q).2.interplay L).setLookup number (some ⟨q, epoch, some (s.lookup q).1⟩)) := by
  obtain ⟨ms, hms, hask⟩ := s.ask_run L number q epoch
  obtain ⟨hanswer, hsame | ⟨-, hnext⟩⟩ := s.lookup_cases q
  · rw [hanswer, hsame]
    exact ⟨ms, hms number, hask⟩
  -- The nested look-up runs under a number of its own while the outer one holds its answer.
  · rw [hanswer, hnext]
    obtain ⟨ns, hns, hnested⟩ := (s.ask q).2.disarmed.referencesOnce_run q
      (fun k => if k = number then some ⟨q, epoch, some (s.ask q).1⟩ else L k)
      other (by rw [if_neg hne, h])
    refine ⟨ms ++ ns, ?_, hask.append hnested⟩
    intro found hmem
    rcases List.mem_append.mp hmem with hmem | hmem
    · exact hms number found hmem
    · exact hne (hns number found hmem).symm

/-- **A look-up of the running program is one of the interplay**: it finds the services in the
cache, or it is a call with whatever the directory reports and asks in its course. -/
theorem references_call (s : Services) (q : Query) :
    Step listed s.idle (.hit q (s.references q).1) (s.references q).2.idle ∨
      ∃ ms, Call listed 0 q s.idle ms (s.references q).1 (s.references q).2.idle := by
  unfold references
  cases hr : s.cache.remembered q with
  | inl services => exact .inl (.hit hr)
  | inr epoch =>
      obtain ⟨ms, hms, hlookup⟩ :=
        s.lookup_run q (fun _ => none) epoch (by decide : 1 ≠ 0) rfl
      exact .inr ⟨ms, .mk (.miss rfl hr) hlookup hms
        ((s.lookup q).2.settle_step q epoch (s.lookup q).1 rfl)⟩

/-- A look-up past the cache is a run too: that of what the directory does meanwhile. -/
theorem lookup_idle_run (s : Services) (q : Query) :
    ∃ ms, Run listed s.idle ms (s.lookup q).2.idle := by
  obtain ⟨ms, hask⟩ : ∃ ms, Run listed s.idle ms (s.ask q).2.idle := by
    unfold idle
    rcases s.interplay_ask q fun _ => none with hs | hs
    · rw [hs]
      exact ⟨[], .nil⟩
    · rw [hs]
      exact ⟨[.invalidate q.capability], .single (.invalidate q.capability)⟩
  obtain ⟨-, hsame | ⟨-, hnext⟩⟩ := s.lookup_cases q
  · rw [hsame]
    exact ⟨ms, hask⟩
  · rw [hnext]
    obtain ⟨ns, _, hnested⟩ :=
      (s.ask q).2.disarmed.referencesOnce_run q (fun _ => none) 0 rfl
    exact ⟨ms ++ ns, hask.append hnested⟩

/-! ## Histories in which every change is reported -/

theorem connected_ask (s : Services) (q : Query) : (s.ask q).2.connected = s.connected := by
  unfold ask
  dsimp only
  split
  · rfl
  · dsimp only
    split
    · unfold notify
      split <;> rfl
    · rfl

theorem connected_referencesOnce (s : Services) (q : Query) :
    (s.referencesOnce q).2.connected = s.connected := by
  unfold referencesOnce
  split
  · rfl
  · exact s.connected_ask q

theorem connected_lookup (s : Services) (q : Query) :
    (s.lookup q).2.connected = s.connected := by
  obtain ⟨-, hsame | ⟨-, hnext⟩⟩ := s.lookup_cases q
  · rw [hsame, connected_ask]
  · rw [hnext, connected_referencesOnce]
    exact s.connected_ask q

theorem connected_references (s : Services) (q : Query) :
    (s.references q).2.connected = s.connected := by
  unfold references
  split
  · rfl
  · exact s.connected_lookup q

/-- The services that come about from a directory when every change is reported, whether they are
looked up by way of the cache or straight from the directory. The directory may fail, race and ask
back as it likes. -/
inductive Reported : Services → Prop where
  | start (listings : List Listing) : Reported { directory := { listings } }
  | references {s : Services} (q : Query) : Reported s → Reported (s.references q).2
  | lookup {s : Services} (q : Query) : Reported s → Reported (s.lookup q).2
  | publish {s : Services} (l : Listing) : Reported s → Reported (s.publish l false)
  | withdraw {s : Services} (id : Nat) : Reported s → Reported (s.withdraw id false).2
  | invalidate {s : Services} (capability : Capability) :
      Reported s → Reported { s with cache := s.cache.invalidate capability }
  | clear {s : Services} : Reported s → Reported { s with cache := s.cache.clear }
  | behave {s : Services} (failing racing reentering : Bool) : Reported s →
      Reported { s with directory := { s.directory with failing, racing, reentering } }

theorem Reported.connected {s : Services} (h : s.Reported) : s.connected = true := by
  induction h with
  | start _ => rfl
  | @references s q _ ih => rw [connected_references, ih]
  | @lookup s q _ ih => rw [connected_lookup, ih]
  | @publish s l _ ih => simp [Services.publish, notify, ih]
  | @withdraw s id _ ih =>
      unfold Services.withdraw
      split
      · exact ih
      · simp [notify, ih]
  | invalidate _ _ ih => exact ih
  | clear _ ih => exact ih
  | behave _ _ _ _ ih => exact ih

/-- Every such history is a run of the interplay. -/
theorem Reported.run {s : Services} (h : s.Reported) :
    ∃ d ms, Run listed (Interplay.start d) ms s.idle := by
  induction h with
  | start listings => exact ⟨listings, [], .nil⟩
  | @references s q _ ih =>
      obtain ⟨d, ms, hr⟩ := ih
      rcases s.references_call q with hhit | ⟨ns, hcall⟩
      · exact ⟨d, _, hr.snoc hhit⟩
      · cases hcall with
        | mk hmiss hns _ hsettle =>
            exact ⟨d, _, ((hr.snoc hmiss).append hns).snoc hsettle⟩
  | @lookup s q _ ih =>
      obtain ⟨d, ms, hr⟩ := ih
      obtain ⟨ns, hlookup⟩ := s.lookup_idle_run q
      exact ⟨d, ms ++ ns, hr.append hlookup⟩
  | @publish s l hs ih =>
      obtain ⟨d, ms, hr⟩ := ih
      exact ⟨d, _, hr.snoc (s.publish_step l hs.connected)⟩
  | @withdraw s id hs ih =>
      obtain ⟨d, ms, hr⟩ := ih
      rcases s.withdraw_step id hs.connected with hsame | ⟨capability, hchange⟩
      · rw [hsame]
        exact ⟨d, ms, hr⟩
      · exact ⟨d, _, hr.snoc hchange⟩
  | invalidate capability _ ih =>
      obtain ⟨d, ms, hr⟩ := ih
      exact ⟨d, _, hr.snoc (.invalidate capability)⟩
  | clear _ ih =>
      obtain ⟨d, ms, hr⟩ := ih
      exact ⟨d, _, hr.snoc .clear⟩
  | behave _ _ _ _ ih => exact ih

/-- What the cache of the running program stores is what its directory lists at present. -/
theorem Reported.stored {s : Services} (h : s.Reported) {q : Query} {found : List Service}
    (hq : s.cache.entries.get? q = some found) :
    Offers listed s.directory.listings q found := by
  obtain ⟨d, ms, hr⟩ := h.run
  exact (hr.sound (sound_start d)).stored q found hq

end Services

end ScriptHost
