import ScriptHost.Cache.Script

/-! # What happens to cached scripts

One lemma for each thing that is done to a cache, by what it then holds under a path: what is put
there is found there, a batch of reports removes what one of its reports hits, and the background
does with a batch just that. Whatever is done but putting a script only takes entries away
(`ScriptCache.Thins`). -/

namespace ScriptHost

/-! ## The background -/

namespace BackgroundQueue

variable {J : Type}

/-- A queue that takes jobs and has none. -/
structure IsReady (q : BackgroundQueue J) : Prop where
  entering : q.entering = none
  line : q.line = []
  running : q.running = none
  closed : q.closed = false

theorem workOff_ready (panics : J → Bool) {fuel : Nat} {q : BackgroundQueue J}
    (hentering : q.entering = none) (hrunning : q.running = none) (hclosed : q.closed = false)
    (hfuel : q.line.length < fuel) : (q.workOff (fun _ => false) panics fuel).IsReady := by
  induction fuel generalizing q with
  | zero => omega
  | succ fuel ih =>
      unfold workOff take
      cases hline : q.line with
      | nil =>
          simp only [hrunning]
          exact ⟨hentering, hline, hrunning, hclosed⟩
      | cons job rest =>
          simp only [hrunning]
          refine ih hentering rfl hclosed ?_
          rw [hline, List.length_cons] at hfuel
          show rest.length < fuel
          omega

/-- Whatever is in its line, a queue that takes jobs has none once the background has settled. -/
theorem settle_ready (panics : J → Bool) {q : BackgroundQueue J} (hentering : q.entering = none)
    (hrunning : q.running = none) (hclosed : q.closed = false) :
    (q.settle (fun _ => false) panics).IsReady :=
  workOff_ready panics hentering hrunning hclosed (Nat.lt_succ_self _)

end BackgroundQueue

namespace ScriptCache

/-! ## Putting and dropping -/

/-- What is found after a script has been put is that script or was found before. -/
theorem get?_put {c : ScriptCache} {s x : CachedScript} {path : String}
    (h : (c.put s).get? path = some x) : path = s.path ∧ x = s ∨ c.get? path = some x := by
  unfold put at h
  split at h
  · exact .inr h
  · unfold get? at h
    simp only [OrderedMap.get?_insert] at h
    split at h
    · next hpath => exact .inl ⟨hpath, (Option.some.inj h).symm⟩
    · refine .inr (OrderedMap.get?_of_subset ?_ h)
      intro e he
      exact (List.mem_filter.mp (List.mem_of_mem_drop he)).1

theorem put_eq (c : ScriptCache) (s : CachedScript) :
    c.put s = { c with entries := (c.put s).entries } := by
  unfold put
  split <;> rfl

/-! ## Reports -/

/-- One report leaves what it does not hit. -/
theorem drop_eq_filter (watch : Option WatchSet) (entries : OrderedMap String CachedScript)
    (e : ChangeEvent) : drop watch entries e = entries.filter fun path _ => !e.hits watch path := by
  cases e with
  | changed q =>
      unfold drop ChangeEvent.hits
      dsimp only
      split
      · next hw =>
          refine OrderedMap.filter_congr fun x _ => ?_
          by_cases hq : x.1 = q <;> simp [hw, hq]
      · next hw =>
          refine (OrderedMap.filter_eq_self fun x _ => ?_).symm
          simp [hw]
  | removed q =>
      unfold drop ChangeEvent.hits OrderedMap.erase
      dsimp only
      rw [OrderedMap.filter_filter]
      refine OrderedMap.filter_congr fun x _ => ?_
      by_cases hq : x.1 = q <;> simp [hq]

/-- So the order of the reports does not show in what they leave. -/
theorem foldl_drop_eq_filter (watch : Option WatchSet) (events : List ChangeEvent)
    (entries : OrderedMap String CachedScript) :
    events.foldl (drop watch) entries =
      entries.filter fun path _ => !events.any fun e => e.hits watch path := by
  induction events generalizing entries with
  | nil => exact (OrderedMap.filter_eq_self fun _ _ => rfl).symm
  | cons e es ih =>
      rw [List.foldl_cons, ih, drop_eq_filter, OrderedMap.filter_filter]
      refine OrderedMap.filter_congr fun x _ => ?_
      rw [List.any_cons, Bool.not_or]

theorem get?_foldl_drop (watch : Option WatchSet) (events : List ChangeEvent)
    (entries : OrderedMap String CachedScript) (path : String) :
    (events.foldl (drop watch) entries).get? path =
      if events.any fun e => e.hits watch path then none else entries.get? path := by
  rw [foldl_drop_eq_filter,
    OrderedMap.get?_filter_key _ fun p => !events.any fun e => e.hits watch p]
  cases events.any fun e => e.hits watch path <;> simp

/-- A disposed cache ignores reports. -/
theorem invalidate_disposed {c : ScriptCache} (h : c.isDisposed = true)
    (events : List ChangeEvent) : c.invalidate events = c := by
  unfold invalidate
  rw [if_pos h]

theorem invalidate_eq_foldl {c : ScriptCache} (h : c.isDisposed = false)
    (events : List ChangeEvent) :
    c.invalidate events = { c with entries := events.foldl (drop c.watch?) c.entries } := by
  unfold invalidate
  rw [if_neg (Bool.eq_false_iff.mp h)]

/-- **A batch leaves what none of its reports hits**, in its order. -/
theorem invalidate_live {c : ScriptCache} (h : c.isDisposed = false) (events : List ChangeEvent) :
    c.invalidate events = { c with
      entries := c.entries.filter fun path _ => !events.any fun e => e.hits c.watch? path } := by
  rw [invalidate_eq_foldl h, foldl_drop_eq_filter]

/-- Reports leave all but the entries. -/
theorem invalidate_eq (c : ScriptCache) (events : List ChangeEvent) :
    c.invalidate events = { c with entries := (c.invalidate events).entries } := by
  unfold invalidate
  split <;> rfl

@[simp] theorem phase_invalidate (c : ScriptCache) (events : List ChangeEvent) :
    (c.invalidate events).phase = c.phase := by
  rw [invalidate_eq]

@[simp] theorem isDisposed_invalidate (c : ScriptCache) (events : List ChangeEvent) :
    (c.invalidate events).isDisposed = c.isDisposed := by
  unfold isDisposed
  rw [phase_invalidate]

@[simp] theorem watch?_invalidate (c : ScriptCache) (events : List ChangeEvent) :
    (c.invalidate events).watch? = c.watch? := by
  unfold watch?
  rw [phase_invalidate]

/-- What is found after a batch was there and is hit by none of its reports. -/
theorem get?_invalidate {c : ScriptCache} (h : c.isDisposed = false) (events : List ChangeEvent)
    (path : String) :
    (c.invalidate events).get? path =
      if events.any fun e => e.hits c.watch? path then none else c.get? path := by
  rw [invalidate_eq_foldl h]
  exact get?_foldl_drop c.watch? events c.entries path

/-- Nothing appears by a report. -/
theorem get?_of_invalidate {c : ScriptCache} {events : List ChangeEvent} {path : String}
    {x : CachedScript} (h : (c.invalidate events).get? path = some x) : c.get? path = some x := by
  cases hlive : c.isDisposed with
  | true => rwa [invalidate_disposed hlive] at h
  | false =>
      rw [get?_invalidate hlive] at h
      split at h
      · cases h
      · exact h

/-- Two batches do what they do as one. -/
theorem invalidate_append (c : ScriptCache) (first second : List ChangeEvent) :
    c.invalidate (first ++ second) = (c.invalidate first).invalidate second := by
  cases hlive : c.isDisposed with
  | true => rw [invalidate_disposed hlive, invalidate_disposed hlive, invalidate_disposed hlive]
  | false =>
      have hafter : (c.invalidate first).isDisposed = false := by
        rw [isDisposed_invalidate, hlive]
      rw [invalidate_eq_foldl hafter, watch?_invalidate, invalidate_eq_foldl hlive,
        invalidate_eq_foldl hlive, List.foldl_append]

/-- One batch after the other does what all of them do at once. -/
theorem foldl_invalidate (batches : List (List ChangeEvent)) (c : ScriptCache) :
    batches.foldl invalidate c = c.invalidate batches.flatten := by
  induction batches generalizing c with
  | nil =>
      unfold invalidate
      split <;> rfl
  | cons events batches ih => rw [List.foldl_cons, ih, List.flatten_cons, invalidate_append]

/-! ## Entries that go -/

/-- Some entries go and the others stay in their order; all else is the same, but for what is in
line. -/
structure Thins (c d : ScriptCache) : Prop where
  capacity : d.capacity = c.capacity
  additional : d.additional = c.additional
  phase : d.phase = c.phase
  entries : d.entries.entries.Sublist c.entries.entries

namespace Thins

theorem refl (c : ScriptCache) : c.Thins c :=
  ⟨rfl, rfl, rfl, List.Sublist.refl _⟩

theorem trans {c d e : ScriptCache} (h₁ : c.Thins d) (h₂ : d.Thins e) : c.Thins e :=
  ⟨h₂.capacity.trans h₁.capacity, h₂.additional.trans h₁.additional, h₂.phase.trans h₁.phase,
    h₂.entries.trans h₁.entries⟩

theorem foldl {σ : Type} {f : ScriptCache → σ → ScriptCache}
    (hf : ∀ (c : ScriptCache) x, c.Thins (f c x)) (xs : List σ) (c : ScriptCache) :
    c.Thins (xs.foldl f c) := by
  induction xs generalizing c with
  | nil => exact refl c
  | cons x xs ih => exact (hf c x).trans (ih (f c x))

theorem isDisposed {c d : ScriptCache} (h : c.Thins d) : d.isDisposed = c.isDisposed := by
  unfold ScriptCache.isDisposed
  rw [h.phase]

end Thins

theorem thins_entries {c : ScriptCache} {entries : OrderedMap String CachedScript}
    (h : entries.entries.Sublist c.entries.entries) : c.Thins { c with entries } :=
  ⟨rfl, rfl, rfl, h⟩

theorem thins_remove (c : ScriptCache) (path : String) : c.Thins (c.remove path).2 :=
  thins_entries List.filter_sublist

theorem thins_clear (c : ScriptCache) : c.Thins c.clear :=
  thins_entries (List.nil_sublist _)

theorem thins_trim (c : ScriptCache) (keep : Nat) : c.Thins (c.trim keep).2 :=
  thins_entries (List.drop_sublist _ _)

theorem thins_invalidate (c : ScriptCache) (events : List ChangeEvent) :
    c.Thins (c.invalidate events) := by
  cases hlive : c.isDisposed with
  | true =>
      rw [invalidate_disposed hlive]
      exact .refl c
  | false =>
      rw [invalidate_live hlive]
      exact thins_entries List.filter_sublist

theorem thins_onChanges (c : ScriptCache) (events : List ChangeEvent) :
    c.Thins (c.onChanges events) := by
  unfold onChanges
  split
  · exact .refl c
  · exact ⟨rfl, rfl, rfl, List.Sublist.refl _⟩

theorem thins_settle (c : ScriptCache) : c.Thins c.settle :=
  (Thins.foldl thins_invalidate c.queue.line c).trans ⟨rfl, rfl, rfl, List.Sublist.refl _⟩

/-! ## Batches in the background -/

/-- The background does one batch after the other. -/
theorem get?_foldl_invalidate {c : ScriptCache} (h : c.isDisposed = false)
    (batches : List (List ChangeEvent)) (path : String) :
    (batches.foldl invalidate c).get? path =
      if batches.any fun events => events.any fun e => e.hits c.watch? path then none
      else c.get? path := by
  rw [foldl_invalidate, get?_invalidate h, List.any_flatten]

theorem foldl_invalidate_eq (batches : List (List ChangeEvent)) (c : ScriptCache) :
    batches.foldl invalidate c = { c with entries := (batches.foldl invalidate c).entries } := by
  rw [foldl_invalidate, ← invalidate_eq]

theorem foldl_invalidate_disposed (batches : List (List ChangeEvent)) {c : ScriptCache}
    (h : c.phase = .disposed) : batches.foldl invalidate c = c := by
  have hover : c.isDisposed = true := by
    unfold isDisposed
    rw [h]
  rw [foldl_invalidate, invalidate_disposed hover]

/-- What handing out a batch to some subscriptions does: it enters the line once for each, unless it
is empty. -/
theorem foldl_onChanges {σ : Type} (subscriptions : List σ) (events : List ChangeEvent)
    {c : ScriptCache} (hentering : c.queue.entering = none) (hclosed : c.queue.closed = false) :
    ∃ q copies, subscriptions.foldl (fun c _ => c.onChanges events) c = { c with queue := q } ∧
      q.entering = none ∧ q.running = c.queue.running ∧ q.closed = false ∧
      q.line = c.queue.line ++ List.replicate copies events ∧
      (events ≠ [] → copies = subscriptions.length) := by
  induction subscriptions generalizing c with
  | nil => exact ⟨c.queue, 0, rfl, hentering, rfl, hclosed, by simp, fun _ => rfl⟩
  | cons s rest ih =>
      rw [List.foldl_cons]
      cases events with
      | nil =>
          obtain ⟨q, copies, hq⟩ := ih hentering hclosed
          exact ⟨q, copies, hq.1, hq.2.1, hq.2.2.1, hq.2.2.2.1, hq.2.2.2.2.1, by simp⟩
      | cons e es =>
          have hsubmit : (c.queue.submit (e :: es)).2 =
              { c.queue with
                line := c.queue.line ++ [e :: es]
                pending := c.queue.pending + 1 } := by
            simp [BackgroundQueue.submit, BackgroundQueue.announce, BackgroundQueue.enqueue,
              hclosed, hentering]
          have hone : c.onChanges (e :: es) =
              { c with queue := (c.queue.submit (e :: es)).2 } := rfl
          rw [hone, hsubmit]
          obtain ⟨q, copies, hfold, hq⟩ := ih (c := { c with
              queue := { c.queue with
                line := c.queue.line ++ [e :: es]
                pending := c.queue.pending + 1 } }) hentering hclosed
          refine ⟨q, copies + 1, hfold, hq.1, hq.2.1, hq.2.2.1, ?_, ?_⟩
          · rw [hq.2.2.2.1, List.replicate_succ]
            simp
          · intro he
            rw [hq.2.2.2.2 he, List.length_cons]

end ScriptCache

end ScriptHost
