import Mathlib
import ScriptHost.Proofs.Cache.Bounded
import ScriptHost.Proofs.Path.Ancestry

/-! # What a batch of reports leaves

A batch of reports takes out of a cache what one of them hits (`ScriptCache.Hits`) and leaves the
rest in its order, so neither the order of the reports nor their number counts, nor how they are
divided into batches. The removal of anything above a path takes the path out as well. With slashes
behind it a removal reaches just as much, but for one path: the one that was removed. -/

namespace ScriptHost

/-- A cache that is active, watches the extension `x` and holds scripts at some paths. -/
def Sample.watching (paths : List String) : ScriptCache :=
  let holding := paths.foldl (fun c path => c.put (kept path)) (ScriptCache.new 8 [])
  { holding with
    phase := .active {
      generation := 0, watch := ⟨.ofList ["x"]⟩, subscription := none, registry := 0,
      listener := 0 } }

namespace ScriptCache

/-! ## What a report hits -/

/-- What a report hits in a cache that is not disposed. A change hits its own path, in an active
cache only if that is watched. A removal hits its own path and whatever begins with that path,
without the slashes at its end, and a slash. -/
inductive Hits (c : ScriptCache) : ChangeEvent → String → Prop where
  | changed {path : String} : c.isDisposed = false →
      (∀ a, c.phase = .active a → a.watch.selects path = true) → Hits c (.changed path) path
  | removed {path : String} : c.isDisposed = false → Hits c (.removed path) path
  | below {above path : String} {base rest : List Char} {n : Nat} : c.isDisposed = false →
      Path.IsBare base → above.toList = base ++ List.replicate n '/' →
      path.toList = base ++ '/' :: rest → Hits c (.removed above) path

theorem watch?_all_iff {c : ScriptCache} {path : String} :
    (c.watch?.all fun w => w.selects path) = true ↔
      ∀ a, c.phase = .active a → a.watch.selects path = true := by
  unfold watch?
  cases c.phase <;> simp

theorem hits_iff {c : ScriptCache} {e : ChangeEvent} {path : String} :
    c.Hits e path ↔ c.isDisposed = false ∧ e.hits c.watch? path = true := by
  constructor
  · intro h
    cases h with
    | changed hlive hwatched =>
        exact ⟨hlive, ChangeEvent.hits_changed.mpr ⟨rfl, watch?_all_iff.mpr hwatched⟩⟩
    | removed hlive => exact ⟨hlive, ChangeEvent.hits_removed.mpr (.inl rfl)⟩
    | below hlive hbare habove hpath =>
        have hbelow := isBelow_iff.mpr ⟨_, _, _, hbare, habove, hpath⟩
        exact ⟨hlive, ChangeEvent.hits_removed.mpr (.inr hbelow)⟩
  · rintro ⟨hlive, hhits⟩
    cases e with
    | changed q =>
        obtain ⟨rfl, hwatched⟩ := ChangeEvent.hits_changed.mp hhits
        exact .changed hlive (watch?_all_iff.mp hwatched)
    | removed q =>
        rcases ChangeEvent.hits_removed.mp hhits with rfl | hbelow
        · exact .removed hlive
        · obtain ⟨base, rest, n, hbare, habove, hpath⟩ := isBelow_iff.mp hbelow
          exact .below hlive hbare habove hpath

instance (c : ScriptCache) (e : ChangeEvent) (path : String) : Decidable (c.Hits e path) :=
  decidable_of_iff _ hits_iff.symm

/-! ## A batch is a filter -/

/-- **A batch leaves the entries that none of its reports hits**, and all else as it is. -/
theorem invalidate_eq_filter (c : ScriptCache) (events : List ChangeEvent) :
    c.invalidate events = { c with
      entries := c.entries.filter fun path _ => decide (∀ e ∈ events, ¬ c.Hits e path) } := by
  cases hlive : c.isDisposed with
  | true =>
      have hnone : ∀ e path, ¬ c.Hits e path := by
        intro e path h
        rw [hits_iff, hlive] at h
        cases h.1
      rw [invalidate_disposed hlive, OrderedMap.filter_eq_self]
      intro x _
      exact decide_eq_true fun e _ => hnone e x.1
  | false =>
      rw [invalidate_live hlive]
      congr 1
      refine OrderedMap.filter_congr fun x _ => ?_
      rw [Bool.eq_iff_iff]
      simp [hits_iff, hlive]

/-- Only which reports there are counts. -/
theorem invalidate_congr (c : ScriptCache) {events events' : List ChangeEvent}
    (h : ∀ e, e ∈ events' ↔ e ∈ events) : c.invalidate events' = c.invalidate events := by
  rw [invalidate_eq_filter, invalidate_eq_filter]
  congr 1
  refine OrderedMap.filter_congr fun x _ => ?_
  simp only [h]

/-- **Invalidation is a filter** that keeps the order of the entries, whatever the order and the
number of the reports, whatever batches they come in, and however often they come. -/
theorem batch_filters (c : ScriptCache) (events : List ChangeEvent) :
    c.invalidate events = { c with
        entries := c.entries.filter fun path _ => decide (∀ e ∈ events, ¬ c.Hits e path) } ∧
      (∀ events', (∀ e, e ∈ events' ↔ e ∈ events) →
        c.invalidate events' = c.invalidate events) ∧
      (∀ batches : List (List ChangeEvent), batches.flatten = events →
        batches.foldl invalidate c = c.invalidate events) ∧
      (c.invalidate events).invalidate events = c.invalidate events := by
  refine ⟨c.invalidate_eq_filter events, ?_, ?_, ?_⟩
  · intro events' h
    exact c.invalidate_congr h
  · rintro batches rfl
    exact foldl_invalidate batches c
  · rw [← invalidate_append]
    exact c.invalidate_congr fun e => by rw [List.mem_append, or_self]

/-- Reports in another order, one of them twice, and in several batches. The change of `/a.y` is not
watched, and `/bc` only begins like the path that is removed. -/
theorem batch_filters_shuffled :
    let c := Sample.watching ["/a.x", "/a.y", "/b/c.x", "/bc"]
    let events : List ChangeEvent := [.changed "/a.x", .changed "/a.y", .removed "/b"]
    let shuffled : List ChangeEvent := .removed "/b" :: events.reverse
    let batches : List (List ChangeEvent) :=
      [[.changed "/a.x"], [], [.changed "/a.y", .removed "/b"]]
    (∀ e, e ∈ shuffled ↔ e ∈ events) ∧ batches.flatten = events ∧
      (c.invalidate events).paths = ["/a.y", "/bc"] ∧
      c.invalidate shuffled = c.invalidate events ∧
      batches.foldl invalidate c = c.invalidate events ∧
      (c.invalidate events).invalidate events = c.invalidate events := by
  have hpaths : ((Sample.watching ["/a.x", "/a.y", "/b/c.x", "/bc"]).invalidate
      [.changed "/a.x", .changed "/a.y", .removed "/b"]).paths = ["/a.y", "/bc"] := by cbv
  intro c events shuffled batches
  have hsame : ∀ e, e ∈ shuffled ↔ e ∈ events := by
    intro e
    simp only [shuffled, events, List.mem_cons, List.mem_reverse]
    tauto
  obtain ⟨_, hshuffled, hbatches, htwice⟩ := batch_filters c events
  exact ⟨hsame, rfl, hpaths, hshuffled shuffled hsame, hbatches batches rfl, htwice⟩

/-! ## Removals above a path -/

theorem not_mem_paths_iff {c : ScriptCache} {path : String} :
    path ∉ c.paths ↔ c.get? path = none :=
  OrderedMap.get?_eq_none_iff.symm

/-- **The removal of anything above a path takes the path out**, and what lies above is a shorter
beginning of it, so the way up ends. -/
theorem removal_above_evicts (path : String) :
    (∀ n, path.length < n → Path.above? n path = none) ∧
      ∀ n above, Path.above? (n + 1) path = some above →
        above.toList <+: path.toList ∧ above ≠ path ∧
          ∀ c : ScriptCache, c.isDisposed = false → ∀ events, .removed above ∈ events →
            path ∉ (c.invalidate events).paths := by
  refine ⟨fun n hn => Path.above?_eq_none hn, fun n above habove => ?_⟩
  obtain ⟨hbegins, hlength⟩ := Path.above?_some habove
  refine ⟨hbegins, ?_, ?_⟩
  · rintro rfl
    omega
  · intro c hlive events hmem
    have hhit : (events.any fun e => e.hits c.watch? path) = true := by
      refine List.any_eq_true.mpr ⟨_, hmem, ?_⟩
      exact ChangeEvent.hits_removed.mpr (.inr (Path.isBelow_of_above? habove))
    rw [not_mem_paths_iff, get?_invalidate hlive, if_pos hhit]

/-- The folder above has a slash of its own at the end, and the one above that is the root. -/
theorem removal_above_evicts_doubled :
    let c := Sample.watching ["/a//b/", "/a/", "/ab"]
    Path.above? 1 "/a//b/" = some "/a/" ∧ Path.above? 2 "/a//b/" = some "/" ∧
      Path.above? 3 "/a//b/" = none ∧ "/a//b/" ∈ c.paths ∧
      "/a//b/" ∉ (c.invalidate [.removed "/a/"]).paths ∧
      "/a//b/" ∉ (c.invalidate [.removed "/"]).paths := by
  intro c
  have hone : Path.above? (0 + 1) "/a//b/" = some "/a/" := by cbv
  have htwo : Path.above? (1 + 1) "/a//b/" = some "/" := by cbv
  have hout := (removal_above_evicts "/a//b/").2
  exact ⟨hone, htwo, by cbv, by decide +kernel,
    (hout 0 _ hone).2.2 c rfl _ (List.mem_singleton.mpr rfl),
    (hout 1 _ htwo).2.2 c rfl _ (List.mem_singleton.mpr rfl)⟩

/-! ## Removals with slashes behind them -/

/-- Slashes behind a removed path make no difference to any other path. -/
theorem hits_slashed_of_ne {watch : Option WatchSet} {path other : String} (n : Nat)
    (h : other ≠ path) :
    (ChangeEvent.removed (Path.slashed path n)).hits watch other = true ↔
      (ChangeEvent.removed path).hits watch other = true := by
  rw [ChangeEvent.hits_removed, ChangeEvent.hits_removed, isBelow_slashed]
  constructor
  · rintro (rfl | hbelow)
    · cases n with
      | zero => exact .inl (Path.slashed_eq_self_iff.mpr rfl)
      | succ n => exact .inr (isBelow_slashed_succ path n)
    · exact .inr hbelow
  · rintro (rfl | hbelow)
    · exact absurd rfl h
    · exact .inr hbelow

/-- With slashes behind it the removal misses the path itself, unless that ends in one. -/
theorem hits_slashed_self {watch : Option WatchSet} {path : String} {n : Nat} :
    (ChangeEvent.removed (Path.slashed path n)).hits watch path = true ↔
      n = 0 ∨ ¬ Path.IsBare path.toList := by
  rw [ChangeEvent.hits_removed, isBelow_slashed, isBelow_self_iff, eq_comm,
    Path.slashed_eq_self_iff]

/-- The removal of a path takes out what it does with slashes behind it, and the path itself. -/
theorem invalidate_removed {c : ScriptCache} (h : c.isDisposed = false) (path : String) (n : Nat) :
    c.invalidate [.removed path] =
      ((c.invalidate [.removed (Path.slashed path n)]).remove path).2 := by
  unfold remove OrderedMap.erase
  rw [invalidate_live h, invalidate_live h, OrderedMap.filter_filter]
  congr 1
  refine OrderedMap.filter_congr fun x _ => ?_
  rw [List.any_cons, List.any_nil, Bool.or_false, List.any_cons, List.any_nil, Bool.or_false]
  by_cases hpath : x.1 = path
  · rw [hpath, ChangeEvent.hits_removed.mpr (.inl rfl), bne_self_eq_false, Bool.and_false,
      Bool.not_true]
  · rw [Bool.eq_iff_iff.mpr (hits_slashed_of_ne n hpath), bne_iff_ne.mpr hpath, Bool.and_true]

theorem remove_eq_self_iff {c : ScriptCache} {path : String} :
    (c.remove path).2 = c ↔ path ∉ c.paths := by
  constructor
  · intro h
    rw [← h, not_mem_paths_iff]
    unfold remove get?
    rw [OrderedMap.get?_erase, if_pos rfl]
  · intro h
    unfold remove
    rw [OrderedMap.erase_eq_self h]

/-- **A removal with slashes behind it spares the path that was removed**, if that has none of its
own, and does the same as without them in every other respect. So slashes make a difference exactly
if they are behind a path that is cached and has none. -/
theorem slashes_spare_path (c : ScriptCache) (path : String) (n : Nat) :
    let plain := c.invalidate [.removed path]
    let more := c.invalidate [.removed (Path.slashed path n)]
    (more = plain ↔
        c.isDisposed = true ∨ n = 0 ∨ ¬ Path.IsBare path.toList ∨ path ∉ c.paths) ∧
      (c.isDisposed = false → plain = (more.remove path).2) ∧
      (n ≠ 0 → Path.IsBare path.toList → more.get? path = c.get? path) := by
  intro plain more
  cases hlive : c.isDisposed with
  | true =>
      have hplain : plain = c := invalidate_disposed hlive _
      have hmore : more = c := invalidate_disposed hlive _
      rw [hplain, hmore]
      simp
  | false =>
      have hplain : plain = (more.remove path).2 := invalidate_removed hlive path n
      have hget : more.get? path =
          if n = 0 ∨ ¬ Path.IsBare path.toList then none else c.get? path := by
        have h := get?_invalidate hlive [.removed (Path.slashed path n)] path
        simpa only [List.any_cons, List.any_nil, Bool.or_false, hits_slashed_self] using h
      refine ⟨?_, fun _ => hplain, ?_⟩
      · rw [hplain, eq_comm, remove_eq_self_iff, not_mem_paths_iff, not_mem_paths_iff, hget]
        split
        · next h => rcases h with h | h <;> simp [h]
        · next h =>
            obtain ⟨hn, hbare⟩ := not_or.mp h
            simp [hn, not_not.mp hbare]
      · intro hn hbare
        rw [hget, if_neg]
        rintro (rfl | hslash)
        · exact hn rfl
        · exact hslash hbare

theorem slashes_spare_path_cached :
    let c := Sample.watching ["/a/b", "/a/b/c", "/a/bc"]
    c.isDisposed = false ∧ Path.IsBare "/a/b".toList ∧ "/a/b" ∈ c.paths ∧
      (c.invalidate [.removed (Path.slashed "/a/b" 2)]).get? "/a/b" = c.get? "/a/b" ∧
      c.invalidate [.removed "/a/b"] =
        ((c.invalidate [.removed (Path.slashed "/a/b" 2)]).remove "/a/b").2 ∧
      c.invalidate [.removed (Path.slashed "/a/b" 2)] ≠ c.invalidate [.removed "/a/b"] := by
  intro c
  have hbare : Path.IsBare "/a/b".toList := by decide +kernel
  have hmem : "/a/b" ∈ c.paths := by decide +kernel
  obtain ⟨hsame, hplain, hspared⟩ := slashes_spare_path c "/a/b" 2
  refine ⟨rfl, hbare, hmem, hspared (by decide) hbare, hplain rfl, fun heq => ?_⟩
  rcases hsame.mp heq with hdisposed | htwo | hslash | habsent
  · cases hdisposed
  · cases htwo
  · exact hslash hbare
  · exact habsent hmem

/-- A folder that was reported as removed with a slash behind it is still there itself. -/
theorem removed_folder_stays :
    let c := Sample.watching ["/a/b", "/a/b/c"]
    (∀ path ∈ c.paths, Path.IsBare path.toList) ∧ Path.IsBare "/a/b".toList ∧
      Path.slashed "/a/b" 1 = "/a/b/" ∧ (c.invalidate [.removed "/a/b"]).paths = [] ∧
      (c.invalidate [.removed "/a/b/"]).paths = ["/a/b"] := by
  decide +kernel

end ScriptCache

end ScriptHost
