import Mathlib
import ScriptHost.Proofs.Cache.Bounded

/-! # Which script goes

A full cache makes room by dropping the script that was put there the longest ago. So as long as
scripts are only put and looked up, it holds the latest of the paths that were put, as many as there
is room for, and a script is still there exactly if fewer other paths than that have been put since.
Looking scripts up makes no difference. Where others are taken out in between, there is only more
room: a script that nothing takes out stays at least as long. -/

namespace ScriptHost

namespace OrderedMap

variable {κ α : Type} [DecidableEq κ]

/-- What is found when the oldest entries have been dropped. -/
theorem get?_dropOldest (m : OrderedMap κ α) (n : Nat) (k : κ) :
    (m.dropOldest n).get? k = if k ∈ m.keys.take n then none else m.get? k := by
  have hkeys : (m.dropOldest n).keys = m.keys.drop n := List.map_drop
  split
  · next hk =>
      rw [get?_eq_none_iff, hkeys]
      exact (List.disjoint_take_drop m.nodup (Nat.le_refl n)) hk
  · next hk =>
      cases hget : m.get? k with
      | none =>
          rw [get?_eq_none_iff] at hget ⊢
          rw [hkeys]
          intro hmem
          exact hget (List.mem_of_mem_drop hmem)
      | some v =>
          have hmem : (k, v) ∈ m.entries := mem_entries_iff.mpr hget
          rw [← mem_entries_iff]
          rw [← List.take_append_drop n m.entries] at hmem
          rcases List.mem_append.mp hmem with hold | hnew
          · refine absurd ?_ hk
            rw [keys, ← List.map_take]
            exact List.mem_map_of_mem hold
          · exact hnew

end OrderedMap

namespace ScriptCache

/-- A cache after several uses of it. -/
def uses (c : ScriptCache) (us : List Use) : ScriptCache :=
  us.foldl use c

/-- The scripts that are put by some uses, in order. -/
def putsOf (us : List Use) : List CachedScript :=
  us.filterMap fun u => (CacheCall.use u).put?

theorem capacity_use (c : ScriptCache) (u : Use) : (c.use u).capacity = c.capacity := by
  rcases c.use_cases u with ⟨s, rfl⟩ | ⟨-, hthins⟩
  · show (c.put s).capacity = c.capacity
    rw [c.put_eq s]
  · exact hthins.capacity

theorem isDisposed_use (c : ScriptCache) (u : Use) : (c.use u).isDisposed = c.isDisposed := by
  unfold isDisposed
  rw [(c.phase_use u).1]

theorem capacity_uses (c : ScriptCache) (us : List Use) : (c.uses us).capacity = c.capacity := by
  induction us generalizing c with
  | nil => rfl
  | cons u us ih => exact (ih (c.use u)).trans (c.capacity_use u)

theorem isDisposed_uses (c : ScriptCache) (us : List Use) :
    (c.uses us).isDisposed = c.isDisposed := by
  induction us generalizing c with
  | nil => rfl
  | cons u us ih => exact (ih (c.use u)).trans (c.isDisposed_use u)

theorem putsOf_cons (u : Use) (us : List Use) :
    putsOf (u :: us) = (CacheCall.use u).put?.toList ++ putsOf us := by
  unfold putsOf
  rw [List.filterMap_cons]
  cases (CacheCall.use u).put? <;> rfl

theorem Holds.uses {c : ScriptCache} {room : Nat} {puts : List CachedScript}
    (h : c.Holds room puts) (us : List Use) : (c.uses us).Holds room (puts ++ putsOf us) := by
  induction us generalizing c puts with
  | nil => simpa [ScriptCache.uses, putsOf] using h
  | cons u us ih =>
      rw [putsOf_cons, ← List.append_assoc]
      exact ih (h.use u)

/-! ## What a use takes out -/

/-- Whether a use takes out what a cache holds for a path. -/
def Use.hits (c : ScriptCache) (path : String) : Use → Bool
  | .put _ | .get _ | .report _ => false
  | .remove q => path = q
  | .clear => true
  | .trim keep => (c.paths.take (c.paths.length - keep)).contains path
  | .invalidate events => events.any fun e => e.hits c.watch? path
  | .settle => c.queue.line.any fun events => events.any fun e => e.hits c.watch? path

/-- **What is found after a use that puts nothing** is what was found before, unless the use takes
it out. -/
theorem get?_use {c : ScriptCache} (hlive : c.isDisposed = false) {u : Use}
    (hnone : (CacheCall.use u).put? = none) (path : String) :
    (c.use u).get? path = if u.hits c path then none else c.get? path := by
  cases u with
  | put s => cases hnone
  | get q => rfl
  | remove q =>
      show (c.entries.erase q).get? path = _
      rw [OrderedMap.get?_erase]
      simp [Use.hits, get?]
  | clear => rfl
  | trim keep =>
      show (c.entries.dropOldest (c.entries.size - keep)).get? path = _
      rw [OrderedMap.get?_dropOldest]
      have hsize : c.entries.size = c.paths.length := (List.length_map Prod.fst).symm
      simp [Use.hits, get?, hsize, paths]
  | invalidate events => exact get?_invalidate hlive events path
  | report events =>
      show (c.onChanges events).get? path = _
      unfold onChanges
      split <;> rfl
  | settle => exact get?_foldl_invalidate hlive c.queue.line path

/-- None of some uses takes out what the cache then holds for a path. -/
def spares (path : String) : ScriptCache → List Use → Bool
  | _, [] => true
  | c, u :: us => !u.hits c path && spares path (c.use u) us

/-! ## Only putting -/

/-- The last of a list from which something has been removed, whether its end is taken before or
after. -/
theorem take_filter_take {l : List String} (nodup : l.Nodup) (path : String) (n : Nat) :
    ((l.take (n + 1)).filter (· != path)).take n = (l.filter (· != path)).take n := by
  induction l generalizing n with
  | nil => rfl
  | cons x l ih =>
      obtain ⟨hx, hl⟩ := List.nodup_cons.mp nodup
      rw [List.take_succ_cons]
      by_cases hpath : x = path
      · subst hpath
        have hkeep : ∀ l' : List String, l'.Sublist l → l'.filter (· != x) = l' := by
          intro l' hsub
          refine List.filter_eq_self.mpr fun y hy => ?_
          rw [bne_iff_ne]
          rintro rfl
          exact hx (hsub.subset hy)
        simp only [List.filter_cons_of_neg (p := (· != x)) (a := x) (by simp)]
        rw [hkeep _ (List.take_sublist n l), hkeep l (List.Sublist.refl l), List.take_take,
          Nat.min_self]
      · have hx' : (x != path) = true := bne_iff_ne.mpr hpath
        simp only [List.filter_cons, hx', if_true]
        cases n with
        | zero => rfl
        | succ n => rw [List.take_succ_cons, List.take_succ_cons, ih hl]

theorem rtake_filter_rtake {l : List String} (nodup : l.Nodup) (path : String) (n : Nat) :
    ((l.rtake (n + 1)).filter (· != path)).rtake n = (l.filter (· != path)).rtake n := by
  simp only [List.rtake_eq_reverse_take_reverse, ← List.filter_reverse, List.reverse_reverse]
  rw [take_filter_take (List.nodup_reverse.mpr nodup)]

/-- A cache that holds the latest of some paths still does after one more has been put. -/
theorem paths_put_latest {c : ScriptCache} (hroom : c.capacity ≠ 0) (hlive : c.isDisposed = false)
    {puts : List String} (h : c.paths = puts.dedup.rtake c.capacity) (s : CachedScript) :
    (c.put s).paths = (puts ++ [s.path]).dedup.rtake c.capacity := by
  obtain ⟨n, hn⟩ := Nat.exists_eq_succ_of_ne_zero hroom
  have hput := paths_put hroom hlive s
  dsimp only at hput
  have hlatest : (c.paths.filter (· != s.path)).drop
      ((c.paths.filter (· != s.path)).length + 1 - c.capacity) =
        (c.paths.filter (· != s.path)).rtake n := by
    rw [List.rtake, hn]
    congr 1
    omega
  rw [hput, hlatest, h, hn, rtake_filter_rtake (List.nodup_dedup puts), dedup_concat]
  exact (List.rtake_concat_succ _ _ _).symm

/-- Whether a use puts a script or looks one up. -/
def Use.isPutOrGet : Use → Bool
  | .put _ | .get _ => true
  | _ => false

theorem uses_eq_foldl_put {us : List Use} (h : ∀ u ∈ us, u.isPutOrGet = true) (c : ScriptCache) :
    c.uses us = (putsOf us).foldl put c := by
  induction us generalizing c with
  | nil => rfl
  | cons u us ih =>
      have hus : ∀ v ∈ us, v.isPutOrGet = true := fun v hv => h v (List.mem_cons_of_mem _ hv)
      have hu := h u List.mem_cons_self
      cases u with
      | put s => exact ih hus (c.put s)
      | get path => exact ih hus c
      | _ => cases hu

theorem paths_foldl_put {c : ScriptCache} (hroom : c.capacity ≠ 0) (hlive : c.isDisposed = false)
    {puts : List String} (h : c.paths = puts.dedup.rtake c.capacity) (ss : List CachedScript) :
    (ss.foldl put c).paths = (puts ++ ss.map CachedScript.path).dedup.rtake c.capacity := by
  induction ss generalizing c puts with
  | nil => simpa using h
  | cons s ss ih =>
      have hcapacity : (c.put s).capacity = c.capacity := c.capacity_use (.put s)
      have hlive' : (c.put s).isDisposed = false := (c.isDisposed_use (.put s)).trans hlive
      have hput := paths_put_latest hroom hlive h s
      rw [← hcapacity] at hput hroom
      have hrest := ih hroom hlive' hput
      rw [hcapacity] at hrest
      simpa using hrest

/-! ## Counting since the latest put -/

theorem mem_take_append_cons {newer older : List String} {path : String} (h : path ∉ newer)
    (n : Nat) : path ∈ (newer ++ path :: older).take n ↔ newer.length < n := by
  rw [List.take_append]
  constructor
  · intro hmem
    rcases List.mem_append.mp hmem with hnewer | holder
    · exact absurd (List.mem_of_mem_take hnewer) h
    · refine Decidable.byContradiction fun hle => ?_
      rw [show n - newer.length = 0 by omega] at holder
      cases holder
  · intro hlt
    apply List.mem_append_right
    rw [show n - newer.length = (n - newer.length - 1) + 1 by omega, List.take_succ_cons]
    exact List.mem_cons_self

/-- Among the latest of some paths is the one that was put before fewer others than these. -/
theorem mem_latest_iff {before after : List String} {path : String} (h : path ∉ after) (n : Nat) :
    path ∈ (before ++ path :: after).dedup.rtake n ↔ after.dedup.length < n := by
  obtain ⟨older, holder⟩ : (path :: after.dedup) <:+ (before ++ path :: after).dedup := by
    rw [List.dedup_append, List.dedup_cons_of_notMem h]
    exact List.suffix_union_right _ _
  rw [← holder, List.rtake_eq_reverse_take_reverse, List.mem_reverse, List.reverse_append,
    List.reverse_cons, List.append_assoc, List.singleton_append, mem_take_append_cons,
    List.length_reverse]
  simpa using h

/-- A script that is listed is the one that was put for its path last. -/
theorem Holds.get?_latest {c : ScriptCache} {room : Nat} {before after : List CachedScript}
    {s : CachedScript} (h : c.Holds room (before ++ s :: after))
    (hafter : s.path ∉ after.map CachedScript.path) (hlisted : s.path ∈ c.paths) :
    c.get? s.path = some s := by
  obtain ⟨x, hx⟩ := Option.isSome_iff_exists.mp (OrderedMap.isSome_get?.mpr hlisted)
  obtain ⟨-, hlatest⟩ := h.latest (s.path, x) (OrderedMap.mem_entries_iff.mpr hx)
  have hnone : after.reverse.find? (fun x => x.path == s.path) = none := by
    refine List.find?_eq_none.mpr fun y hy hpath => hafter ?_
    rw [← beq_iff_eq.mp hpath]
    exact List.mem_map_of_mem (List.mem_reverse.mp hy)
  rw [List.reverse_append, List.reverse_cons, List.append_assoc, List.find?_append, hnone,
    Option.none_or, List.singleton_append, List.find?_cons_of_pos (by simp)] at hlatest
  exact hx.trans hlatest.symm

/-! ## Uses in between -/

/-- A path is held, and behind it only paths that were put since. -/
def Recent (c : ScriptCache) (path : String) (since : List String) : Prop :=
  ∃ older newer, c.paths = older ++ path :: newer ∧ newer ⊆ since

/-- Where entries go but not that of the path, it is as recent as before. -/
theorem Recent.thins {c d : ScriptCache} {path : String} {since : List String}
    (h : c.Recent path since) (hthins : c.Thins d) (hlisted : path ∈ d.paths) :
    d.Recent path since := by
  obtain ⟨older, newer, hpaths, hnewer⟩ := h
  have hsub : d.paths.Sublist (older ++ path :: newer) := by
    rw [← hpaths]
    exact hthins.entries.map Prod.fst
  have hnodup : (older ++ path :: newer).Nodup := hpaths ▸ c.entries.nodup
  obtain ⟨-, hcons, hdisjoint⟩ := List.nodup_append.mp hnodup
  obtain ⟨left, right, hd, hleft, hright⟩ := List.sublist_append_iff.mp hsub
  rw [hd] at hlisted
  have hmem : path ∈ right := by
    rcases List.mem_append.mp hlisted with hl | hr
    · exact absurd rfl (hdisjoint path (hleft.subset hl) path List.mem_cons_self)
    · exact hr
  rcases List.sublist_cons_iff.mp hright with hright | ⟨rest, rfl, hrest⟩
  · exact absurd (hright.subset hmem) (List.nodup_cons.mp hcons).1
  · exact ⟨left, rest, hd, fun x hx => hnewer (hrest.subset hx)⟩

/-- Putting another script leaves a path that fewer others have been put behind than there is room
for. -/
theorem Recent.put {c : ScriptCache} {path : String} {since : List String} (hroom : c.capacity ≠ 0)
    (hlive : c.isDisposed = false) (h : c.Recent path since) {s : CachedScript}
    (hother : s.path ≠ path) (hfew : (since ++ [s.path]).dedup.length < c.capacity) :
    (c.put s).Recent path (since ++ [s.path]) := by
  obtain ⟨older, newer, hpaths, hnewer⟩ := h
  have hput := paths_put hroom hlive s
  dsimp only at hput
  have hothers : c.paths.filter (· != s.path) =
      older.filter (· != s.path) ++ path :: newer.filter (· != s.path) := by
    rw [hpaths, List.filter_append, List.filter_cons_of_pos (by simpa using hother.symm)]
  generalize older.filter (· != s.path) = older' at hothers
  have hnewer' : newer.filter (· != s.path) ++ [s.path] ⊆ (since ++ [s.path]).dedup := by
    intro x hx
    rw [List.mem_dedup]
    rcases List.mem_append.mp hx with hx | hx
    · exact List.mem_append_left _ (hnewer (List.mem_filter.mp hx).1)
    · exact List.mem_append_right _ hx
  have hnodup : (newer.filter (· != s.path) ++ [s.path]).Nodup := by
    have hall : (older ++ path :: newer).Nodup := hpaths ▸ c.entries.nodup
    have hright := (List.nodup_cons.mp (List.nodup_append.mp hall).2.1).2
    refine List.nodup_append.mpr ⟨hright.filter _, List.nodup_singleton _, ?_⟩
    intro x hx y hy
    rw [List.mem_singleton.mp hy]
    exact bne_iff_ne.mp (List.mem_filter.mp hx).2
  -- The paths behind it and the new one are so few that what goes stands before it.
  have hlength := (List.subperm_of_subset hnodup hnewer').length_le
  rw [List.length_append, List.length_singleton] at hlength
  generalize newer.filter (· != s.path) = newer' at hothers hnewer' hlength
  refine ⟨older'.drop ((c.paths.filter (· != s.path)).length + 1 - c.capacity),
    newer' ++ [s.path], ?_, fun x hx => List.mem_dedup.mp (hnewer' hx)⟩
  rw [hput, hothers, List.drop_append_of_le_length, List.append_assoc, List.cons_append]
  rw [List.length_append, List.length_cons]
  omega

/-- **What nothing takes out stays** while fewer others are put than there is room for. -/
theorem Recent.uses {c : ScriptCache} {path : String} {since : List String}
    (hroom : c.capacity ≠ 0) (hlive : c.isDisposed = false) (h : c.Recent path since)
    {us : List Use} (hothers : path ∉ (putsOf us).map CachedScript.path)
    (hspared : spares path c us = true)
    (hfew : (since ++ (putsOf us).map CachedScript.path).dedup.length < c.capacity) :
    path ∈ (c.uses us).paths := by
  induction us generalizing c since with
  | nil =>
      obtain ⟨older, newer, hpaths, -⟩ := h
      show path ∈ c.paths
      rw [hpaths]
      exact List.mem_append_right _ List.mem_cons_self
  | cons u us ih =>
      have hcapacity := c.capacity_use u
      have hlive' : (c.use u).isDisposed = false := (c.isDisposed_use u).trans hlive
      simp only [spares, Bool.and_eq_true, Bool.not_eq_true'] at hspared
      obtain ⟨hmissed, hspared⟩ := hspared
      rw [← hcapacity] at hfew
      rcases c.use_cases u with ⟨s, rfl⟩ | ⟨hnone, hthins⟩
      · have hputs : (putsOf (.put s :: us)).map CachedScript.path =
            [s.path] ++ (putsOf us).map CachedScript.path := by
          rw [putsOf_cons]
          rfl
        rw [hputs, ← List.append_assoc] at hfew
        rw [hputs, List.singleton_append, List.mem_cons, not_or] at hothers
        have hfirst : (since ++ [s.path]).dedup.length < c.capacity := by
          refine Nat.lt_of_le_of_lt ?_ (hcapacity ▸ hfew)
          apply List.Subperm.length_le
          apply List.subperm_of_subset (List.nodup_dedup _)
          intro x hx
          exact List.mem_dedup.mpr (List.mem_append_left _ (List.mem_dedup.mp hx))
        have hrecent := h.put hroom hlive (Ne.symm hothers.1) hfirst
        exact ih (hcapacity ▸ hroom) hlive' hrecent hothers.2 hspared hfew
      · have hputs : putsOf (u :: us) = putsOf us := by
          rw [putsOf_cons, hnone]
          rfl
        rw [hputs] at hothers hfew
        have hlisted : path ∈ (c.use u).paths := by
          obtain ⟨older, newer, hpaths, -⟩ := h
          have hbefore : path ∈ c.paths := by
            rw [hpaths]
            exact List.mem_append_right _ List.mem_cons_self
          apply OrderedMap.isSome_get?.mp
          have hget : (c.use u).entries.get? path = c.entries.get? path := by
            have hget := get?_use hlive hnone path
            rwa [hmissed] at hget
          rw [hget]
          exact OrderedMap.isSome_get?.mpr hbefore
        exact ih (hcapacity ▸ hroom) hlive' (h.thins hthins hlisted) hothers hspared hfew

/-! ## The latest puts -/

/-- A script that has just been put is held, and nothing behind it. -/
theorem recent_put {c : ScriptCache} (hroom : c.capacity ≠ 0) (hlive : c.isDisposed = false)
    (s : CachedScript) : (c.put s).Recent s.path [] :=
  ⟨_, [], paths_put hroom hlive s, List.nil_subset _⟩

/-- **The script that was put the longest ago goes, and none goes early.** While scripts are only
put and looked up, a cache with room that starts empty holds the latest of the paths that were put,
as many as there is room for and in the order of the latest put of each, and looking up has no
influence. So of a path the script that was put last is found exactly if fewer other paths than that
have been put since. And whatever else is done, it is found if fewer have been and nothing has taken
it out. -/
theorem latest_puts_stay {c : ScriptCache} (hempty : c.entries = .empty) (hroom : c.capacity ≠ 0)
    (hlive : c.isDisposed = false) :
    (∀ us : List Use, (∀ u ∈ us, u.isPutOrGet = true) →
      c.uses us = (putsOf us).foldl put c ∧
      (c.uses us).paths = ((putsOf us).map CachedScript.path).dedup.rtake c.capacity ∧
      ∀ before s after, putsOf us = before ++ s :: after →
        s.path ∉ after.map CachedScript.path →
        (c.uses us).get? s.path =
          if (after.map CachedScript.path).dedup.length < c.capacity then some s else none) ∧
      ∀ (earlier later : List Use) (s : CachedScript),
        s.path ∉ (putsOf later).map CachedScript.path →
        spares s.path (c.uses (earlier ++ [.put s])) later = true →
        ((putsOf later).map CachedScript.path).dedup.length < c.capacity →
        (c.uses (earlier ++ .put s :: later)).get? s.path = some s := by
  have hholds : c.Holds c.capacity [] := holds_of_empty (congrArg OrderedMap.entries hempty) []
  refine ⟨fun us honly => ?_, fun earlier later s hothers hspared hfew => ?_⟩
  · have hputs := uses_eq_foldl_put honly c
    have hpaths : (c.uses us).paths =
        ((putsOf us).map CachedScript.path).dedup.rtake c.capacity := by
      have hstart : c.paths = ([] : List String).dedup.rtake c.capacity := by
        show c.entries.keys = _
        simp [hempty]
      rw [hputs]
      exact paths_foldl_put hroom hlive hstart (putsOf us)
    refine ⟨hputs, hpaths, fun before s after hsplit hafter => ?_⟩
    have hlisted : s.path ∈ (c.uses us).paths ↔
        (after.map CachedScript.path).dedup.length < c.capacity := by
      rw [hpaths, hsplit, List.map_append, List.map_cons]
      exact mem_latest_iff hafter c.capacity
    split
    · next hfew =>
        have hlatest := hholds.uses us
        rw [List.nil_append, hsplit] at hlatest
        exact hlatest.get?_latest hafter (hlisted.mpr hfew)
    · next hmany =>
        apply OrderedMap.get?_eq_none_iff.mpr
        intro hmem
        exact hmany (hlisted.mp hmem)
  · have hsplit : c.uses (earlier ++ .put s :: later) =
        (c.uses (earlier ++ [.put s])).uses later := by
      simp [ScriptCache.uses]
    have hlast : c.uses (earlier ++ [.put s]) = (c.uses earlier).put s := by
      simp [ScriptCache.uses, use]
    have hroom' : (c.uses earlier).capacity ≠ 0 := by rwa [capacity_uses]
    have hlive' : (c.uses earlier).isDisposed = false := by rwa [isDisposed_uses]
    have hrecent : (c.uses (earlier ++ [.put s])).Recent s.path [] := by
      rw [hlast]
      exact recent_put hroom' hlive' s
    have hlisted : s.path ∈ (c.uses (earlier ++ .put s :: later)).paths := by
      rw [hsplit]
      refine hrecent.uses ?_ ?_ hothers hspared ?_
      · rwa [capacity_uses]
      · rwa [isDisposed_uses]
      · rwa [capacity_uses, List.nil_append]
    have hlatest := hholds.uses (earlier ++ .put s :: later)
    have hputs : putsOf (earlier ++ .put s :: later) = putsOf earlier ++ s :: putsOf later := by
      simp [putsOf, CacheCall.put?]
    rw [List.nil_append, hputs] at hlatest
    exact hlatest.get?_latest hothers hlisted

end ScriptCache

/-! ## Three of four scripts -/

namespace Sample

open ScriptCache

/-- Four scripts are put into a cache, one of them twice, and another is looked up before it
goes. -/
def crowd : List Use :=
  [.put (kept "/1"), .put (kept "/2"), .put (kept "/3"), .get "/2", .put (kept "/1"),
    .put (kept "/4")]

/-- Others come, and most of them are taken out again. -/
def passersBy : List Use :=
  [.put (kept "/a/5"), .invalidate [.removed "/a", .changed "/4"], .put (kept "/6"),
    .remove "/1", .trim 2]

end Sample

namespace ScriptCache

open Sample

/-- The second script goes, since three others have been put behind it, and the fourth stays. -/
theorem latest_puts_stay_crowded :
    ((new 3 []).uses crowd).paths = ["/3", "/1", "/4"] ∧
      ((new 3 []).uses crowd).get? "/2" = none ∧
      ((new 3 []).uses (crowd ++ .put (kept "/7") :: passersBy)).get? "/7" = some (kept "/7") := by
  obtain ⟨honly, hany⟩ := latest_puts_stay (c := new 3 []) rfl (by decide) rfl
  obtain ⟨-, hpaths, hlatest⟩ := honly crowd (by decide)
  refine ⟨?_, ?_, ?_⟩
  · rw [hpaths]
    decide
  · exact hlatest [kept "/1"] (kept "/2") [kept "/3", kept "/1", kept "/4"] rfl (by decide)
  · exact hany crowd passersBy (kept "/7") (by decide) (by cbv) (by decide)

end ScriptCache

end ScriptHost
