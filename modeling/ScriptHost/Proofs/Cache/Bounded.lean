import Mathlib.Data.List.Dedup
import ScriptHost.Proofs.Cache.Following

/-! # What a bounded cache holds

Whatever is asked of a cache, in whatever order, it holds no more scripts than it has room for, one
for a path, in the order in which they were put there last. Only putting a script brings one in; all
else leaves some of the entries, in their order (`ScriptCache.Leaves`). The invariant
`ScriptCache.Holds` compares the entries with all the scripts that were ever put. -/

namespace ScriptHost

/-! ## What is asked of a cache -/

namespace ScriptCache

/-- What is done with the scripts of a cache. -/
inductive Use where
  | put (s : CachedScript)
  | get (path : String)
  | remove (path : String)
  | clear
  | trim (keep : Nat)
  | invalidate (events : List ChangeEvent)
  /-- A batch of reports is put in line. -/
  | report (events : List ChangeEvent)
  /-- The background gets the time it needs. -/
  | settle

/-- The cache after a use of it. Looking a script up leaves it as it is. -/
def use (c : ScriptCache) : Use → ScriptCache
  | .put s => c.put s
  | .get _ => c
  | .remove path => (c.remove path).2
  | .clear => c.clear
  | .trim keep => (c.trim keep).2
  | .invalidate events => c.invalidate events
  | .report events => c.onChanges events
  | .settle => c.settle

end ScriptCache

/-- What can be asked of a cache over its life. The registries and the source around it may change
in any way in between. -/
inductive CacheCall where
  | use (u : ScriptCache.Use)
  | activate (index : Nat)
  | engines (s : Snapshot)
  | dispose
  | meanwhile (registries : Nat → EngineRegistry Subscriber) (source : Option ChangeSource)

namespace CacheCall

/-- The script that is put by a call. -/
def put? : CacheCall → Option CachedScript
  | .use (.put s) => some s
  | _ => none

/-- All scripts that are put, in order. -/
def puts (calls : List CacheCall) : List CachedScript :=
  calls.filterMap put?

end CacheCall

namespace Installation

def call (i : Installation) : CacheCall → Installation
  | .use u => { i with cache := i.cache.use u }
  | .activate index => i.activate index
  | .engines s => i.onEngines s
  | .dispose => i.dispose.2
  | .meanwhile registries source => { i with registries, source }

def calling (i : Installation) (calls : List CacheCall) : Installation :=
  calls.foldl call i

end Installation

namespace ScriptCache

/-! ## What is left -/

/-- Of the entries of a cache some are left, in their order, and none at the end of its life. -/
structure Leaves (c d : ScriptCache) : Prop where
  capacity : d.capacity = c.capacity
  entries : d.entries.entries.Sublist c.entries.entries
  ended : d.isDisposed = true → c.isDisposed = true ∨ d.entries.entries = []

theorem Leaves.refl (c : ScriptCache) : c.Leaves c :=
  ⟨rfl, List.Sublist.refl _, fun h => .inl h⟩

theorem Thins.leaves {c d : ScriptCache} (h : c.Thins d) : c.Leaves d :=
  ⟨h.capacity, h.entries, fun hover => .inl (h.isDisposed ▸ hover)⟩

/-- A use puts a script, or takes entries away at most. -/
theorem use_cases (c : ScriptCache) (u : Use) :
    (∃ s, u = .put s) ∨ ((CacheCall.use u).put? = none ∧ c.Thins (c.use u)) := by
  cases u with
  | put s => exact .inl ⟨s, rfl⟩
  | get path => exact .inr ⟨rfl, .refl c⟩
  | remove path => exact .inr ⟨rfl, c.thins_remove path⟩
  | clear => exact .inr ⟨rfl, c.thins_clear⟩
  | trim keep => exact .inr ⟨rfl, c.thins_trim keep⟩
  | invalidate events => exact .inr ⟨rfl, c.thins_invalidate events⟩
  | report events => exact .inr ⟨rfl, c.thins_onChanges events⟩
  | settle => exact .inr ⟨rfl, c.thins_settle⟩

/-- A use leaves the life of a cache as it is. -/
theorem phase_use (c : ScriptCache) (u : Use) :
    (c.use u).phase = c.phase ∧ (c.use u).additional = c.additional := by
  rcases c.use_cases u with ⟨s, rfl⟩ | ⟨-, hthins⟩
  · show (c.put s).phase = c.phase ∧ (c.put s).additional = c.additional
    rw [c.put_eq s]
    exact ⟨rfl, rfl⟩
  · exact ⟨hthins.phase, hthins.additional⟩

/-! ## The invariant -/

/-- **The invariant**: the cache has room for what it holds; the paths stand in the order in which
they were put last, and under each is the script that was put there last. -/
structure Holds (c : ScriptCache) (room : Nat) (puts : List CachedScript) : Prop where
  capacity : c.capacity = room
  bounded : c.entries.size ≤ room
  ordered : c.paths.Sublist (puts.map CachedScript.path).dedup
  latest : ∀ e ∈ c.entries.entries, e.2.path = e.1 ∧
    puts.reverse.find? (fun s => s.path == e.1) = some e.2
  ended : c.isDisposed = true → c.entries.entries = []

theorem holds_new (capacity : Nat) (additional : List String) :
    (ScriptCache.new capacity additional).Holds capacity [] :=
  ⟨rfl, Nat.zero_le _, List.nil_sublist _, by rintro e ⟨⟩, fun _ => rfl⟩

/-- What puts no script keeps the invariant. -/
theorem Holds.leaves {c d : ScriptCache} {room : Nat} {puts : List CachedScript}
    (h : c.Holds room puts) (hd : c.Leaves d) : d.Holds room (puts ++ []) := by
  rw [List.append_nil]
  refine ⟨hd.capacity.trans h.capacity, ?_, ?_, ?_, ?_⟩
  · exact Nat.le_trans hd.entries.length_le h.bounded
  · exact (hd.entries.map Prod.fst).trans h.ordered
  · intro e he
    exact h.latest e (hd.entries.subset he)
  · intro hover
    rcases hd.ended hover with hover | hnil
    · rw [← List.sublist_nil, ← h.ended hover]
      exact hd.entries
    · exact hnil

/-- A cache that holds nothing holds what it is to hold. -/
theorem holds_of_empty {c : ScriptCache} (h : c.entries.entries = []) (puts : List CachedScript) :
    c.Holds c.capacity puts := by
  refine ⟨rfl, ?_, ?_, ?_, fun _ => h⟩
  · show c.entries.entries.length ≤ c.capacity
    rw [h]
    exact Nat.zero_le _
  · show (c.entries.entries.map Prod.fst).Sublist _
    rw [h]
    exact List.nil_sublist _
  · intro e he
    rw [h] at he
    cases he

/-- A path that is put again goes to the end of the order. -/
theorem dedup_concat (paths : List String) (path : String) :
    (paths ++ [path]).dedup = paths.dedup.filter (· != path) ++ [path] := by
  induction paths with
  | nil => rfl
  | cons p rest ih =>
      by_cases hp : p ∈ rest
      · rw [List.cons_append, List.dedup_cons_of_mem (List.mem_append_left _ hp),
          List.dedup_cons_of_mem hp, ih]
      · rw [List.dedup_cons_of_notMem hp]
        by_cases hpath : p = path
        · subst hpath
          have hlast : p ∈ rest ++ [p] := by simp
          rw [List.cons_append, List.dedup_cons_of_mem hlast, ih]
          simp
        · have hnew : p ∉ rest ++ [path] := by simp [hp, hpath]
          rw [List.cons_append, List.dedup_cons_of_notMem hnew, ih]
          simp [hpath]

/-- What a cache that keeps a script then holds: the latest of the others, as far as there is room
beside it, and the script at the end. -/
theorem entries_put {c : ScriptCache} (hcapacity : c.capacity ≠ 0) (hlive : c.isDisposed = false)
    (s : CachedScript) :
    (c.put s).entries.entries =
      (c.entries.erase s.path).entries.drop ((c.entries.erase s.path).size + 1 - c.capacity) ++
        [(s.path, s)] := by
  have hput : ¬ (c.capacity = 0 ∨ c.isDisposed = true) := by simp [hcapacity, hlive]
  unfold put
  rw [if_neg hput]
  refine OrderedMap.entries_insert_of_not_mem ?_ s
  intro hmem
  have hkept : s.path ∈ (c.entries.erase s.path).keys :=
    ((List.drop_sublist _ _).map Prod.fst).subset hmem
  rw [OrderedMap.keys_erase] at hkept
  simp at hkept

/-- The others keep their order, the oldest of them go where there is no room, and the path that is
put comes last. -/
theorem paths_put {c : ScriptCache} (hcapacity : c.capacity ≠ 0) (hlive : c.isDisposed = false)
    (s : CachedScript) :
    let others := c.paths.filter (· != s.path)
    (c.put s).paths = others.drop (others.length + 1 - c.capacity) ++ [s.path] := by
  intro others
  have hothers : (c.entries.erase s.path).entries.map Prod.fst = others :=
    c.entries.keys_erase s.path
  have hsize : (c.entries.erase s.path).size = others.length := by
    rw [← hothers, List.length_map]
    rfl
  show (c.put s).entries.entries.map Prod.fst = _
  rw [entries_put hcapacity hlive, List.map_append, List.map_drop, hothers, hsize,
    List.map_singleton]

/-- **A script that is put** is the last entry and the latest for its path. -/
theorem Holds.put {c : ScriptCache} {room : Nat} {puts : List CachedScript}
    (h : c.Holds room puts) (s : CachedScript) :
    (c.put s).Holds room (puts ++ [s]) := by
  obtain rfl := h.capacity
  by_cases hskip : c.capacity = 0 ∨ c.isDisposed = true
  · -- Nothing is kept, and there was nothing.
    have hnil : c.entries.entries = [] := by
      rcases hskip with hzero | hover
      · exact List.eq_nil_of_length_eq_zero (Nat.le_zero.mp (hzero ▸ h.bounded))
      · exact h.ended hover
    have hsame : c.put s = c := by
      unfold ScriptCache.put
      rw [if_pos hskip]
    rw [hsame]
    exact holds_of_empty hnil (puts ++ [s])
  · obtain ⟨hcapacity, hlive⟩ := not_or.mp hskip
    have hlive : c.isDisposed = false := by simpa using hlive
    have hentries := entries_put hcapacity hlive s
    have hkept : ((c.entries.erase s.path).entries.drop
        ((c.entries.erase s.path).size + 1 - c.capacity)).Sublist
          (c.entries.erase s.path).entries :=
      List.drop_sublist _ _
    have hput := c.put_eq s
    refine ⟨?_, ?_, ?_, ?_, ?_⟩
    · rw [hput]
    · show (c.put s).entries.entries.length ≤ c.capacity
      rw [hentries, List.length_append, List.length_drop, List.length_singleton]
      unfold OrderedMap.size
      omega
    · rw [paths_put hcapacity hlive s, List.map_append, List.map_singleton, dedup_concat]
      refine List.Sublist.append ?_ (List.Sublist.refl _)
      exact (List.drop_sublist _ _).trans (h.ordered.filter _)
    · intro e he
      rw [hentries] at he
      rw [List.reverse_append, List.reverse_singleton, List.singleton_append, List.find?_cons]
      rcases List.mem_append.mp he with he | he
      · obtain ⟨hmem, hne⟩ := List.mem_filter.mp (hkept.subset he)
        have hother : ¬ s.path = e.1 := fun heq => by simp [heq] at hne
        rw [beq_false_of_ne hother]
        exact h.latest e hmem
      · cases List.mem_singleton.mp he
        simp
    · intro hover
      rw [hput] at hover
      exact absurd hover (not_or.mp hskip).2

/-- Every use keeps the invariant. -/
theorem Holds.use {c : ScriptCache} {room : Nat} {puts : List CachedScript}
    (h : c.Holds room puts) (u : Use) :
    (c.use u).Holds room (puts ++ (CacheCall.use u).put?.toList) := by
  rcases c.use_cases u with ⟨s, rfl⟩ | ⟨hnone, hthins⟩
  · exact h.put s
  · rw [hnone]
    exact h.leaves hthins.leaves

end ScriptCache

/-! ## The life of a cache -/

namespace Installation

open ScriptCache

theorem leaves_onEngines (i : Installation) (s : Snapshot) :
    i.cache.Leaves (i.onEngines s).cache := by
  unfold onEngines
  split
  · split
    · exact .refl i.cache
    · dsimp only
      split
      · exact ⟨rfl, List.nil_sublist _, fun _ => .inr rfl⟩
      · exact ⟨rfl, List.nil_sublist _, fun _ => .inr rfl⟩
  · exact .refl i.cache

theorem leaves_activate (i : Installation) (index : Nat) :
    i.cache.Leaves (i.activate index).cache := by
  unfold activate
  simp only [cache_setRegistry]
  cases i.cache.phase with
  | unconfigured => exact ⟨rfl, List.nil_sublist _, fun _ => .inr rfl⟩
  | active a => exact ⟨rfl, List.nil_sublist _, fun _ => .inr rfl⟩
  | disposed => exact .refl i.cache

theorem leaves_dispose (i : Installation) : i.cache.Leaves i.dispose.2.cache := by
  obtain ⟨-, hempty, -⟩ := i.dispose_spec 0
  have hnil : i.dispose.2.cache.entries.entries = [] := congrArg OrderedMap.entries hempty
  refine ⟨?_, ?_, fun _ => .inr hnil⟩
  · unfold dispose
    refine (thins_settle _).capacity.trans ?_
    dsimp only
    split <;> rfl
  · rw [hnil]
    exact List.nil_sublist _

/-- **The step lemma**: every call keeps the invariant. -/
theorem holds_call {i : Installation} {room : Nat} {puts : List CachedScript}
    (h : i.cache.Holds room puts) (c : CacheCall) :
    (i.call c).cache.Holds room (puts ++ c.put?.toList) := by
  cases c with
  | use u => exact h.use u
  | activate index => exact h.leaves (i.leaves_activate index)
  | engines s => exact h.leaves (i.leaves_onEngines s)
  | dispose => exact h.leaves i.leaves_dispose
  | meanwhile registries source => exact h.leaves (.refl i.cache)

theorem holds_calling {i : Installation} {room : Nat} {puts : List CachedScript}
    (h : i.cache.Holds room puts) (calls : List CacheCall) :
    (i.calling calls).cache.Holds room (puts ++ CacheCall.puts calls) := by
  induction calls generalizing i puts with
  | nil => simpa [calling, CacheCall.puts] using h
  | cons c rest ih =>
      have hputs : CacheCall.puts (c :: rest) = c.put?.toList ++ CacheCall.puts rest := by
        unfold CacheCall.puts
        rw [List.filterMap_cons]
        cases c.put? <;> rfl
      rw [hputs, ← List.append_assoc]
      exact ih (holds_call h c)

/-- **A cache holds no more than it has room for**, each path once, and the paths in the order in
which they were put last (`dedup` keeps the last occurrence of each). A path has an entry exactly if
it is listed, and that is the script that was put there last. As long as the cache lives and has any
room, what is put comes last, and only the oldest go for it. -/
theorem holds_latest_puts (capacity : Nat) (additional : List String)
    (registries : Nat → EngineRegistry Subscriber) (source : Option ChangeSource)
    (calls : List CacheCall) :
    let c := (calling ⟨registries, .new capacity additional, source⟩ calls).cache
    c.entries.size ≤ capacity ∧ c.paths.Nodup ∧
      c.paths.Sublist ((CacheCall.puts calls).map CachedScript.path).dedup ∧
      (∀ path, (c.get? path).isSome ↔ path ∈ c.paths) ∧
      (∀ path s, c.get? path = some s → s.path = path ∧
        (CacheCall.puts calls).reverse.find? (fun x => x.path == path) = some s) ∧
      (capacity ≠ 0 → c.isDisposed = false → ∀ s,
        let others := c.paths.filter (· != s.path)
        (c.put s).paths = others.drop (others.length + 1 - capacity) ++ [s.path]) := by
  intro c
  have hholds : c.Holds capacity (CacheCall.puts calls) :=
    holds_calling (i := ⟨registries, .new capacity additional, source⟩)
      (holds_new capacity additional) calls
  refine ⟨hholds.bounded, c.entries.nodup, hholds.ordered, ?_, ?_, ?_⟩
  · intro path
    exact OrderedMap.isSome_get?
  · intro path s hs
    exact hholds.latest (path, s) (OrderedMap.mem_entries_iff.mpr hs)
  · intro hcapacity hlive s
    have hput := paths_put (hholds.capacity.symm ▸ hcapacity) hlive s
    rwa [hholds.capacity] at hput

end Installation

namespace Sample

/-- A script that is only there to be kept. -/
def kept (path : String) : CachedScript :=
  ⟨path, 0, fun _ => .done (.ok .null)⟩

end Sample

end ScriptHost
