import ScriptHost.Change
import ScriptHost.Engine
import ScriptHost.Engine.Association
import ScriptHost.Queue

/-!
# The script cache

Compiled scripts by path, in the order of their latest insertion. Where the cache is full the oldest
goes. Reports of changes remove what they hit.
-/

namespace ScriptHost

structure CachedScript where
  path : String
  program : Program

def CachedScript.outline (s : CachedScript) : String :=
  "CachedScript \x7b path: " ++ Text.quoted s.path ++ ", .. \x7d"

/-- What a cache knows while it is active: the engines it was last told of, the paths it watches,
and its two subscriptions. -/
structure Activity where
  generation : Nat
  watch : WatchSet
  subscription : Option Nat
  /-- The registry it follows, and its number among the listeners there. -/
  registry : Nat
  listener : Nat

inductive Phase where
  | unconfigured
  | active (a : Activity)
  | disposed

def Phase.name : Phase → String
  | .unconfigured => "unconfigured"
  | .active _ => "active"
  | .disposed => "disposed"

structure ScriptCache where
  capacity : Nat
  /-- Extensions to be watched beside those of the engines. -/
  additional : NameSet
  entries : OrderedMap String CachedScript
  phase : Phase
  queue : BackgroundQueue (List ChangeEvent)

namespace ScriptCache

def new (capacity : Nat) (additional : List String) : ScriptCache :=
  ⟨capacity, .ofList (additional.filterMap Association.form?), .empty, .unconfigured, {}⟩

def isDisposed (c : ScriptCache) : Bool :=
  match c.phase with
  | .disposed => true
  | _ => false

/-! ## Entries -/

def get? (c : ScriptCache) (path : String) : Option CachedScript :=
  c.entries.get? path

/-- Keeps a script as the latest. A cache without capacity keeps none. -/
def put (c : ScriptCache) (s : CachedScript) : ScriptCache :=
  if c.capacity = 0 ∨ c.isDisposed then c
  else
    let others := c.entries.erase s.path
    let kept := others.dropOldest (others.size + 1 - c.capacity)
    { c with entries := kept.insert s.path s }

/-- Removes a script; whether there was one. -/
def remove (c : ScriptCache) (path : String) : Bool × ScriptCache :=
  (c.entries.contains path, { c with entries := c.entries.erase path })

def clear (c : ScriptCache) : ScriptCache :=
  { c with entries := .empty }

/-- Removes the oldest scripts beyond a number, and tells how many. -/
def trim (c : ScriptCache) (keep : Nat) : Nat × ScriptCache :=
  let excess := c.entries.size - keep
  (excess, { c with entries := c.entries.dropOldest excess })

def paths (c : ScriptCache) : List String :=
  c.entries.keys

/-! ## Changes -/

/-- The paths whose changes count, where that is limited. -/
def watch? (c : ScriptCache) : Option WatchSet :=
  match c.phase with
  | .active a => some a.watch
  | _ => none

def watchPatterns (c : ScriptCache) : List String :=
  match c.watch? with
  | some w => w.patterns
  | none => []

/-- Removes the scripts that one report hits. -/
def drop (watch : Option WatchSet) (entries : OrderedMap String CachedScript) (e : ChangeEvent) :
    OrderedMap String CachedScript :=
  match e with
  | .changed path =>
    if watch.all fun w => w.selects path then entries.erase path else entries
  | .removed path => (entries.erase path).filter fun p _ => !isBelow path p

/-- Removes the scripts that a batch of reports hits, one report after the other. -/
def invalidate (c : ScriptCache) (events : List ChangeEvent) : ScriptCache :=
  if c.isDisposed then c
  else { c with entries := events.foldl (drop c.watch?) c.entries }

/-- Hands a batch of reports to the background. -/
def onChanges (c : ScriptCache) (events : List ChangeEvent) : ScriptCache :=
  if events.isEmpty then c else { c with queue := (c.queue.submit events).2 }

/-- Lets the background do what is in its line. -/
def settle (c : ScriptCache) : ScriptCache :=
  { c.queue.line.foldl invalidate c with
    queue := c.queue.settle (fun _ => false) (fun _ => false) }

end ScriptCache

end ScriptHost
