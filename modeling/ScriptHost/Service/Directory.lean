import ScriptHost.Service.Cache

/-!
# A service directory in memory

A directory that services are published in and withdrawn from, together with the cache over it. It
can be told to fail, to report a change in the middle of an answer, and to ask the cache itself once
while it answers.
-/

namespace ScriptHost

/-- A service as it is published: with a tag that filters select, and perhaps listed under every
capability. -/
structure Listing where
  service : Service
  tag : Option String := none
  stray : Bool := false

structure Directory where
  listings : List Listing := []
  failing : Bool := false
  /-- Whether every answer comes with the report of a change. -/
  racing : Bool := false
  /-- Whether the next answer asks the cache as well. -/
  reentering : Bool := false
  /-- How often the directory was asked. -/
  lookups : Nat := 0

namespace Directory

def isBracket (c : Char) : Bool := c = '(' || c = ')'

/-- The tag that a filter selects: the filter without the brackets around it. -/
def tagOf (filter : String) : String :=
  String.ofList ((filter.toList.dropWhile isBracket).reverse.dropWhile isBracket).reverse

/-- Whether a listing answers a query. -/
def Listing.answers (q : Query) (l : Listing) : Bool :=
  l.stray || (l.service.capability = q.capability &&
    match q.filter with
    | none => true
    | some filter => l.tag = some (tagOf filter))

/-- What the directory answers in its present state. -/
def answer (d : Directory) (q : Query) : Answer :=
  if d.failing then .error .unavailable
  else match q.filter with
    | some filter =>
      if filter.toList.head? = some '(' then
        .ok ((d.listings.filter (Listing.answers q)).map Listing.service)
      else .error (.invalidFilter filter "malformed")
    | none => .ok ((d.listings.filter (Listing.answers q)).map Listing.service)

def publish (d : Directory) (l : Listing) : Directory :=
  { d with listings := d.listings ++ [l] }

/-- The first listing with a number, and the directory without it. -/
def withdraw? (d : Directory) (id : Nat) : Option (Listing × Directory) :=
  (d.listings.find? fun l => l.service.id == id).map fun l =>
    (l, { d with listings := d.listings.eraseP fun l => l.service.id == id })

end Directory

/-- A directory and the cache over it. -/
structure Services where
  directory : Directory
  cache : ServiceCache := .empty
  /-- Whether reports and releases pass between the directory and its users. -/
  connected : Bool := true

namespace Services

/-- Reports a change of a capability. -/
def notify (s : Services) (capability : Capability) : Services :=
  if s.connected then { s with cache := s.cache.invalidate capability } else s

/-- Asks the directory. A racing directory reports a change after it has collected its answer. -/
def ask (s : Services) (q : Query) : Answer × Services :=
  let s := { s with directory := { s.directory with lookups := s.directory.lookups + 1 } }
  let answer := s.directory.answer q
  match answer with
  | .error _ => (answer, s)
  | .ok _ => (answer, if s.directory.racing then s.notify q.capability else s)

/-- Looks a query up in the cache, with a directory that does not ask back. -/
def referencesOnce (s : Services) (q : Query) : List Service × Services :=
  match s.cache.remembered q with
  | .inl services => (services, s)
  | .inr epoch =>
    let (answer, s) := s.ask q
    let (services, cache) := s.cache.settle q epoch answer
    (services, { s with cache })

/-- Asks the directory, which may ask the cache before it hands out its answer. -/
def lookup (s : Services) (q : Query) : Answer × Services :=
  match s.ask q with
  | (.error e, s) => (.error e, s)
  | (.ok services, s) =>
    if s.directory.reentering then
      let s := { s with directory := { s.directory with reentering := false } }
      (.ok services, (s.referencesOnce q).2)
    else (.ok services, s)

/-- Looks a query up in the cache, and in the directory if it is missing there. -/
def references (s : Services) (q : Query) : List Service × Services :=
  match s.cache.remembered q with
  | .inl services => (services, s)
  | .inr epoch =>
    let (answer, s) := s.lookup q
    let (services, cache) := s.cache.settle q epoch answer
    (services, { s with cache })

/-- Publishes a service; `quiet` keeps the change from being reported. -/
def publish (s : Services) (l : Listing) (quiet : Bool) : Services :=
  let s := { s with directory := s.directory.publish l }
  if quiet then s else s.notify l.service.capability

/-- Withdraws a service; whether there was one. -/
def withdraw (s : Services) (id : Nat) (quiet : Bool) : Bool × Services :=
  match s.directory.withdraw? id with
  | none => (false, s)
  | some (l, directory) =>
    let s := { s with directory }
    (true, if quiet then s else s.notify l.service.capability)

end Services

end ScriptHost
