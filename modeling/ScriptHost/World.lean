import ScriptHost.Journal
import ScriptHost.Script
import ScriptHost.Service.Directory

/-!
# The world of executions

What executions leave behind for one another: readers and how far they have been read, outputs and
what has been done with them, helpers with the services they hold, the services that are known, and
the journal of everything done so far.
-/

namespace ScriptHost

/-- The helper that a script gets for its request. It remembers the services it has handed out, and
gives them back when it is disposed of. -/
structure Helper where
  request : RequestId
  response : ResponseId
  resource : ResourceId
  resolver : ResolverId
  script : ScriptIdentity
  /-- Whether it can look services up. -/
  serves : Bool
  acquired : List Nat := []
  /-- The script's own resource, once it has been asked for. -/
  scriptResource : Option (Option ResourceId) := none
  disposed : Bool := false

structure World where
  readers : List Bytes := []
  /-- What has been done with each output, by name. Outputs answer by it, and not by the journal. -/
  calls : String → List OutputCall := fun _ => []
  helpers : List Helper := []
  services : Option Services := none
  journal : Journal := []

namespace World

def record (w : World) (e : Event) : World :=
  { w with journal := w.journal ++ [e] }

/-! ## Channels -/

/-- The fault that a write meets. An empty text does not reach the output. -/
def writeFault (w : World) (around : Surroundings) (target : Writer) (text : Bytes) :
    Option String :=
  match target with
  | .discard => none
  | .output name =>
    if text.isEmpty then none else (around.output name).writeFault (w.calls name) text

def flushFault (w : World) (around : Surroundings) : Writer → Option String
  | .discard => none
  | .output name => (around.output name).flushFault (w.calls name)

/-- Something is done with an output. -/
def call (w : World) (on : Writer) (c : OutputCall) : World :=
  match on with
  | .discard => w
  | .output name =>
    { w with calls := fun other => if other = name then w.calls name ++ [c] else w.calls other }

def outcome : Option String → Except String Unit
  | none => .ok ()
  | some fault => .error fault

def write (w : World) (around : Surroundings) (target : Writer) (text : Bytes) :
    Except String Unit × World :=
  let fault := w.writeFault around target text
  let w := w.record (.write target text fault)
  (outcome fault, if text.isEmpty then w else w.call target (.write text))

def flush (w : World) (around : Surroundings) (on : Writer) : Except String Unit × World :=
  let fault := w.flushFault around on
  (outcome fault, (w.record (.flush on fault)).call on .flush)

/-- Opens a reader over some bytes. -/
def openReader (w : World) (bytes : Bytes) : Reader × World :=
  (.opened w.readers.length, { w with readers := w.readers ++ [bytes] })

/-- What a reader still holds. -/
def remaining (w : World) : Reader → Bytes
  | .empty => []
  | .opened index => w.readers[index]?.getD []

/-- Leaves these bytes in a reader. -/
def leave (w : World) (r : Reader) (bytes : Bytes) : World :=
  match r with
  | .empty => w
  | .opened index => { w with readers := w.readers.set index bytes }

/-- Reads all of the rest as text. What is not UTF-8 stays where it is. -/
def readText (w : World) (r : Reader) : Except String String × World :=
  match Text.decode? (w.remaining r) with
  | some text => (.ok text, w.leave r [])
  | none => (.error EngineError.notText.message, w)

/-- Reads up to a number of bytes. -/
def readBytes (w : World) (r : Reader) (n : Nat) : Bytes × World :=
  ((w.remaining r).take n, w.leave r ((w.remaining r).drop n))

/-- Opens a resource for reading. -/
def openResource (w : World) (around : Surroundings) (r : ResourceId) :
    Except EngineError Source × World :=
  let w := w.record (.openResource r)
  match (around.resource r).opening with
  | .ok source => (.ok source, w)
  | .error fault => (.error (.io fault), w)

/-! ## Helpers -/

def helper? (w : World) (h : HelperId) : Option Helper :=
  w.helpers[h.index]?

def setHelper (w : World) (h : HelperId) (helper : Helper) : World :=
  { w with helpers := w.helpers.set h.index helper }

/-- Makes a helper. -/
def addHelper (w : World) (helper : Helper) : HelperId × World :=
  (⟨w.helpers.length⟩, { w with helpers := w.helpers ++ [helper] })

/-- The services for a query, straight from the directory. The helper holds what it hands out. A
helper without services, or one that has been disposed of, finds nothing. -/
def acquire (w : World) (h : HelperId) (q : Query) : List Service × World :=
  match w.helper? h, w.services with
  | some helper, some services =>
    if helper.serves && !helper.disposed then
      let (answer, services) := services.lookup q
      let w := { w with services := some services }
      match answer with
      | .error _ => ([], w)
      | .ok found =>
        let found := Service.ordered q.capability found
        let ids := found.map Service.id
        let w := w.setHelper h { helper with acquired := helper.acquired ++ ids }
        (found, w.record (.acquire h ids))
    else ([], w)
  | _, _ => ([], w)

/-- Takes the steps of a session. -/
def run {α : Type} (around : Surroundings) : Session α → World → Except EngineError α × World
  | .done result, w => (result, w)
  | .write target text next, w =>
    let (r, w) := w.write around target text
    run around (next r) w
  | .flush on next, w =>
    let (r, w) := w.flush around on
    run around (next r) w
  | .readText from_ next, w =>
    let (r, w) := w.readText from_
    run around (next r) w
  | .acquire helper q next, w =>
    let (found, w) := w.acquire helper q
    run around (next found) w

/-- The first service of a capability, by way of the cache. -/
def service? (w : World) (h : HelperId) (capability : Capability) : Option Service × World :=
  match w.helper? h, w.services with
  | some helper, some services =>
    if helper.serves then
      let (found, services) := services.references ⟨capability, none⟩
      (found.head?, { w with services := some services })
    else (none, w)
  | _, _ => (none, w)

/-- Whether releases reach the directory. -/
def releases (w : World) : Bool :=
  match w.services with
  | some services => services.connected
  | none => false

/-- Gives back what a helper holds, in the order in which it was acquired. The second time there is
nothing to give back. -/
def dispose (w : World) (h : HelperId) : World :=
  match w.helper? h with
  | none => w
  | some helper =>
    if helper.disposed then w
    else
      let w := w.setHelper h { helper with acquired := [], disposed := true }
      if helper.serves then
        { w with journal := w.journal ++ helper.acquired.map fun id => .release h id w.releases }
      else w

/-- Disposes of a helper if there is one. -/
def dispose? (w : World) : Option HelperId → World
  | some h => w.dispose h
  | none => w

/-- The resource of a helper's script, looked up on first use. -/
def scriptResource (w : World) (around : Surroundings) (h : HelperId) :
    Option ResourceId × World :=
  match w.helper? h with
  | none => (none, w)
  | some helper =>
    match helper.scriptResource with
    | some known => (known, w)
    | none =>
      let found := (around.resolver helper.resolver).resolve helper.script.path
      (found, w.setHelper h { helper with scriptResource := some found })

end World

namespace Helper

def outline (around : Surroundings) (h : Helper) : String :=
  "ScriptHelper \x7b script: ScriptIdentity \x7b path: " ++ Text.quoted h.script.path ++
    ", engine: " ++ Text.quoted h.script.engine ++ " \x7d, resource: " ++
    Text.quoted (around.resource h.resource).path ++ ", disposed: " ++ toString h.disposed ++
    ", .. \x7d"

end Helper

end ScriptHost
