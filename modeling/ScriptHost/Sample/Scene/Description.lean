import ScriptHost.Data.Field
import ScriptHost.Engine.Registry
import ScriptHost.Change
import ScriptHost.Sample.Providers
import ScriptHost.Sample.Scene
import ScriptHost.Provider.Registry

/-!
# Described scenes

Scenes and what happens in them, read from plain data: a record has a field for every kind of
object, and in it a record of the objects by name. A value that a script can be bound to is
described by a record of one field, whose name is the kind of the value.
-/

namespace ScriptHost

namespace Sample

/-! ## Objects -/

def resourceOf (d : Data) : Resource where
  path := d.textAt "path"
  opening := match d.textAt? "open_error" with
    | some fault => .error fault
    | none => .ok { bytes := d.bytesAt "body" }
  hint extension := (d.at? "hints").bind fun hints => hints.textAt? extension

/-- An output that fails always or never. -/
def outputOf (d : Data) : Output where
  writeFault _ _ := d.textAt? "fail_write"
  flushFault _ := d.textAt? "fail_flush"

def treeOf (d : Data) : Tree :=
  let table (name : String) : OrderedMap String ResourceId :=
    .ofList ((d.fieldsAt name).map fun e => (e.1, ⟨e.2.asText⟩))
  ⟨table "nodes", table "parents"⟩

def requestOf (d : Data) : Request where
  path := d.textAt "path"
  resource := ⟨d.textAt "resource"⟩
  resolver := ⟨d.textAt "resolver"⟩
  body := Text.encode (d.textAt "body")
  tracked := d.flagAt "progress"

def Behaviour.named : String → Behaviour
  | "vars" => .vars
  | "cat" => .cat
  | "fail" => .fail
  | _ => .echo

/-- A minimal factory declares no more than it must, and its engine only evaluates. -/
def factoryOf (name : String) (d : Data) : Factory :=
  let engineName := d.textAt "engine_name"
  let full := !d.flagAt "minimal"
  let compiles := full && d.flagAt "compiles"
  let compilable := full && d.flagAt "compilable" compiles
  let invocable := full && d.flagAt "invocable"
  let base : Factory := {
    id := .given name
    engineName
    names := (d.textsAt? "names").getD [engineName]
    extensions := d.textsAt "extensions"
    languageName := (d.textAt? "language_name").getD engineName
    engine := (Behaviour.named (d.textAt "behavior")).engine compilable invocable }
  if full then { base with
    engineVersion := d.textAt "engine_version"
    mimeTypes := d.textsAt "mime_types"
    languageVersion := d.textAt "language_version"
    compatibleLanguages := d.textsAt "compatible_languages"
    supportsCompilation := compiles
    callText? := fun name args =>
      if d.flagAt "call_syntax" then some (callText name args) else none }
  else base

def objects {α : Type} (d : Data) (kind : String) (read : String → Data → α) :
    OrderedMap String α :=
  .ofList ((d.fieldsAt kind).map fun e => (e.1, read e.1 e.2))

/-- A scene without its helpers. -/
def Scene.ofData (d : Data) : Scene where
  resources := objects d "resources" fun _ => resourceOf
  trees := objects d "trees" fun _ => treeOf
  requests := objects d "requests" fun _ => requestOf
  responses := objects d "responses" fun _ r => ⟨.output (r.textAt "writer")⟩
  outputs := objects d "writers" fun _ => outputOf
  engines := objects d "engines" factoryOf

/-- A helper that looks at what its request looks at, unless it is told otherwise. -/
def Scene.readHelper (s : Scene) (w : World) (d : Data) : Helper :=
  let r := s.surroundings.request ⟨d.textAt "request"⟩
  { request := ⟨d.textAt "request"⟩
    response := ⟨d.textAt "response"⟩
    resource := ((d.textAt? "resource").map ResourceId.mk).getD r.resource
    resolver := ((d.textAt? "resolver").map ResolverId.mk).getD r.resolver
    script := ⟨d.textAt "script", (d.textAt? "engine").getD "engine"⟩
    serves := d.flagAt "services" && w.services.isSome }

/-- The scene of a description, in a world where its helpers are at hand. -/
def Scene.enter (d : Data) (w : World) : Scene × World :=
  (d.fieldsAt "helpers").foldl (fun (s, w) e =>
    let (id, w) := w.addHelper (s.readHelper w e.2)
    ({ s with helpers := s.helpers.insert e.1 id }, w)) (.ofData d, w)

/-! ## Services -/

def capabilityOf (d : Data) : Capability := ⟨d.textAt "capability"⟩

def queryOf (d : Data) : Query := ⟨capabilityOf d, d.textAt? "filter"⟩

def listingOf (d : Data) : Listing where
  service := ⟨d.natAt "id", d.intAt "rank", capabilityOf d, d.textAt "label"⟩
  tag := d.textAt? "tag"
  stray := d.flagAt "stray"

/-- The directory that a description speaks of, if it does. -/
def servicesOf? (d : Data) : Option Services :=
  (d.at? "services").map fun l =>
    { directory := { listings := l.asList.map listingOf }, connected := !d.flagAt "deaf" }

/-! ## Values and bindings -/

/-- A reader is opened for every description of one. -/
def Scene.readValue (s : Scene) (d : Data) (w : World) : BindingValue × World :=
  match d.asFields with
  | [("data", value)] => (.data value, w)
  | [("request", name)] => (.request ⟨name.asText⟩, w)
  | [("response", name)] => (.response ⟨name.asText⟩, w)
  | [("resource", name)] => (.resource ⟨name.asText⟩, w)
  | [("resolver", name)] => (.resolver ⟨name.asText⟩, w)
  | [("reader", text)] =>
    let (r, w) := w.openReader (Text.encode text.asText)
    (.reader r, w)
  | [("writer", name)] => (.writer (.output name.asText), w)
  | [("logger", script)] => (.logger script.asText, w)
  | [("helper", name)] => (.helper ((s.helpers.get? name.asText).getD ⟨0⟩), w)
  | [("object", held)] => (.object held.asText, w)
  | _ => (.data .null, w)

/-- Pairs of a name and a value, in their order. -/
def Scene.readPairs (s : Scene) (pairs : List Data) (w : World) :
    List (String × BindingValue) × World :=
  pairs.foldl (fun (acc, w) pair =>
    match pair with
    | .list [.text key, value] =>
      let (value, w) := s.readValue value w
      (acc ++ [(key, value)], w)
    | _ => (acc, w)) ([], w)

def Scene.readBindings (s : Scene) (pairs : List Data) (w : World) : Bindings × World :=
  let (pairs, w) := s.readPairs pairs w
  (.ofList pairs, w)

/-- The description of a value. Channels have no names, and are described by their kind. -/
def Scene.describe (s : Scene) (v : BindingValue) : Data :=
  let record (kind : String) (d : Data) : Data := .record [(kind, d)]
  match v with
  | .data d => record v.kind d
  | .request r => record v.kind (.text r.name)
  | .response r => record v.kind (.text r.name)
  | .resource r => record v.kind (.text r.name)
  | .resolver r => record v.kind (.text r.name)
  | .logger l => record v.kind (.text l)
  | .helper h => record "helper" (.text ((s.helperName? h).getD "?"))
  | .object held => record v.kind (.text held)
  | .reader _ | .writer _ => record "kind" (.text v.kind)

def Scene.describeAll (s : Scene) (b : Bindings) : Data :=
  .list (b.entries.map fun e => .list [.text e.1, s.describe e.2])

/-! ## Providers -/

def Scene.readAction (s : Scene) (d : Data) (w : World) : Action × World :=
  let key := d.textAt "key"
  let target := d.textAt "to"
  match d.textAt "do" with
  | "put" =>
    let (value, w) := s.readValue ((d.at? "value").getD .null) w
    (.put key value, w)
  | "remove" => (.remove key, w)
  | "copy" => (.copy (d.textAt "from") target, w)
  | "has" => (.has key target, w)
  | "len" => (.count target, w)
  | "acquire" => (.acquire (queryOf d) target, w)
  | "sleep" => (.sleep (d.natAt "ms"), w)
  | _ => (.fail (d.textAt "message"), w)

/-- A provider of fixed values, or one that acts. -/
def Scene.readProvider (s : Scene) (d : Data) (w : World) : Provider × World :=
  let name := d.textAt "name"
  match d.at? "values" with
  | some values =>
    let (b, w) := s.readBindings values.asList w
    (.ofValues name b, w)
  | none =>
    let (actions, w) := (d.listAt "actions").foldl (fun (acc, w) a =>
      let (a, w) := s.readAction a w
      (acc ++ [a], w)) (([] : List Action), w)
    (⟨name, provision name actions⟩, w)

/-! ## Registrations and changes -/

def propertiesOf (d : Data) : Properties where
  rank := d.intAt "rank"
  names := d.textsAt? "names"
  extensions := d.textsAt? "extensions"
  mimeTypes := d.textsAt? "mime_types"
  compatibleLanguages := d.textsAt? "compatible_languages"

/-- The request to a registry of engines that a record describes, if its action is one. -/
def Scene.readRegistration? (s : Scene) (d : Data) (action : String) : Option Registration :=
  let engine := s.engine (d.textAt "engine")
  match action with
  | "register_platform" => some (.platform engine (d.intAt "rank"))
  | "register" => some (.dynamic engine (propertiesOf d))
  | "register_package" =>
    some (.package (d.textAt "package")
      ((d.listAt "engines").map fun e => (s.engine (e.textAt "engine"), e.intAt "rank")))
  | "remove_package" => some (.removePackage (d.textAt "package"))
  | "unregister" => some (.unregister (d.natAt "handle"))
  | "unregister_factory" => some (.unregisterFactory engine.id)
  | _ => none

/-- Reports of changes, each a word and a path. -/
def changesOf (events : List Data) : List ChangeEvent :=
  events.filterMap fun
    | .list [.text "changed", .text path] => some (.changed path)
    | .list [.text "removed", .text path] => some (.removed path)
    | _ => none

end Sample

end ScriptHost
