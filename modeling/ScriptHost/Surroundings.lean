import ScriptHost.Path
import ScriptHost.Text.Utf8

/-!
# Surroundings

What a host of scripts is given from outside and only looks at: resources with their bytes and
language hints, resolvers from paths to resources, requests, responses and outputs. Objects are
named by handles, and two handles are the same object exactly if they are equal.
-/

namespace ScriptHost

structure ResourceId where
  name : String
  deriving DecidableEq, Repr

structure ResolverId where
  name : String
  deriving DecidableEq, Repr

structure RequestId where
  name : String
  deriving DecidableEq, Repr

structure ResponseId where
  name : String
  deriving DecidableEq, Repr

/-- Where text goes: into an output of the surroundings, or nowhere. -/
inductive Writer where
  | discard
  | output (name : String)
  deriving DecidableEq, Repr

/-- Where text comes from: a reader that was opened before, or nowhere. -/
inductive Reader where
  | empty
  | opened (index : Nat)
  deriving DecidableEq, Repr

/-- What an open resource gives to its reader: some bytes, and behind them perhaps a fault instead
of the end. -/
structure Source where
  bytes : Bytes
  fault : Option String := none

/-- A source with more bytes behind its end. Behind a fault nothing is reached. -/
def Source.followedBy (s : Source) (more : Bytes) : Source :=
  match s.fault with
  | some _ => s
  | none => { s with bytes := s.bytes ++ more }

/-- A script or another file. Opening it yields a source or fails with a text; for an extension it
may name the language that files below it are written in. -/
structure Resource where
  path : String
  opening : Except String Source
  hint : String → Option String := fun _ => none
  resourceType : String := ""
  encoding : Option String := none

structure Resolver where
  resolve : String → Option ResourceId
  /-- The resource above a path: by default, what the path above resolves to. -/
  parent : String → Option ResourceId := fun path => (Path.parent? path).bind resolve
  /-- The user on whose behalf it resolves. -/
  userId : Option String := none

structure Request where
  path : String
  resource : ResourceId
  resolver : ResolverId
  body : Bytes
  /-- Whether somebody listens to the progress of this request. -/
  tracked : Bool

structure Response where
  writer : Writer

/-- What can be done with an output. -/
inductive OutputCall where
  | write (text : Bytes)
  | flush
  deriving DecidableEq

/-- An output, with the faults that its writes and flushes meet. They may depend on all that was
done with the output before, so that one call can fail and the next succeed. -/
structure Output where
  writeFault : List OutputCall → Bytes → Option String := fun _ _ => none
  flushFault : List OutputCall → Option String := fun _ => none

structure Surroundings where
  resource : ResourceId → Resource
  resolver : ResolverId → Resolver
  request : RequestId → Request
  response : ResponseId → Response
  output : String → Output

end ScriptHost
