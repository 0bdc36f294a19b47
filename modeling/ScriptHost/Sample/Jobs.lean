import ScriptHost.Data
import ScriptHost.Queue

/-!
# Sample jobs

A background queue with jobs of three kinds: one notes a value, one panics, and one waits at a gate
until the gate is opened. Whatever is done to the queue, the worker is given the time it needs.
-/

namespace ScriptHost.Sample

inductive Job where
  | note (value : Data)
  | panic (payload : PanicPayload)
  | gate

def Job.panics : Job → Bool
  | .panic _ => true
  | _ => false

structure GatedQueue where
  queue : BackgroundQueue Job := {}
  gateOpen : Bool := false

namespace GatedQueue

/-- Whether the gate keeps a job waiting. -/
def blocks (q : GatedQueue) : Job → Bool
  | .gate => !q.gateOpen
  | _ => false

def settle (q : GatedQueue) : GatedQueue :=
  { q with queue := q.queue.settle q.blocks Job.panics }

/-- Submits a job; whether the queue takes it. -/
def submit (q : GatedQueue) (job : Job) : Bool × GatedQueue :=
  let (accepted, queue) := q.queue.submit job
  (accepted, { q with queue }.settle)

def openGate (q : GatedQueue) : GatedQueue :=
  { q with gateOpen := true }.settle

/-- Closes the queue, and tells how it ended. -/
def shutdown (q : GatedQueue) : ShutdownReport × GatedQueue :=
  let q := { q with queue := q.queue.close }.settle
  (q.queue.report, q)

/-- The values noted so far, in order. -/
def noted (q : GatedQueue) : List Data :=
  q.queue.ran.filterMap fun
    | (.note value, _) => some value
    | _ => none

/-- The texts of the panics so far, in order. -/
def panicTexts (q : GatedQueue) : List String :=
  q.queue.ran.filterMap fun
    | (.panic payload, _) => some payload.message
    | _ => none

end GatedQueue

end ScriptHost.Sample
