import ScriptHost.Text.Quoted

/-!
# Background queues

A line of jobs that one worker does in the order of their submission. A submission counts as pending
before it enters the line, and until its job has been signed off; a job that panics counts like any
other. A closed queue takes no more jobs, and its worker stops when none is left.
-/

namespace ScriptHost

structure BackgroundQueue (J : Type) where
  /-- A job that is counted and about to enter the line. -/
  entering : Option J := none
  line : List J := []
  running : Option J := none
  /-- Once the running job has ended: whether it panicked. -/
  outcome : Option Bool := none
  /-- The jobs that have been run, oldest first, and whether they panicked. -/
  ran : List (J × Bool) := []
  closed : Bool := false
  /-- Whether the worker has stopped. -/
  stopped : Bool := false
  pending : Nat := 0
  panicked : Nat := 0

/-- What a queue tells when it is shut down. -/
structure ShutdownReport where
  drained : Bool
  pending : Nat
  panicked : Nat
  deriving DecidableEq, Repr

/-- What a job panics with: a text, or something else. -/
inductive PanicPayload where
  | text (s : String)
  | other
  deriving DecidableEq, Repr

def PanicPayload.message : PanicPayload → String
  | .text s => s
  | .other => "<non-string panic payload>"

namespace BackgroundQueue

variable {J : Type}

/-! ## Submitting -/

/-- Counts a job that is about to enter. -/
def announce (q : BackgroundQueue J) (job : J) : BackgroundQueue J :=
  { q with entering := some job, pending := q.pending + 1 }

/-- Lets the announced job enter the line. -/
def enqueue (q : BackgroundQueue J) : BackgroundQueue J :=
  { q with entering := none, line := q.line ++ q.entering.toList }

/-- Takes the announced job back, where the line does not let it in. -/
def withdraw (q : BackgroundQueue J) : BackgroundQueue J :=
  { q with entering := none, pending := q.pending - 1 }

/-- Submits a job, unless the queue is closed. -/
def submit (q : BackgroundQueue J) (job : J) : Bool × BackgroundQueue J :=
  if q.closed then (false, q) else (true, (q.announce job).enqueue)

/-! ## Working -/

/-- The worker takes the next job. -/
def take (q : BackgroundQueue J) : BackgroundQueue J :=
  match q.running, q.line with
  | none, job :: line => { q with running := some job, outcome := none, line }
  | _, _ => q

/-- The running job ends. A panic is counted at once, but the job stays pending. -/
def endJob (q : BackgroundQueue J) (panics : J → Bool) : BackgroundQueue J :=
  match q.running, q.outcome with
  | some job, none => { q with
      outcome := some (panics job)
      panicked := q.panicked + if panics job then 1 else 0 }
  | _, _ => q

/-- The job that has ended is pending no more. -/
def signOff (q : BackgroundQueue J) : BackgroundQueue J :=
  match q.running, q.outcome with
  | some job, some panicked => { q with
      running := none
      outcome := none
      ran := q.ran ++ [(job, panicked)]
      pending := q.pending - 1 }
  | _, _ => q

/-- The running job ends and is signed off. -/
def finish (q : BackgroundQueue J) (panics : J → Bool) : BackgroundQueue J :=
  (q.endJob panics).signOff

/-- The worker stops if the queue is closed and nothing is left. -/
def stop (q : BackgroundQueue J) : BackgroundQueue J :=
  { q with stopped := q.stopped || (q.closed && q.line.isEmpty && q.running.isNone) }

/-- The worker goes on until a job keeps it waiting or the line is empty; at most `fuel` jobs. -/
def workOff (blocked panics : J → Bool) : Nat → BackgroundQueue J → BackgroundQueue J
  | 0, q => q.stop
  | fuel + 1, q =>
    let q := q.take
    match q.running with
    | none => q.stop
    | some job => if blocked job then q else workOff blocked panics fuel (q.finish panics)

/-- The queue after the worker has had the time it needs. -/
def settle (q : BackgroundQueue J) (blocked panics : J → Bool) : BackgroundQueue J :=
  q.workOff blocked panics (q.line.length + 1)

/-- Whether no job is pending. -/
def isIdle (q : BackgroundQueue J) : Bool :=
  q.pending = 0

/-! ## Closing -/

def close (q : BackgroundQueue J) : BackgroundQueue J :=
  { q with closed := true }

def report (q : BackgroundQueue J) : ShutdownReport :=
  ⟨q.stopped, q.pending, q.panicked⟩

def outline (q : BackgroundQueue J) (name : String) : String :=
  "BackgroundQueue \x7b name: " ++ Text.quoted name ++ ", pending: " ++ toString q.pending ++
    ", .. \x7d"

end BackgroundQueue

end ScriptHost
