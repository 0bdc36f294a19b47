import Mathlib.Data.List.Induction
import ScriptHost.Sample.Jobs

/-! # What a background queue accounts for

Submitters, the worker and whoever closes the queue meet between any two of their moments. One
submission is made at a time, by a running job or by anybody else, and while it is being made the
queue is not closed; all else can happen in between. A `Run` is any such course of moments.

What one moment does to the jobs and to the counts is an equation for each of them, and so is what a
run does. The invariant `Exact` says that the counter of pending jobs is right, so that taking one
off it never meets zero. The main theorem puts together what submitters and waiting callers rely on:
each accepted job is done once, in the order of submission, and the counters tell the truth. -/

namespace ScriptHost

namespace BackgroundQueue

variable {J : Type}

/-! ## Moments -/

/-- What happens at one moment. -/
inductive Moment (J : Type) where
  /-- A submission has found the queue open and counts its job. -/
  | announce (job : J)
  /-- The job enters the line, and the submission returns true. -/
  | accept (job : J)
  /-- The line does not let the job in, and the submission returns false. -/
  | withdraw (job : J)
  /-- A submission has found the queue closed and returns false. -/
  | refuse (job : J)
  | take (job : J)
  /-- The running job ends, with a panic or without. -/
  | ended (job : J) (panicked : Bool)
  | signOff (job : J)
  | close
  | stop

namespace Moment

/-- The job whose submission returns true. -/
@[simp] def accepted? : Moment J → Option J
  | .accept job => some job
  | _ => none

/-- The job that ends, and whether it panicked. -/
@[simp] def ended? : Moment J → Option (J × Bool)
  | .ended job panicked => some (job, panicked)
  | _ => none

/-- By how much the number of pending jobs goes up. -/
@[simp] def counted : Moment J → Nat
  | .announce _ => 1
  | _ => 0

/-- By how much it goes down. -/
@[simp] def discounted : Moment J → Nat
  | .withdraw _ | .signOff _ => 1
  | _ => 0

end Moment

/-- The jobs whose submissions have returned true, in order. -/
def accepted (ms : List (Moment J)) : List J :=
  ms.filterMap Moment.accepted?

/-- The jobs that have come to an end, in order, and whether they panicked. -/
def ended (ms : List (Moment J)) : List (J × Bool) :=
  ms.filterMap Moment.ended?

/-- One moment. The line may refuse an announced job at any time, and any job may panic. -/
inductive Step : BackgroundQueue J → Moment J → BackgroundQueue J → Prop where
  | announce {q : BackgroundQueue J} {job : J} : q.closed = false → q.entering = none →
      Step q (.announce job) (q.announce job)
  | accept {q : BackgroundQueue J} {job : J} : q.entering = some job →
      Step q (.accept job) q.enqueue
  | withdraw {q : BackgroundQueue J} {job : J} : q.entering = some job →
      Step q (.withdraw job) q.withdraw
  | refuse {q : BackgroundQueue J} {job : J} : q.closed = true → Step q (.refuse job) q
  | take {q : BackgroundQueue J} {job : J} {rest : List J} : q.running = none →
      q.line = job :: rest → Step q (.take job) q.take
  | ended {q : BackgroundQueue J} {job : J} (panics : J → Bool) : q.running = some job →
      q.outcome = none → Step q (.ended job (panics job)) (q.endJob panics)
  | signOff {q : BackgroundQueue J} {job : J} {panicked : Bool} : q.running = some job →
      q.outcome = some panicked → Step q (.signOff job) q.signOff
  | close {q : BackgroundQueue J} : q.entering = none → Step q .close q.close
  | stop {q : BackgroundQueue J} : q.closed = true → q.line = [] → q.running = none →
      Step q .stop q.stop

/-- A run of any length, with its moments in order. -/
inductive Run : BackgroundQueue J → List (Moment J) → BackgroundQueue J → Prop where
  | nil {q : BackgroundQueue J} : Run q [] q
  | snoc {q s t : BackgroundQueue J} {ms : List (Moment J)} {m : Moment J} :
      Run q ms s → Step s m t → Run q (ms ++ [m]) t

theorem Run.single {q t : BackgroundQueue J} {m : Moment J} (h : Step q m t) : Run q [m] t :=
  .snoc .nil h

theorem Run.append {q s t : BackgroundQueue J} {ms ns : List (Moment J)} (h : Run q ms s)
    (h' : Run s ns t) : Run q (ms ++ ns) t := by
  induction h' with
  | nil => simpa using h
  | snoc _ hstep ih =>
      rw [← List.append_assoc]
      exact .snoc ih hstep

theorem Run.exists_last {q t : BackgroundQueue J} {ms l : List (Moment J)} {m : Moment J}
    (h : Run q l t) (hl : l = ms ++ [m]) : ∃ s, Run q ms s ∧ Step s m t := by
  cases h with
  | nil => simp at hl
  | snoc hrun hstep =>
      obtain ⟨rfl, hm⟩ := List.append_inj' hl rfl
      cases hm
      exact ⟨_, hrun, hstep⟩

/-- A run can be cut at any moment. -/
theorem Run.split {q t : BackgroundQueue J} {ms ns : List (Moment J)} (h : Run q (ms ++ ns) t) :
    ∃ s, Run q ms s ∧ Run s ns t := by
  induction ns using List.reverseRecOn generalizing t with
  | nil => exact ⟨t, by simpa using h, .nil⟩
  | append_singleton ns n ih =>
      obtain ⟨u, hu, hstep⟩ := h.exists_last (List.append_assoc ms ns [n]).symm
      obtain ⟨s, hs, hns⟩ := ih hu
      exact ⟨s, hs, hns.snoc hstep⟩

/-! ## What moments do -/

/-- The jobs done, the running one, and those in line. -/
def jobs (q : BackgroundQueue J) : List J :=
  q.ran.map Prod.fst ++ q.running.toList ++ q.line

/-- The jobs done, and the running one if it has ended and is only to be signed off. -/
def endings (q : BackgroundQueue J) : List (J × Bool) :=
  q.ran ++ (q.running.bind fun job => q.outcome.map fun panicked => (job, panicked)).toList

/-- A moment brings in the job that it accepts, at the end. -/
theorem Step.jobs {q t : BackgroundQueue J} {m : Moment J} (h : Step q m t) :
    t.jobs = q.jobs ++ m.accepted?.toList := by
  cases h with
  | announce hopen hfree => simp [BackgroundQueue.jobs, BackgroundQueue.announce]
  | accept hjob => simp [BackgroundQueue.jobs, enqueue, hjob]
  | withdraw hjob => simp [BackgroundQueue.jobs, BackgroundQueue.withdraw]
  | refuse hclosed => simp
  | take hnone hline => simp [BackgroundQueue.jobs, BackgroundQueue.take, hnone, hline]
  | ended panics hjob hnone => simp [BackgroundQueue.jobs, endJob, hjob, hnone]
  | signOff hjob hsome => simp [BackgroundQueue.jobs, BackgroundQueue.signOff, hjob, hsome]
  | close hfree => simp [BackgroundQueue.jobs, BackgroundQueue.close]
  | stop hclosed hline hnone => simp [BackgroundQueue.jobs, BackgroundQueue.stop]

theorem Step.endings {q t : BackgroundQueue J} {m : Moment J} (h : Step q m t) :
    t.endings = q.endings ++ m.ended?.toList := by
  cases h with
  | announce hopen hfree => simp [BackgroundQueue.endings, BackgroundQueue.announce]
  | accept hjob => simp [BackgroundQueue.endings, enqueue]
  | withdraw hjob => simp [BackgroundQueue.endings, BackgroundQueue.withdraw]
  | refuse hclosed => simp
  | take hnone hline => simp [BackgroundQueue.endings, BackgroundQueue.take, hnone, hline]
  | ended panics hjob hnone => simp [BackgroundQueue.endings, endJob, hjob, hnone]
  | signOff hjob hsome => simp [BackgroundQueue.endings, BackgroundQueue.signOff, hjob, hsome]
  | close hfree => simp [BackgroundQueue.endings, BackgroundQueue.close]
  | stop hclosed hline hnone => simp [BackgroundQueue.endings, BackgroundQueue.stop]

/-- A panic is counted when it happens. -/
theorem Step.panicked {q t : BackgroundQueue J} {m : Moment J} (h : Step q m t) :
    t.panicked = q.panicked + m.ended?.toList.countP Prod.snd := by
  cases h with
  | take hnone hline => simp [BackgroundQueue.take, hnone, hline]
  | @ended job panics hjob hnone =>
      cases hp : panics job <;> simp [endJob, hjob, hnone, hp]
  | signOff hjob hsome => simp [BackgroundQueue.signOff, hjob, hsome]
  | _ => rfl

theorem Step.closed {q t : BackgroundQueue J} {m : Moment J} (h : Step q m t) :
    t.closed = true ↔ q.closed = true ∨ m = .close := by
  cases h with
  | take hnone hline => simp [BackgroundQueue.take, hnone, hline]
  | ended panics hjob hnone => simp [endJob, hjob, hnone]
  | signOff hjob hsome => simp [BackgroundQueue.signOff, hjob, hsome]
  | close hfree => simp [BackgroundQueue.close]
  | _ => simp [BackgroundQueue.announce, enqueue, BackgroundQueue.withdraw, BackgroundQueue.stop]

/-! ## What runs do -/

theorem accepted_append (ms ns : List (Moment J)) :
    accepted (ms ++ ns) = accepted ms ++ accepted ns :=
  List.filterMap_append

theorem accepted_singleton (m : Moment J) : accepted [m] = m.accepted?.toList := by
  cases m <;> rfl

theorem ended_append (ms ns : List (Moment J)) : ended (ms ++ ns) = ended ms ++ ended ns :=
  List.filterMap_append

theorem ended_singleton (m : Moment J) : ended [m] = m.ended?.toList := by
  cases m <;> rfl

/-- **A run brings in the jobs that it accepts, in their order**, and none is lost or done twice. -/
theorem Run.jobs {q t : BackgroundQueue J} {ms : List (Moment J)} (h : Run q ms t) :
    t.jobs = q.jobs ++ accepted ms := by
  induction h with
  | nil => simp [accepted]
  | snoc _ hstep ih =>
      rw [hstep.jobs, ih, accepted_append, accepted_singleton, List.append_assoc]

theorem Run.endings {q t : BackgroundQueue J} {ms : List (Moment J)} (h : Run q ms t) :
    t.endings = q.endings ++ BackgroundQueue.ended ms := by
  induction h with
  | nil => simp [BackgroundQueue.ended]
  | snoc _ hstep ih =>
      rw [hstep.endings, ih, ended_append, ended_singleton, List.append_assoc]

theorem Run.panicked {q t : BackgroundQueue J} {ms : List (Moment J)} (h : Run q ms t) :
    t.panicked = q.panicked + (BackgroundQueue.ended ms).countP Prod.snd := by
  induction h with
  | nil => rfl
  | snoc _ hstep ih =>
      rw [hstep.panicked, ih, ended_append, ended_singleton, List.countP_append, Nat.add_assoc]

theorem Run.closed {q t : BackgroundQueue J} {ms : List (Moment J)} (h : Run q ms t) :
    t.closed = true ↔ q.closed = true ∨ .close ∈ ms := by
  induction h with
  | nil => simp
  | snoc _ hstep ih =>
      rw [hstep.closed, ih, List.mem_append, List.mem_singleton, or_assoc]
      simp only [eq_comm]

/-! ## The invariant -/

/-- **The invariant.** The counter of pending jobs is right, nobody is about to submit a job to a
queue that is closed, and the worker has stopped only if nothing is left to be done. -/
structure Exact (q : BackgroundQueue J) : Prop where
  pending : q.pending = q.line.length + q.running.toList.length + q.entering.toList.length
  alone : q.closed = true → q.entering = none
  stopped : q.stopped = true → q.closed = true ∧ q.line = [] ∧ q.running = none

theorem exact_new : Exact ({} : BackgroundQueue J) :=
  ⟨rfl, fun _ => rfl, by simp⟩

/-- **Every moment keeps the invariant.** -/
theorem Step.exact {q t : BackgroundQueue J} {m : Moment J} (hs : Step q m t) (h : Exact q) :
    Exact t := by
  obtain ⟨hpending, halone, hstopped⟩ := h
  cases hs with
  | announce hopen hfree =>
      refine ⟨?_, ?_, hstopped⟩
      · simp [BackgroundQueue.announce, hpending, hfree]
      · intro hclosed
        exact absurd (hopen.symm.trans hclosed) (by decide)
  | accept hjob =>
      refine ⟨?_, fun _ => rfl, ?_⟩
      · simp [enqueue, hpending, hjob]
        omega
      · intro hstop
        exact absurd ((halone (hstopped hstop).1).symm.trans hjob) (by simp)
  | withdraw hjob =>
      refine ⟨?_, fun _ => rfl, hstopped⟩
      simp [BackgroundQueue.withdraw, hpending, hjob]
  | refuse hclosed => exact ⟨hpending, halone, hstopped⟩
  | take hnone hline =>
      simp only [BackgroundQueue.take, hnone, hline]
      refine ⟨?_, halone, ?_⟩
      · simp [hpending, hnone, hline]
      · intro hstop
        exact absurd (hline.symm.trans (hstopped hstop).2.1) (by simp)
  | ended panics hjob hnone =>
      simp only [endJob, hjob, hnone]
      refine ⟨?_, halone, ?_⟩
      · simp [hpending, hjob]
      · intro hstop
        exact absurd (hjob.symm.trans (hstopped hstop).2.2) (by simp)
  | signOff hjob hsome =>
      simp only [BackgroundQueue.signOff, hjob, hsome]
      refine ⟨?_, halone, ?_⟩
      · simp [hpending, hjob]
      · intro hstop
        exact absurd (hjob.symm.trans (hstopped hstop).2.2) (by simp)
  | close hfree => exact ⟨hpending, fun _ => hfree, fun hstop => ⟨rfl, (hstopped hstop).2⟩⟩
  | stop hclosed hline hnone => exact ⟨hpending, halone, fun _ => ⟨hclosed, hline, hnone⟩⟩

theorem Run.exact {q t : BackgroundQueue J} {ms : List (Moment J)} (hr : Run q ms t)
    (h : Exact q) : Exact t := by
  induction hr with
  | nil => exact h
  | snoc _ hstep ih => exact hstep.exact ih

/-- The counter goes up and down by whole jobs: it is never taken below zero. -/
theorem Step.pending {q t : BackgroundQueue J} {m : Moment J} (hs : Step q m t) (h : Exact q) :
    t.pending + m.discounted = q.pending + m.counted := by
  have hpending := h.pending
  cases hs with
  | withdraw hjob =>
      rw [hjob] at hpending
      simp [BackgroundQueue.withdraw, hpending]
  | take hnone hline => simp [BackgroundQueue.take, hnone, hline]
  | ended panics hjob hnone => simp [endJob, hjob, hnone]
  | signOff hjob hsome =>
      rw [hjob] at hpending
      simp [BackgroundQueue.signOff, hjob, hsome, hpending]
      omega
  | _ => rfl

/-! ## After the close -/

/-- A closed queue lets nobody in. -/
theorem Step.late {q t : BackgroundQueue J} {m : Moment J} (hs : Step q m t) (h : Exact q)
    (hclosed : q.closed = true) (job : J) : m ≠ .announce job ∧ m ≠ .accept job := by
  cases hs with
  | announce hopen _ => exact absurd (hopen.symm.trans hclosed) (by decide)
  | accept hjob => exact absurd ((h.alone hclosed).symm.trans hjob) (by simp)
  | _ => simp

theorem Run.late {q t : BackgroundQueue J} {ms : List (Moment J)} (hr : Run q ms t) (h : Exact q)
    (hclosed : q.closed = true) (job : J) : .announce job ∉ ms ∧ .accept job ∉ ms := by
  induction hr with
  | nil => simp
  | snoc hrun hstep ih =>
      have hlate := hstep.late (hrun.exact h) (hrun.closed.mpr (.inl hclosed)) job
      simp only [List.mem_append, List.mem_singleton, not_or]
      exact ⟨⟨ih.1, hlate.1.symm⟩, ih.2, hlate.2.symm⟩

theorem accepted_eq_nil {ms : List (Moment J)} (h : ∀ job, .accept job ∉ ms) :
    accepted ms = [] := by
  apply List.filterMap_eq_nil_iff.mpr
  intro m hm
  cases m with
  | accept job => exact absurd hm (h job)
  | _ => rfl

/-- A queue whose worker has stopped stays as it is. -/
theorem Step.rest {q t : BackgroundQueue J} {m : Moment J} (hs : Step q m t) (h : Exact q)
    (hstop : q.stopped = true) : t.ran = q.ran ∧ t.report = q.report := by
  obtain ⟨hclosed, hline, hnone⟩ := h.stopped hstop
  cases hs with
  | announce hopen _ => exact absurd (hopen.symm.trans hclosed) (by decide)
  | accept hjob => exact absurd ((h.alone hclosed).symm.trans hjob) (by simp)
  | withdraw hjob => exact absurd ((h.alone hclosed).symm.trans hjob) (by simp)
  | take _ hcons => exact absurd (hline.symm.trans hcons) (by simp)
  | ended _ hjob _ => exact absurd (hnone.symm.trans hjob) (by simp)
  | signOff hjob _ => exact absurd (hnone.symm.trans hjob) (by simp)
  | stop _ _ _ => simp [report, BackgroundQueue.stop, hstop]
  | _ => exact ⟨rfl, rfl⟩

theorem Run.rest {q t : BackgroundQueue J} {ms : List (Moment J)} (hr : Run q ms t) (h : Exact q)
    (hstop : q.stopped = true) : t.ran = q.ran ∧ t.report = q.report := by
  induction hr with
  | nil => exact ⟨rfl, rfl⟩
  | @snoc s t ms m hrun hstep ih =>
      have hstop' : s.stopped = true := (congrArg ShutdownReport.drained ih.2).trans hstop
      obtain ⟨hran, hreport⟩ := hstep.rest (hrun.exact h) hstop'
      exact ⟨hran.trans ih.1, hreport.trans ih.2⟩

/-! ## The operations as runs -/

/-- The worker gets from one state to the other, while nothing is submitted. -/
def Works (q t : BackgroundQueue J) : Prop :=
  (∃ ms, Run q ms t ∧ accepted ms = []) ∧ t.entering = q.entering

namespace Works

theorem refl (q : BackgroundQueue J) : Works q q :=
  ⟨⟨[], .nil, rfl⟩, rfl⟩

theorem of_eq {q t : BackgroundQueue J} (h : t = q) : Works q t := by
  rw [h]
  exact .refl q

theorem trans {q s t : BackgroundQueue J} : Works q s → Works s t → Works q t := by
  rintro ⟨⟨ms, hms, hnone⟩, hentering⟩ ⟨⟨ns, hns, hnone'⟩, hentering'⟩
  refine ⟨⟨ms ++ ns, hms.append hns, ?_⟩, hentering'.trans hentering⟩
  rw [accepted_append, hnone, hnone']
  rfl

theorem of_step {q t : BackgroundQueue J} {m : Moment J} (h : Step q m t)
    (hnone : m.accepted? = none) (hentering : t.entering = q.entering) : Works q t := by
  refine ⟨⟨[m], .single h, ?_⟩, hentering⟩
  rw [accepted_singleton, hnone]
  rfl

end Works

theorem works_take (q : BackgroundQueue J) : Works q q.take := by
  cases hrunning : q.running with
  | some job =>
      exact .of_eq (by simp [take, hrunning])
  | none =>
      cases hline : q.line with
      | nil =>
          exact .of_eq (by simp [take, hrunning, hline])
      | cons job rest =>
          apply Works.of_step (.take hrunning hline) rfl
          simp [take, hrunning, hline]

theorem works_endJob (q : BackgroundQueue J) (panics : J → Bool) : Works q (q.endJob panics) := by
  cases hrunning : q.running with
  | none =>
      exact .of_eq (by simp [endJob, hrunning])
  | some job =>
      cases houtcome : q.outcome with
      | none =>
          apply Works.of_step (.ended panics hrunning houtcome) rfl
          simp [endJob, hrunning, houtcome]
      | some panicked =>
          exact .of_eq (by simp [endJob, hrunning, houtcome])

theorem works_signOff (q : BackgroundQueue J) : Works q q.signOff := by
  cases hrunning : q.running with
  | none =>
      exact .of_eq (by simp [signOff, hrunning])
  | some job =>
      cases houtcome : q.outcome with
      | none =>
          exact .of_eq (by simp [signOff, hrunning, houtcome])
      | some panicked =>
          apply Works.of_step (.signOff hrunning houtcome) rfl
          simp [signOff, hrunning, houtcome]

theorem works_stop (q : BackgroundQueue J) : Works q q.stop := by
  by_cases hdone : q.closed = true ∧ q.line = [] ∧ q.running = none
  · obtain ⟨hclosed, hline, hnone⟩ := hdone
    exact .of_step (.stop hclosed hline hnone) rfl rfl
  · have hbusy : (q.closed && q.line.isEmpty && q.running.isNone) = false := by
      rw [Bool.eq_false_iff]
      intro hall
      simp only [Bool.and_eq_true, List.isEmpty_iff, Option.isNone_iff_eq_none] at hall
      exact hdone ⟨hall.1.1, hall.1.2, hall.2⟩
    exact .of_eq (by simp [stop, hbusy])

/-- What the worker does in the time it is given. -/
theorem works_workOff (blocked panics : J → Bool) (fuel : Nat) (q : BackgroundQueue J) :
    Works q (q.workOff blocked panics fuel) := by
  induction fuel generalizing q with
  | zero => exact works_stop q
  | succ fuel ih =>
      apply (works_take q).trans
      unfold workOff
      dsimp only
      split
      · exact works_stop q.take
      · split
        · exact .refl q.take
        · apply ((works_endJob q.take panics).trans (works_signOff _)).trans
          exact ih _

/-- A submission to an open queue puts its job behind all others and counts it. -/
theorem submit_open {q : BackgroundQueue J} (hopen : q.closed = false) (h : q.entering = none)
    (job : J) : q.submit job =
        (true, { q with line := q.line ++ [job], pending := q.pending + 1 }) ∧
      Run q [.announce job, .accept job] (q.submit job).2 := by
  have hsubmit : q.submit job = (true, (q.announce job).enqueue) := by
    unfold submit
    rw [hopen]
    rfl
  rw [hsubmit]
  refine ⟨?_, (Run.single (.announce hopen h)).snoc (.accept rfl)⟩
  simp [BackgroundQueue.announce, enqueue, h]

/-- A submission, made without a pause. -/
theorem submit_run {q : BackgroundQueue J} (h : q.entering = none) (job : J) :
    (∃ ms, Run q ms (q.submit job).2 ∧
      accepted ms = if (q.submit job).1 then [job] else []) ∧ (q.submit job).2.entering = none := by
  cases hclosed : q.closed with
  | true =>
      have hsubmit : q.submit job = (false, q) := by
        unfold submit
        rw [if_pos hclosed]
      rw [hsubmit]
      exact ⟨⟨[.refuse job], .single (.refuse hclosed), rfl⟩, h⟩
  | false =>
      obtain ⟨hsubmit, hrun⟩ := submit_open hclosed h job
      refine ⟨⟨_, hrun, ?_⟩, ?_⟩
      · rw [hsubmit]
        rfl
      · rw [hsubmit]
        exact h

end BackgroundQueue

namespace Sample

open BackgroundQueue

/-- What can be asked of a sample queue. -/
inductive QueueCall where
  | submit (job : Job)
  | openGate
  | shutdown

namespace GatedQueue

/-- Does what is asked, and gives the job that is accepted by it. -/
def call (q : GatedQueue) : QueueCall → Option Job × GatedQueue
  | .submit job => (if (q.submit job).1 then some job else none, (q.submit job).2)
  | .openGate => (none, q.openGate)
  | .shutdown => (none, q.shutdown.2)

def calling (q : GatedQueue) : List QueueCall → List Job × GatedQueue
  | [] => ([], q)
  | c :: cs =>
    let (job, q) := q.call c
    let (jobs, q) := q.calling cs
    (job.toList ++ jobs, q)

theorem works_settle (q : GatedQueue) : Works q.queue q.settle.queue :=
  works_workOff q.blocks Job.panics _ q.queue

theorem call_run {q : GatedQueue} (h : q.queue.entering = none) (c : QueueCall) :
    (∃ ms, Run q.queue ms (q.call c).2.queue ∧ accepted ms = (q.call c).1.toList) ∧
      (q.call c).2.queue.entering = none := by
  cases c with
  | submit job =>
      obtain ⟨⟨ms, hms, haccepted⟩, hentering⟩ := submit_run h job
      obtain ⟨⟨ns, hns, hnone⟩, hentering'⟩ :=
        works_settle { q with queue := (q.queue.submit job).2 }
      refine ⟨⟨ms ++ ns, hms.append hns, ?_⟩, hentering'.trans hentering⟩
      rw [accepted_append, haccepted, hnone]
      show _ = (if (q.queue.submit job).1 then some job else none).toList
      split <;> rfl
  | openGate =>
      obtain ⟨hworks, hentering⟩ := works_settle { q with gateOpen := true }
      exact ⟨hworks, hentering.trans h⟩
  | shutdown =>
      have hclose : Works q.queue q.queue.close := .of_step (.close h) rfl rfl
      obtain ⟨hworks, hentering⟩ :=
        hclose.trans (works_settle { q with queue := q.queue.close })
      exact ⟨hworks, hentering.trans h⟩

/-- **Whatever is asked of a sample queue is a run**, with the jobs accepted that it says. -/
theorem calling_run {q : GatedQueue} (h : q.queue.entering = none) (cs : List QueueCall) :
    ∃ ms, Run q.queue ms (q.calling cs).2.queue ∧ accepted ms = (q.calling cs).1 := by
  induction cs generalizing q with
  | nil => exact ⟨[], .nil, rfl⟩
  | cons c cs ih =>
      obtain ⟨⟨ms, hms, haccepted⟩, hentering⟩ := call_run h c
      obtain ⟨ns, hns, haccepted'⟩ := ih hentering
      refine ⟨ms ++ ns, hms.append hns, ?_⟩
      rw [accepted_append, haccepted, haccepted']
      rfl

end GatedQueue

end Sample

namespace BackgroundQueue

variable {J : Type}

/-! ## What is relied on -/

/-- **Every accepted job is done once, in the order of submission, and the counters are exact.**
After any course of moments the jobs done, the running one and those in line are the accepted ones,
in their order, and those that have ended did so as told. From the close on no job is let in; until
then each one that is submitted goes to the end of the line, if no other submission is being made.
The pending jobs are those in line, the running one and the one that is being submitted, and the
counter never meets zero from below. The panics counted are those that happened. Whoever finds the
queue idle finds that every job accepted so far has been done; and once the worker is reported to
have stopped all has been done for good, and the report stays as it is. -/
theorem done_once_in_order {ms : List (Moment J)} {q : BackgroundQueue J} (run : Run {} ms q) :
    (q.ran.map Prod.fst ++ q.running.toList ++ q.line = accepted ms ∧ q.endings = ended ms) ∧
      (∀ before after, ms = before ++ .close :: after →
        accepted ms = accepted before ∧ ∀ job, .announce job ∉ after ∧ .accept job ∉ after) ∧
      (.close ∈ ms → ∀ job, q.submit job = (false, q)) ∧
      (.close ∉ ms → q.entering = none → ∀ job, q.submit job =
          (true, { q with line := q.line ++ [job], pending := q.pending + 1 }) ∧
        Run q [.announce job, .accept job] (q.submit job).2) ∧
      q.pending = q.line.length + q.running.toList.length + q.entering.toList.length ∧
      (∀ m t, Step q m t → t.pending + m.discounted = q.pending + m.counted) ∧
      q.panicked = (ended ms).countP Prod.snd ∧
      (q.isIdle = true → q.line = [] ∧ q.running = none ∧ q.entering = none ∧
        q.ran.map Prod.fst = accepted ms) ∧
      (q.report.drained = true → q.entering = none ∧ ∀ more t, Run q more t →
        t.ran.map Prod.fst = accepted ms ∧ t.report = ⟨true, 0, (ended ms).countP Prod.snd⟩) := by
  have hexact := run.exact exact_new
  have hjobs : q.ran.map Prod.fst ++ q.running.toList ++ q.line = accepted ms := run.jobs
  have hended : q.endings = ended ms := run.endings
  have hpanicked : q.panicked = (ended ms).countP Prod.snd := by simpa using run.panicked
  refine ⟨⟨hjobs, hended⟩, ?_, ?_, ?_, hexact.pending, fun m t hstep => hstep.pending hexact,
    hpanicked, ?_, ?_⟩
  · rintro before after rfl
    obtain ⟨s, hbefore, hfrom⟩ := run.split
    have hfrom : Run s ([.close] ++ after) q := hfrom
    obtain ⟨s', hclose, hafter⟩ := hfrom.split
    have hclosed : s'.closed = true := hclose.closed.mpr (.inr (List.mem_singleton.mpr rfl))
    have hlate := hafter.late ((hbefore.append hclose).exact exact_new) hclosed
    refine ⟨?_, hlate⟩
    have hnone : accepted (.close :: after) = accepted after := rfl
    rw [accepted_append, hnone, accepted_eq_nil fun job => (hlate job).2, List.append_nil]
  · intro hclose job
    have hclosed : q.closed = true := run.closed.mpr (.inr hclose)
    unfold submit
    rw [if_pos hclosed]
  · intro hclose hentering job
    refine submit_open ?_ hentering job
    have hopen : ¬ q.closed = true := by
      rw [run.closed]
      simpa using hclose
    simpa using hopen
  · intro hidle
    have hzero : q.pending = 0 := by simpa [isIdle] using hidle
    rw [hexact.pending] at hzero
    have hline : q.line = [] := List.eq_nil_of_length_eq_zero (by omega)
    have hrunning : q.running = none :=
      Option.toList_eq_nil_iff.mp (List.eq_nil_of_length_eq_zero (by omega))
    have hentering : q.entering = none :=
      Option.toList_eq_nil_iff.mp (List.eq_nil_of_length_eq_zero (by omega))
    refine ⟨hline, hrunning, hentering, ?_⟩
    simpa [hline, hrunning] using hjobs
  · intro hdrained
    obtain ⟨hclosed, hline, hnone⟩ := hexact.stopped hdrained
    have hentering := hexact.alone hclosed
    refine ⟨hentering, fun more t hmore => ?_⟩
    obtain ⟨hran, hreport⟩ := hmore.rest hexact hdrained
    have hzero : q.pending = 0 := by simp [hexact.pending, hline, hnone, hentering]
    refine ⟨?_, ?_⟩
    · rw [hran]
      simpa [hline, hnone] using hjobs
    · rw [hreport, ← hpanicked, ← hzero]
      exact congrArg (fun drained => ShutdownReport.mk drained q.pending q.panicked) hdrained

/-- A job is submitted while another one runs, which then panics; the queue is closed before the
panic has been signed off, and a third job comes too late. -/
theorem done_once_in_order_closing :
    ∃ q : BackgroundQueue Nat, q.ran = [(1, true), (2, false)] ∧ q.report = ⟨true, 0, 1⟩ ∧
      q.submit 3 = (false, q) ∧ ∀ more t, Run q more t → t.report = ⟨true, 0, 1⟩ := by
  have run := Run.nil (q := ({} : BackgroundQueue Nat))
    |>.snoc (@Step.announce _ _ 1 rfl rfl) |>.snoc (.accept rfl) |>.snoc (.take rfl rfl)
    |>.snoc (@Step.announce _ _ 2 rfl rfl) |>.snoc (.ended (· = 1) rfl rfl) |>.snoc (.accept rfl)
    |>.snoc (.close rfl) |>.snoc (@Step.refuse _ _ 3 rfl) |>.snoc (.signOff rfl rfl)
    |>.snoc (.take rfl rfl) |>.snoc (.ended (· = 1) rfl rfl) |>.snoc (.signOff rfl rfl)
    |>.snoc (.stop rfl rfl rfl)
  obtain ⟨-, -, hlate, -, -, -, -, -, hdrained⟩ := done_once_in_order run
  refine ⟨_, rfl, rfl, hlate (by simp) 3, fun more t hmore => ?_⟩
  exact ((hdrained rfl).2 more t hmore).2

end BackgroundQueue

end ScriptHost
