import Mathlib.Tactic.Convert
import ScriptHost.Scope

/-! # Operations that do not look at the journal

Sources are opened and compiled in two places only. All else that an execution does to the world
adds other events to the end of the journal, and neither its outcome nor what it adds depends on the
journal before: such an operation is `Blind`. Writing, flushing, reading, whole sessions, provisions
and the assembly of scopes are blind. So they have the same outcome in two worlds that differ only
in which sources were opened and compiled, and they open and compile none. -/

namespace ScriptHost

/-- Whether an event is part of getting at the source of a script. -/
def Event.isReading : Event → Bool
  | .openResource _ => true
  | .compile _ => true
  | _ => false

namespace World

variable {α β : Type}

def Blind (op : World → α × World) : Prop :=
  ∀ w, ∃ es : Journal, (∀ e ∈ es, e.isReading = false) ∧
    ∀ j, op { w with journal := j } = ((op w).1, { (op w).2 with journal := j ++ es })

/-- What follows an operation that can fail. -/
def handle {ε : Type} (f : ε → World → β × World) (g : α → World → β × World) :
    Except ε α → World → β × World
  | .error e, w => f e w
  | .ok a, w => g a w

namespace Blind

/-- An operation that adds nothing. -/
theorem of_silent {op : World → α × World}
    (h : ∀ w j, op { w with journal := j } = ((op w).1, { (op w).2 with journal := j })) :
    Blind op := by
  intro w
  refine ⟨[], by simp, fun j => ?_⟩
  rw [h w j, List.append_nil]

theorem pure (a : α) : Blind fun w => (a, w) :=
  of_silent fun _ _ => rfl

/-- One blind operation after the other. -/
theorem bind {op : World → α × World} {f : α → World → β × World} (h : Blind op)
    (hf : ∀ a, Blind (f a)) : Blind fun w => f (op w).1 (op w).2 := by
  intro w
  obtain ⟨es, hes, hop⟩ := h w
  obtain ⟨fs, hfs, hf⟩ := hf (op w).1 (op w).2
  refine ⟨es ++ fs, ?_, fun j => ?_⟩
  · intro e he
    rcases List.mem_append.mp he with he | he
    · exact hes e he
    · exact hfs e he
  · dsimp only
    rw [hop j, hf (j ++ es), List.append_assoc]

theorem map {op : World → α × World} (h : Blind op) (g : α → β) :
    Blind fun w => (g (op w).1, (op w).2) :=
  h.bind fun a => pure (g a)

/-- Looking at anything but the journal first. -/
theorem look {g : World → α} {f : α → World → β × World}
    (hg : ∀ (w : World) (j : Journal), g { w with journal := j } = g w) (hf : ∀ a, Blind (f a)) :
    Blind fun w => f (g w) w := by
  intro w
  obtain ⟨es, hes, h⟩ := hf (g w) w
  refine ⟨es, hes, fun j => ?_⟩
  dsimp only
  rw [hg w j, h j]

theorem handle {ε : Type} {op : World → Except ε α × World} {f : ε → World → β × World}
    {g : α → World → β × World} (h : Blind op) (hf : ∀ e, Blind (f e)) (hg : ∀ a, Blind (g a)) :
    Blind fun w => World.handle f g (op w).1 (op w).2 := by
  refine h.bind fun r => ?_
  cases r with
  | error e => exact hf e
  | ok a => exact hg a

end Blind

/-! ## Two sides of the journal -/

/-- A world without the events of getting at sources. -/
def shown (w : World) : World :=
  { w with journal := w.journal.filter fun e => !e.isReading }

/-- The sources opened and the compilations begun, in order. -/
def readings (w : World) : Journal :=
  w.journal.filter Event.isReading

theorem shown_record_reading (w : World) {e : Event} (he : e.isReading = true) :
    (w.record e).shown = w.shown := by
  simp [shown, record, he]

theorem readings_record (w : World) (e : Event) :
    (w.record e).readings = w.readings ++ if e.isReading then [e] else [] := by
  cases he : e.isReading <;> simp [readings, record, he]

/-- What outputs hold shows. -/
theorem contents_shown (w : World) (output : String) :
    w.shown.journal.contents output = w.journal.contents output := by
  show Journal.contents (w.journal.filter fun e => !e.isReading) output = _
  induction w.journal with
  | nil => rfl
  | cons e rest ih =>
      have hcons : ∀ rest : Journal, Journal.contents (e :: rest) output =
          Journal.contents [e] output ++ rest.contents output := fun rest =>
        (List.flatMap_append : ([e] ++ rest).flatMap _ = _)
      cases he : e.isReading with
      | true =>
          have hnone : Journal.contents [e] output = [] := by
            cases e with
            | openResource _ => rfl
            | compile _ => rfl
            | _ => cases he
          rw [List.filter_cons_of_neg (by simp [he]), ih, hcons, hnone, List.nil_append]
      | false =>
          rw [List.filter_cons_of_pos (by simp [he]), hcons, ih, ← hcons]

/-- **A blind operation does the same in worlds that show the same.** -/
theorem Blind.shown_eq {op : World → α × World} (h : Blind op) {v w : World}
    (hw : v.shown = w.shown) : (op v).1 = (op w).1 ∧ (op v).2.shown = (op w).2.shown := by
  obtain ⟨es, hes, hop⟩ := h w.shown
  have hfilter : es.filter (fun e => !e.isReading) = es := by
    refine List.filter_eq_self.mpr fun e he => ?_
    rw [hes e he]
    rfl
  -- Each of the two worlds is the shown one with another journal.
  have hboth : ∀ u : World, u.shown = w.shown → (op u).1 = (op w.shown).1 ∧
      (op u).2.shown = { (op w.shown).2 with journal := w.shown.journal ++ es } := by
    intro u hu
    have hself : u = { w.shown with journal := u.journal } := by
      rw [← hu]
      rfl
    have hjournal : u.journal.filter (fun e => !e.isReading) = w.shown.journal :=
      congrArg World.journal hu
    rw [hself, hop u.journal]
    refine ⟨rfl, ?_⟩
    unfold World.shown
    rw [List.filter_append, hfilter, hjournal]
    rfl
  obtain ⟨hv, hv'⟩ := hboth v hw
  obtain ⟨hself, hself'⟩ := hboth w rfl
  exact ⟨hv.trans hself.symm, hv'.trans hself'.symm⟩

/-- A blind operation opens and compiles no source. -/
theorem Blind.readings_eq {op : World → α × World} (h : Blind op) (w : World) :
    (op w).2.readings = w.readings := by
  obtain ⟨es, hes, hop⟩ := h w
  have hnone : es.filter Event.isReading = [] := by
    refine List.filter_eq_nil_iff.mpr fun e he => ?_
    rw [hes e he]
    decide
  have hself : op w = ((op w).1, { (op w).2 with journal := w.journal ++ es }) := hop w.journal
  rw [hself]
  unfold World.readings
  rw [List.filter_append, hnone, List.append_nil]

/-! ## Channels -/

theorem blind_record {e : Event} (he : e.isReading = false) : Blind fun w => ((), w.record e) := by
  intro w
  refine ⟨[e], ?_, fun j => rfl⟩
  intro x hx
  rw [List.mem_singleton.mp hx]
  exact he

theorem blind_call (on : Writer) (c : OutputCall) : Blind fun w => ((), w.call on c) := by
  refine Blind.of_silent fun w j => ?_
  cases on <;> rfl

theorem blind_write (around : Surroundings) (target : Writer) (text : Bytes) :
    Blind fun w => w.write around target text := by
  have hrecord (fault : Option String) :
      Blind fun w => (outcome fault, w.record (.write target text fault)) :=
    (blind_record rfl).map fun _ => outcome fault
  have hdone (fault : Option String) : Blind fun w => (outcome fault,
      if text.isEmpty then w.record (.write target text fault)
      else (w.record (.write target text fault)).call target (.write text)) := by
    cases text.isEmpty with
    | true => exact hrecord fault
    | false =>
        exact (hrecord fault).bind fun r => (blind_call target (.write text)).map fun _ => r
  -- The fault depends on the world, but not on its journal.
  exact Blind.look (g := fun w => w.writeFault around target text)
    (fun w j => by cases target <;> rfl) hdone

theorem blind_flush (around : Surroundings) (on : Writer) :
    Blind fun w => w.flush around on := by
  have hdone (fault : Option String) :
      Blind fun w => (outcome fault, (w.record (.flush on fault)).call on .flush) :=
    ((blind_record rfl).map fun _ => outcome fault).bind fun r =>
      (blind_call on .flush).map fun _ => r
  exact Blind.look (g := fun w => w.flushFault around on) (fun w j => by cases on <;> rfl) hdone

theorem blind_readText (r : Reader) : Blind fun w => w.readText r := by
  refine Blind.of_silent fun w j => ?_
  cases r with
  | empty => rfl
  | opened index =>
      have hremaining : ({ w with journal := j } : World).remaining (.opened index) =
          w.remaining (.opened index) := rfl
      unfold readText
      rw [hremaining]
      cases Text.decode? (w.remaining (.opened index)) <;> rfl

/-! ## Helpers -/

theorem blind_acquire (h : HelperId) (q : Query) : Blind fun w => w.acquire h q := by
  rintro ⟨readers, calls, helpers, services, journal⟩
  unfold acquire helper?
  dsimp only
  cases helpers[h.index]? with
  | none => exact ⟨[], by simp, fun j => by simp⟩
  | some helper =>
      cases services with
      | none => exact ⟨[], by simp, fun j => by simp⟩
      | some services =>
          dsimp only
          split
          · cases (services.lookup q).1 with
            | error e => exact ⟨[], by simp, fun j => by simp⟩
            | ok found =>
                refine ⟨[.acquire h ((Service.ordered q.capability found).map Service.id)], ?_,
                  fun j => rfl⟩
                intro e he
                rw [List.mem_singleton.mp he]
                rfl
          · exact ⟨[], by simp, fun j => by simp⟩

/-- **Whatever an engine does in a session is blind.** -/
theorem blind_run (around : Surroundings) (session : Session α) : Blind (World.run around session) := by
  induction session with
  | done result => exact Blind.pure result
  | write target text next ih => exact (blind_write around target text).bind ih
  | flush on next ih => exact (blind_flush around on).bind ih
  | readText r next ih => exact (blind_readText r).bind ih
  | acquire helper q next ih => exact (blind_acquire helper q).bind ih

theorem blind_dispose (h : HelperId) : Blind fun w => ((), w.dispose h) := by
  rintro ⟨readers, calls, helpers, services, journal⟩
  unfold dispose helper?
  dsimp only
  cases helpers[h.index]? with
  | none => exact ⟨[], by simp, fun j => by simp⟩
  | some helper =>
      dsimp only
      cases helper.disposed with
      | true => exact ⟨[], by simp, fun j => by simp⟩
      | false =>
          have hreleases : ∀ (hs : List Helper) (j : Journal),
              (⟨readers, calls, hs, services, j⟩ : World).releases =
                (⟨readers, calls, helpers, services, journal⟩ : World).releases := fun _ _ => rfl
          simp only [setHelper, hreleases, Bool.false_eq_true, if_false]
          cases helper.serves with
          | true =>
              refine ⟨helper.acquired.map fun id => .release h id
                (⟨readers, calls, helpers, services, journal⟩ : World).releases, ?_, fun j => rfl⟩
              intro e he
              obtain ⟨id, _, rfl⟩ := List.mem_map.mp he
              rfl
          | false => exact ⟨[], by simp, fun j => by simp⟩

theorem blind_dispose? (h : Option HelperId) : Blind fun w => ((), w.dispose? h) := by
  cases h with
  | none => exact Blind.pure ()
  | some h => exact blind_dispose h

/-! ## Scopes -/

/-- **Whatever a provider does is blind.** -/
theorem blind_provision (p : Provision) (b : Bindings) (micros : Nat) :
    Blind fun w =>
      let r := p.run { bindings := b, world := w, micros }
      ((r.1, r.2.bindings, r.2.micros), r.2.world) := by
  -- Only looking services up touches the world at all.
  induction p generalizing b micros with
  | done => exact Blind.pure (Except.ok (), b, micros)
  | fail e => exact Blind.pure (Except.error e, b, micros)
  | read next ih => exact ih b b micros
  | put name value next ih =>
      unfold Provision.run
      cases hput : b.put name value with
      | ok r =>
          simp only [hput]
          exact ih (.ok r.1) r.2 micros
      | error e =>
          simp only [hput]
          exact ih (.error e) b micros
  | putAll values next ih =>
      unfold Provision.run
      cases hput : b.putAll values with
      | ok bindings =>
          simp only [hput]
          exact ih (.ok ()) bindings micros
      | error e =>
          simp only [hput]
          exact ih (.error e) b micros
  | take name next ih =>
      unfold Provision.run
      cases htake : b.take name with
      | ok r =>
          simp only [htake]
          exact ih (.ok r.1) r.2 micros
      | error e =>
          simp only [htake]
          exact ih (.error e) b micros
  | acquire helper q next ih =>
      exact (blind_acquire helper q).bind fun found => ih found b micros
  | pause n next ih => exact ih b (micros + n)

theorem blind_provide (settings : ScopeSettings) (tracked : Bool) (providers : List Provider)
    (b : Bindings) : Blind fun w => Pipeline.provide settings tracked providers b w := by
  induction providers generalizing b with
  | nil => exact Blind.pure _
  | cons p ps ih =>
      have hrest : ∀ r : Bindings × Nat, Blind fun w =>
          Pipeline.provide settings tracked ps r.1
            (if tracked && Pipeline.isSlow settings r.2 then
              w.record (.progress (Pipeline.slowLine p.name r.2)) else w) := by
        rintro ⟨bindings, micros⟩
        dsimp only
        cases tracked && Pipeline.isSlow settings micros with
        | true => exact (blind_record rfl).bind fun _ => ih bindings
        | false => exact ih bindings
      have heq : (fun w => Pipeline.provide settings tracked (p :: ps) b w) = fun w =>
          let r := p.provision.run { bindings := b, world := w }
          handle (fun e w => (.error e, w)) (fun (r : Bindings × Nat) w =>
            Pipeline.provide settings tracked ps r.1
              (if tracked && Pipeline.isSlow settings r.2 then
                w.record (.progress (Pipeline.slowLine p.name r.2)) else w))
            (r.1.map fun _ => (r.2.bindings, r.2.micros)) r.2.world := by
        funext w
        rw [Pipeline.provide]
        rcases p.provision.run { bindings := b, world := w } with ⟨_ | _, s⟩ <;> rfl
      rw [heq]
      have hfirst : Blind fun w =>
          let r := p.provision.run { bindings := b, world := w }
          (r.1.map fun _ => (r.2.bindings, r.2.micros), r.2.world) :=
        (blind_provision p.provision b 0).map fun r => r.1.map fun _ => r.2
      exact hfirst.handle (fun e => Blind.pure (Except.error e)) hrest

theorem blind_reader (x : Execution) (around : Surroundings) (b : Base) :
    Blind fun w => x.reader around b w := by
  unfold Execution.reader
  cases x.bound Reserved.reader BindingValue.asReader? with
  | some r => exact Blind.pure r
  | none => exact Blind.of_silent fun _ _ => rfl

theorem blind_layBase (p : Pipeline) (around : Surroundings) (x : Execution)
    (supplied : Option HelperId) (b : Base) :
    Blind fun w => p.layBase around x supplied b w := by
  cases supplied with
  | some h =>
      exact (blind_reader x around b).map fun reader =>
        (x.baseBindings b h reader (x.writer around b), h)
  | none =>
      have hadd : ∀ helper : Helper, Blind fun w => w.addHelper helper :=
        fun _ => Blind.of_silent fun _ _ => rfl
      exact (blind_reader x around b).bind fun reader =>
        (hadd _).map fun h => (x.baseBindings b h reader (x.writer around b), h)

theorem blind_finish (p : Pipeline) (around : Surroundings) (x : Execution) (laid : Bindings)
    (helper : Option HelperId) (ownsHelper : Bool) :
    Blind fun w => p.finish around x laid helper ownsHelper w := by
  have hfail : ∀ e, Blind fun w =>
      ((.error e : Except ScopeError Scope), w.dispose? (if ownsHelper then helper else none)) :=
    fun e => (blind_dispose? (if ownsHelper then helper else none)).map fun _ => Except.error e
  have hdone : ∀ bindings, Blind fun w => ((.ok {
      bindings
      script := x.script
      context := x.context.getD p.settings.defaultContext
      helper
      ownsHelper } : Except ScopeError Scope), w) := fun _ => Blind.pure _
  have heq : (fun w => p.finish around x laid helper ownsHelper w) = fun w =>
      let r := Pipeline.provide p.settings
        ((helper.bind w.helper?).any fun h => (around.request h.request).tracked)
        (p.providers.providersFor (x.context.getD p.settings.defaultContext) x.engine.names
          x.engine.compatibleLanguages) laid w
      handle (fun e w => (.error e, w.dispose? (if ownsHelper then helper else none)))
        (fun bindings w => (.ok {
          bindings
          script := x.script
          context := x.context.getD p.settings.defaultContext
          helper
          ownsHelper }, w)) r.1 r.2 := by
    funext w
    unfold Pipeline.finish
    dsimp only
    split
    · next hr =>
        rw [hr]
        rfl
    · next hr =>
        rw [hr]
        rfl
  rw [heq]
  exact Blind.look
    (g := fun w => (helper.bind w.helper?).any fun h => (around.request h.request).tracked)
    (fun _ _ => rfl) fun tracked => (blind_provide p.settings tracked _ laid).handle hfail hdone

/-- **The assembly of a scope is blind.** -/
theorem blind_build (p : Pipeline) (around : Surroundings) (x : Execution) :
    Blind fun w => p.build around x w := by
  cases hsupplied : x.suppliedHelper? with
  | error e =>
      have heq : (fun w => p.build around x w) = fun w => (.error e, w) := by
        funext w
        unfold Pipeline.build
        rw [hsupplied]
      rw [heq]
      exact Blind.pure _
  | ok supplied =>
      have hrequest : ∀ b : Base, Blind fun w =>
          let r := p.layBase around x supplied b w
          p.finish around x (r.1.1.insertAll (x.extras true)) (some r.1.2) supplied.isNone r.2 :=
        fun b => (blind_layBase p around x supplied b).bind fun laid =>
          blind_finish p around x (laid.1.insertAll (x.extras true)) (some laid.2) supplied.isNone
      have hbase : ∀ base : Option Base, Blind fun w =>
          base.elim (p.finish around x (.ofList (x.extras false)) none false w) fun b =>
            let r := p.layBase around x supplied b w
            p.finish around x (r.1.1.insertAll (x.extras true)) (some r.1.2) supplied.isNone r.2 := by
        intro base
        cases base with
        | none => exact blind_finish p around x _ none false
        | some b => exact hrequest b
      have heq : (fun w => p.build around x w) = fun w =>
          handle (fun e w => (.error e, w)) (fun (base : Option Base) w =>
            base.elim (p.finish around x (.ofList (x.extras false)) none false w) fun b =>
              let r := p.layBase around x supplied b w
              p.finish around x (r.1.1.insertAll (x.extras true)) (some r.1.2) supplied.isNone r.2)
            (x.base? around (supplied.bind w.helper?)) w := by
        funext w
        unfold Pipeline.build
        rw [hsupplied]
        dsimp only
        rcases x.base? around (supplied.bind w.helper?) with e | _ | b <;> rfl
      rw [heq]
      refine Blind.look (fun _ _ => rfl) fun base => ?_
      cases base with
      | error e => exact Blind.pure (Except.error e)
      | ok base => exact hbase base

end World

end ScriptHost
