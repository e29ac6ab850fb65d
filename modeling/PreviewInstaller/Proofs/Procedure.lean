import PreviewInstaller.Procedure

set_option autoImplicit false

/-! # Laws of procedures

How the steps of a procedure follow from those of its parts, which actions a procedure can perform
at all, and what a run of it leaves alone. Tasks are procedures that may end early, so their laws
have one case for an early end and one for going on. -/

namespace PreviewInstaller

namespace Procedure

variable {α β : Type}

/-! ## Steps of the two shapes of a procedure -/

theorem yields_done_iff {value result : α} {steps : List Step} :
    Yields (.done value) steps result ↔ steps = [] ∧ result = value := by
  constructor
  · intro h
    cases h
    exact ⟨rfl, rfl⟩
  · rintro ⟨rfl, rfl⟩
    exact .done _

theorem yields_perform_iff {action : Action} {resume : action.Answer → Procedure α}
    {steps : List Step} {result : α} :
    Yields (.perform action resume) steps result ↔
      ∃ answer rest, steps = ⟨action, answer⟩ :: rest ∧ Yields (resume answer) rest result := by
  constructor
  · intro h
    cases h with
    | perform answer h => exact ⟨answer, _, rfl, h⟩
  · rintro ⟨answer, rest, rfl, h⟩
    exact .perform answer h

/-! ## What steps show -/

/-- The events that steps report, in order. -/
def reports (steps : List Step) : List Event :=
  steps.filterMap fun step =>
    match step.action with
    | .report event => some event
    | _ => none

/-- The requests that steps send, in order. -/
def requests (steps : List Step) : List Cluster.Request :=
  steps.filterMap fun step =>
    match step.action with
    | .send request => some request
    | _ => none

/-! ## Actions that a procedure can perform -/

/-- Every action that the procedure can perform, whatever the answers are, has the property. -/
inductive Performs (property : Action → Prop) : Procedure α → Prop where
  | done (value : α) : Performs property (.done value)
  | perform {action : Action} {resume : action.Answer → Procedure α} :
      property action → (∀ answer, Performs property (resume answer)) →
        Performs property (.perform action resume)

theorem Performs.bind {property : Action → Prop} {procedure : Procedure α}
    {next : α → Procedure β} (h : Performs property procedure)
    (hnext : ∀ value, Performs property (next value)) :
    Performs property (procedure.bind next) := by
  induction h with
  | done value => exact hnext value
  | perform h _ ih => exact .perform h ih

theorem Performs.mono {weak strong : Action → Prop} {procedure : Procedure α}
    (h : Performs strong procedure) (hle : ∀ action, strong action → weak action) :
    Performs weak procedure := by
  induction h with
  | done value => exact .done value
  | perform h _ ih => exact .perform (hle _ h) ih

theorem Performs.of_forall {property : Action → Prop} (h : ∀ action, property action)
    (procedure : Procedure α) : Performs property procedure := by
  induction procedure with
  | done value => exact .done value
  | perform action resume ih => exact .perform (h action) ih

/-- Every value that the procedure can end in, whatever the answers are, has the property. -/
inductive Ends (property : α → Prop) : Procedure α → Prop where
  | done {value : α} (h : property value) : Ends property (.done value)
  | perform {action : Action} {resume : action.Answer → Procedure α}
      (h : ∀ answer, Ends property (resume answer)) : Ends property (.perform action resume)

theorem Ends.trivial (procedure : Procedure α) : Ends (fun _ => True) procedure := by
  induction procedure with
  | done value => exact .done True.intro
  | perform action resume ih => exact .perform ih

theorem Ends.bind {property : α → Prop} {property' : β → Prop} {procedure : Procedure α}
    {next : α → Procedure β} (h : Ends property procedure)
    (hnext : ∀ value, property value → Ends property' (next value)) :
    Ends property' (procedure.bind next) := by
  induction h with
  | done h => exact hnext _ h
  | perform _ ih => exact .perform ih

/-- A sequence performs what its second part performs from the values that its first part can end
in. -/
theorem Performs.bind_of_ends {property : Action → Prop} {property' : α → Prop}
    {procedure : Procedure α} {next : α → Procedure β} (h : Performs property procedure)
    (hends : Ends property' procedure)
    (hnext : ∀ value, property' value → Performs property (next value)) :
    Performs property (procedure.bind next) := by
  induction h with
  | done value =>
    obtain ⟨hvalue⟩ := hends
    exact hnext value hvalue
  | perform h _ ih =>
    obtain ⟨⟩ | ⟨hends⟩ := hends
    exact .perform h fun answer => ih answer (hends answer)

/-- The steps of a run are among the actions that its procedure can perform. -/
theorem Performs.of_mem_steps {property : Action → Prop} {procedure : Procedure α}
    {steps : List Step} {result : α} (h : Performs property procedure)
    (hsteps : Yields procedure steps result) : ∀ step ∈ steps, property step.action := by
  induction hsteps with
  | done value => simp
  | perform answer _ ih =>
    obtain ⟨⟩ | ⟨haction, hresume⟩ := h
    intro step hstep
    rcases List.mem_cons.1 hstep with rfl | hstep
    · exact haction
    · exact ih (hresume answer) step hstep

/-! ## Runs -/

variable {World : Type} (handler : Handler World)

theorem run_bind (procedure : Procedure α) (next : α → Procedure β) (world : World) :
    run handler (procedure.bind next) world =
      run handler (next (run handler procedure world).1) (run handler procedure world).2 := by
  induction procedure generalizing world with
  | done value => rfl
  | perform action resume ih => exact ih _ _

/-- The steps that a run goes through. -/
def trace : Procedure α → World → List Step
  | .done _, _ => []
  | .perform action resume, world =>
    let (answer, world) := handler.answer action world
    ⟨action, answer⟩ :: trace (resume answer) world

theorem yields_trace (procedure : Procedure α) (world : World) :
    Yields procedure (trace handler procedure world) (run handler procedure world).1 := by
  induction procedure generalizing world with
  | done value => exact .done value
  | perform action resume ih => exact .perform _ (ih _ _)

theorem trace_bind (procedure : Procedure α) (next : α → Procedure β) (world : World) :
    trace handler (procedure.bind next) world =
      trace handler procedure world ++
        trace handler (next (run handler procedure world).1) (run handler procedure world).2 := by
  induction procedure generalizing world with
  | done value => rfl
  | perform action resume ih => exact congrArg (_ :: ·) (ih _ _)

/-- What no action of a procedure changes is as it was after a run. -/
theorem Performs.run_unchanged {Part : Type} {part : World → Part} {property : Action → Prop}
    {procedure : Procedure α} (h : Performs property procedure)
    (hpart : ∀ action world, property action → part (handler.answer action world).2 = part world)
    (world : World) : part (run handler procedure world).2 = part world := by
  induction h generalizing world with
  | done value => rfl
  | @perform action resume haction _ ih =>
    calc part (run handler (.perform action resume) world).2
        = part (handler.answer action world).2 := ih _ _
      _ = part world := hpart action world haction

/-- Handlers that agree on the actions of a procedure run it in the same way. -/
theorem Performs.run_congr {handler handler' : Handler World} {property : Action → Prop}
    {procedure : Procedure α} (h : Performs property procedure)
    (heq : ∀ action world, property action →
      handler.answer action world = handler'.answer action world) (world : World) :
    run handler procedure world = run handler' procedure world := by
  induction h generalizing world with
  | done value => rfl
  | perform haction _ ih =>
    rw [run, run, heq _ _ haction]
    exact ih _ _

/-- Worlds that no action of a procedure tells apart lead it to the same value, and stay so. -/
theorem Performs.run_related {handler : Handler World} {property : Action → Prop}
    {related : World → World → Prop} {procedure : Procedure α} (h : Performs property procedure)
    (hrelated : ∀ action first second, property action → related first second →
      (handler.answer action first).1 = (handler.answer action second).1 ∧
        related (handler.answer action first).2 (handler.answer action second).2)
    {first second : World} (hworlds : related first second) :
    (run handler procedure first).1 = (run handler procedure second).1 ∧
      related (run handler procedure first).2 (run handler procedure second).2 := by
  induction h generalizing first second with
  | done value => exact ⟨rfl, hworlds⟩
  | @perform action resume haction _ ih =>
    obtain ⟨hanswer, hafter⟩ := hrelated _ _ _ haction hworlds
    have hrun : ∀ world, run handler (.perform action resume) world =
        run handler (resume (handler.answer action world).1) (handler.answer action world).2 :=
      fun _ => rfl
    rw [hrun, hrun, ← hanswer]
    exact ih _ hafter

/-! ## Runs that stop -/

section Stopped

variable (step : (action : Action) → action.Answer → World → World → Prop)

/-- The worlds that a run can leave when it stops at any point, where `step` says how an action can
be answered in a world and what the world is then. -/
inductive Reaches : Procedure α → World → World → Prop where
  | stop (procedure : Procedure α) (world : World) : Reaches procedure world world
  | perform {action : Action} {resume : action.Answer → Procedure α} {world between after : World}
      (answer : action.Answer) (hstep : step action answer world between)
      (hrest : Reaches (resume answer) between after) :
      Reaches (.perform action resume) world after

/-- Every action that the procedure performs keeps the invariant, whatever the answers are, and the
value that it ends in has the property. -/
inductive Keeps (invariant : World → Prop) (property : α → Prop) : Procedure α → Prop where
  | done {value : α} (h : property value) : Keeps invariant property (.done value)
  | perform {action : Action} {resume : action.Answer → Procedure α}
      (hkept : ∀ answer world after, invariant world → step action answer world after →
        invariant after)
      (hresume : ∀ answer world after, invariant world → step action answer world after →
        Keeps invariant property (resume answer)) :
      Keeps invariant property (.perform action resume)

variable {step} {invariant : World → Prop} {property : α → Prop}

theorem Keeps.of_reaches {procedure : Procedure α} (h : Keeps step invariant property procedure)
    {world after : World} (hreaches : Reaches step procedure world after)
    (hworld : invariant world) : invariant after := by
  induction hreaches with
  | stop procedure world => exact hworld
  | perform answer hstep _ ih =>
    obtain ⟨⟩ | ⟨hkept, hresume⟩ := h
    exact ih (hresume _ _ _ hworld hstep) (hkept _ _ _ hworld hstep)

theorem Keeps.bind {next : α → Procedure β} {property' : β → Prop} {procedure : Procedure α}
    (h : Keeps step invariant property procedure)
    (hnext : ∀ value, property value → Keeps step invariant property' (next value)) :
    Keeps step invariant property' (procedure.bind next) := by
  induction h with
  | done h => exact hnext _ h
  | perform hkept _ ih =>
    exact .perform hkept fun answer _ _ hworld hstep => ih answer _ _ hworld hstep

/-- A procedure keeps what each of its actions keeps. -/
theorem Performs.keeps {allowed : Action → Prop} {procedure : Procedure α}
    (h : Performs allowed procedure)
    (hkept : ∀ action answer world after, allowed action → invariant world →
      step action answer world after → invariant after) (hvalue : ∀ value, property value) :
    Keeps step invariant property procedure := by
  induction h with
  | done value => exact .done (hvalue value)
  | perform haction _ ih =>
    exact .perform (fun _ _ _ => hkept _ _ _ _ haction) fun answer _ _ _ _ => ih answer

end Stopped

end Procedure

namespace Task

open Procedure (Step Yields Performs)

variable {ε φ α β : Type}

/-! ## Tasks as procedures -/

theorem run_bind (task : Task ε α) (next : α → Task ε β) :
    (task >>= next).run = task.run.bind fun
      | .ok value => (next value).run
      | .error error => .done (.error error) := rfl

theorem run_act (action : Action) :
    (act action : Task ε action.Answer).run = .perform action fun answer => .done (.ok answer) :=
  rfl

theorem run_lift (procedure : Procedure α) :
    (ExceptT.lift procedure : Task ε α).run = procedure.bind fun value => .done (.ok value) := rfl

section Run

variable {World : Type} {handler : Procedure.Handler World} {world after : World}

/-- A sequence goes on from the value of its first part. -/
theorem run_bind_ok {task : Task ε α} {next : α → Task ε β} {value : α}
    (h : Procedure.run handler task.run world = (.ok value, after)) :
    Procedure.run handler (task >>= next).run world =
      Procedure.run handler (next value).run after := by
  rw [run_bind, Procedure.run_bind, h]

/-- A sequence ends with the error of its first part. -/
theorem run_bind_error {task : Task ε α} {next : α → Task ε β} {error : ε}
    (h : Procedure.run handler task.run world = (.error error, after)) :
    Procedure.run handler (task >>= next).run world = (.error error, after) := by
  rw [run_bind, Procedure.run_bind, h]
  rfl

/-- A sequence that ends in a value goes on from a value of its first part. -/
theorem exists_of_run_bind_ok {task : Task ε α} {next : α → Task ε β} {result : β}
    (h : (Procedure.run handler (task >>= next).run world).1 = .ok result) :
    ∃ value between, Procedure.run handler task.run world = (.ok value, between) ∧
      (Procedure.run handler (next value).run between).1 = .ok result := by
  rcases hfirst : Procedure.run handler task.run world with ⟨outcome, between⟩
  cases outcome with
  | error error =>
    rw [run_bind_error hfirst] at h
    cases h
  | ok value =>
    rw [run_bind_ok hfirst] at h
    exact ⟨value, between, rfl, h⟩

theorem run_mapFault {toError : φ → ε} {task : Task φ α} {result : Except φ α}
    (h : Procedure.run handler task.run world = (result, after)) :
    Procedure.run handler (mapFault toError task).run world =
      (result.mapError toError, after) := by
  show Procedure.run handler (task.run.bind _) world = _
  rw [Procedure.run_bind, h]
  rfl

end Run

theorem run_orThrow (toError : φ → ε) (outcome : Except φ α) :
    (orThrow toError outcome).run = .done (outcome.mapError toError) := by
  cases outcome <;> rfl

/-- A sequence fails with its first part, or goes on from the value of it. -/
theorem yields_bind_iff {task : Task ε α} {next : α → Task ε β} {steps : List Step}
    {result : Except ε β} :
    Yields (task >>= next).run steps result ↔
      (∃ error, Yields task.run steps (.error error) ∧ result = .error error) ∨
        ∃ before value after, steps = before ++ after ∧ Yields task.run before (.ok value) ∧
          Yields (next value).run after result := by
  rw [run_bind, Procedure.yields_bind_iff]
  constructor
  · rintro ⟨before, outcome, after, rfl, hbefore, hafter⟩
    cases outcome with
    | ok value => exact .inr ⟨before, value, after, rfl, hbefore, hafter⟩
    | error error =>
      obtain ⟨rfl, rfl⟩ := Procedure.yields_done_iff.1 hafter
      exact .inl ⟨error, by simpa using hbefore, rfl⟩
  · rintro (⟨error, hbefore, rfl⟩ | ⟨before, value, after, rfl, hbefore, hafter⟩)
    · exact ⟨steps, .error error, [], by simp, hbefore, .done _⟩
    · exact ⟨before, .ok value, after, rfl, hbefore, hafter⟩

theorem yields_act_iff {action : Action} {steps : List Step}
    {result : Except ε action.Answer} :
    Yields (act action : Task ε action.Answer).run steps result ↔
      ∃ answer, steps = [⟨action, answer⟩] ∧ result = .ok answer := by
  rw [run_act]
  constructor
  · intro h
    obtain ⟨answer, rest, rfl, hrest⟩ := Procedure.yields_perform_iff.1 h
    obtain ⟨rfl, rfl⟩ := Procedure.yields_done_iff.1 hrest
    exact ⟨answer, rfl, rfl⟩
  · rintro ⟨answer, rfl, rfl⟩
    exact .perform answer (.done _)

theorem yields_report_iff {event : Event} {steps : List Step} {result : Except ε Unit} :
    Yields (report event : Task ε Unit).run steps result ↔
      steps = [⟨.report event, ()⟩] ∧ result = .ok () := by
  constructor
  · intro h
    obtain ⟨⟨⟩, rfl, rfl⟩ := yields_act_iff.1 h
    exact ⟨rfl, rfl⟩
  · rintro ⟨rfl, rfl⟩
    exact yields_act_iff.2 ⟨(), rfl, rfl⟩

/-- An action never ends a sequence. -/
theorem yields_act_bind_iff {action : Action} {next : action.Answer → Task ε α}
    {steps : List Step} {result : Except ε α} :
    Yields ((act action : Task ε action.Answer) >>= next).run steps result ↔
      ∃ answer rest, steps = ⟨action, answer⟩ :: rest ∧ Yields (next answer).run rest result :=
  Procedure.yields_perform_iff

/-- A report never ends a sequence. -/
theorem yields_report_bind_iff {event : Event} {next : Unit → Task ε α} {steps : List Step}
    {result : Except ε α} :
    Yields (report event >>= next).run steps result ↔
      ∃ rest, steps = ⟨.report event, ()⟩ :: rest ∧ Yields (next ()).run rest result :=
  yields_act_bind_iff.trans ⟨fun ⟨_, rest, hsteps, hrest⟩ => ⟨rest, hsteps, hrest⟩,
    fun ⟨rest, hsteps, hrest⟩ => ⟨(), rest, hsteps, hrest⟩⟩

/-- A sequence succeeds behind an outcome only if that is a value. -/
theorem yields_orThrow_bind_ok_iff {toError : φ → ε} {outcome : Except φ α} {next : α → Task ε β}
    {steps : List Step} {value : β} :
    Yields (orThrow toError outcome >>= next).run steps (.ok value) ↔
      ∃ found, outcome = .ok found ∧ Yields (next found).run steps (.ok value) := by
  rw [run_bind, run_orThrow]
  cases outcome with
  | ok found =>
    constructor
    · intro h
      exact ⟨found, rfl, h⟩
    · rintro ⟨_, ⟨⟩, h⟩
      exact h
  | error fault =>
    constructor
    · intro h
      cases (Procedure.yields_done_iff.1 h).2
    · rintro ⟨_, ⟨⟩, -⟩

/-- A procedure that cannot fail never ends a sequence. -/
theorem yields_lift_bind_iff {procedure : Procedure α} {next : α → Task ε β} {steps : List Step}
    {result : Except ε β} :
    Yields ((ExceptT.lift procedure : Task ε α) >>= next).run steps result ↔
      ∃ before value after, steps = before ++ after ∧ Yields procedure before value ∧
        Yields (next value).run after result := by
  rw [run_bind, run_lift, Procedure.bind_bind, Procedure.yields_bind_iff]
  rfl

/-! ## Tasks with other errors -/

theorem mapFault_bind (toError : φ → ε) (task : Task φ α) (next : α → Task φ β) :
    mapFault toError (task >>= next) =
      mapFault toError task >>= fun value => mapFault toError (next value) := by
  refine ExceptT.ext ?_
  show ((task >>= next).run.bind _) = ((task.run.bind _).bind _)
  rw [run_bind, Procedure.bind_bind, Procedure.bind_bind]
  congr 1
  funext outcome
  cases outcome <;> rfl

theorem mapFault_report (toError : φ → ε) (event : Event) :
    mapFault toError (report event) = report event := rfl

theorem mapFault_readClock (toError : φ → ε) : mapFault toError readClock = readClock := rfl

theorem mapFault_pure (toError : φ → ε) (value : α) :
    mapFault toError (pure value : Task φ α) = pure value := rfl

theorem mapFault_map (toError : φ → ε) (f : α → β) (task : Task φ α) :
    mapFault toError (f <$> task) = f <$> mapFault toError task := by
  rw [map_eq_pure_bind, mapFault_bind, map_eq_pure_bind]
  rfl

/-! ## Actions of tasks -/

section Performs

variable {property : Action → Prop}

theorem performs_bind {task : Task ε α} {next : α → Task ε β}
    (h : Performs property task.run) (hnext : ∀ value, Performs property (next value).run) :
    Performs property (task >>= next).run := by
  rw [run_bind]
  refine h.bind fun outcome => ?_
  cases outcome with
  | ok value => exact hnext value
  | error error => exact .done _

theorem performs_act {action : Action} (h : property action) :
    Performs property (act action : Task ε action.Answer).run :=
  .perform h fun _ => .done _

theorem performs_report {event : Event} (h : property (.report event)) :
    Performs property (report event : Task ε Unit).run :=
  performs_act h

theorem performs_lift {procedure : Procedure α} (h : Performs property procedure) :
    Performs property (ExceptT.lift procedure : Task ε α).run := by
  rw [run_lift]
  exact h.bind fun _ => .done _

theorem performs_orThrow (toError : φ → ε) (outcome : Except φ α) :
    Performs property (orThrow toError outcome).run := by
  rw [run_orThrow]
  exact .done _

theorem performs_mapFault {toError : φ → ε} {task : Task φ α}
    (h : Performs property task.run) : Performs property (mapFault toError task).run :=
  h.bind fun _ => .done _

theorem performs_outcome {task : Task φ α} (h : Performs property task.run) :
    Performs property (outcome task : Task ε (Except φ α)).run :=
  performs_lift h

theorem performs_pure (value : α) : Performs property (pure value : Task ε α).run :=
  .done _

theorem performs_throw (error : ε) : Performs property (throw error : Task ε α).run :=
  .done _

end Performs

/-! ## Errors of tasks -/

section Throws

open Procedure (Ends)

variable {property : ε → Prop}

/-- The error of an outcome has the property, if there is one. -/
def OnError (property : ε → Prop) : Except ε α → Prop
  | .ok _ => True
  | .error error => property error

/-- Every error that the task can end in, whatever the answers are, has the property. -/
abbrev Throws (property : ε → Prop) (task : Task ε α) : Prop :=
  Ends (OnError property) task.run

theorem throws_bind {task : Task ε α} {next : α → Task ε β} (h : Throws property task)
    (hnext : ∀ value, Throws property (next value)) : Throws property (task >>= next) := by
  rw [Throws, run_bind]
  refine h.bind fun outcome houtcome => ?_
  cases outcome with
  | ok value => exact hnext value
  | error error => exact .done houtcome

theorem throws_mapFault {toError : φ → ε} (task : Task φ α)
    (h : ∀ fault, property (toError fault)) : Throws property (mapFault toError task) := by
  refine (Ends.trivial task.run).bind fun outcome _ => .done ?_
  cases outcome with
  | ok value => trivial
  | error fault => exact h fault

theorem throws_pure (value : α) : Throws property (pure value : Task ε α) :=
  .done trivial

end Throws

/-! ## Tasks that stop -/

section Keeps

open Procedure (Keeps)

variable {World : Type} {step : (action : Action) → action.Answer → World → World → Prop}
  {invariant : World → Prop}

/-- The value of an outcome has the property, if there is one. -/
def OnOk (property : α → Prop) : Except ε α → Prop
  | .ok value => property value
  | .error _ => True

theorem keeps_bind {task : Task ε α} {next : α → Task ε β} {property : α → Prop}
    {property' : β → Prop} (h : Keeps step invariant (OnOk property) task.run)
    (hnext : ∀ value, property value → Keeps step invariant (OnOk property') (next value).run) :
    Keeps step invariant (OnOk property') (task >>= next).run := by
  rw [run_bind]
  refine h.bind fun outcome houtcome => ?_
  cases outcome with
  | ok value => exact hnext value houtcome
  | error error => exact .done trivial

theorem keeps_lift {procedure : Procedure α} {property : α → Prop}
    (h : Keeps step invariant property procedure) :
    Keeps step invariant (OnOk property) (ExceptT.lift procedure : Task ε α).run := by
  rw [run_lift]
  exact h.bind fun _ hvalue => .done hvalue

theorem keeps_mapFault {toError : φ → ε} {task : Task φ α} {property : α → Prop}
    (h : Keeps step invariant (OnOk property) task.run) :
    Keeps step invariant (OnOk property) (mapFault toError task).run := by
  refine h.bind fun outcome houtcome => .done ?_
  cases outcome with
  | ok value => exact houtcome
  | error fault => trivial

theorem keeps_outcome {task : Task φ α} {property : α → Prop}
    (h : Keeps step invariant (OnOk property) task.run) :
    Keeps step invariant (OnOk (OnOk property)) (outcome task : Task ε (Except φ α)).run :=
  keeps_lift h

theorem keeps_orThrow (toError : φ → ε) {outcome : Except φ α} {property : α → Prop}
    (h : OnOk property outcome) :
    Keeps step invariant (OnOk property) (orThrow toError outcome).run := by
  cases outcome with
  | ok value => exact .done h
  | error fault => exact .done trivial

end Keeps

end Task

end PreviewInstaller
