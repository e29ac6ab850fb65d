import Mathlib.Data.List.Forall2
import PreviewInstaller.Proofs.Procedure

set_option autoImplicit false

/-! # Two runs side by side

What two runs have in common when the world treats them alike. Which actions count as alike is a
parameter: with equality the two runs are runs of the same procedure, and a weaker relation lets
them differ in what nobody is to notice.

`AnsweredAlike` is what is known of the world, `InStep` what is to be shown of the two procedures,
and `InStep.yields` and `InStep.run` say what follows of their steps and of their results. -/

namespace PreviewInstaller

namespace Procedure

variable {α β α' β' : Type} {alike : Action → Action → Prop}

/-! ## Steps side by side -/

/-- Steps with actions that are alike and the same answer. -/
def StepsAlike (alike : Action → Action → Prop) (first second : Step) : Prop :=
  alike first.action second.action ∧ HEq first.answer second.answer

theorem StepsAlike.eq {first second : Step} (h : StepsAlike Eq first second) : first = second := by
  obtain ⟨action, answer⟩ := first
  obtain ⟨action', answer'⟩ := second
  obtain ⟨rfl, hanswer⟩ := h
  exact congrArg (Step.mk action) (eq_of_heq hanswer)

/-- What steps that are alike show alike is the same of all of them. -/
theorem filterMap_eq_of_forall₂ {γ : Type} {steps steps' : List Step} {show? : Step → Option γ}
    (h : List.Forall₂ (StepsAlike alike) steps steps')
    (hshow : ∀ step step', StepsAlike alike step step' → show? step = show? step') :
    steps.filterMap show? = steps'.filterMap show? := by
  induction h with
  | nil => rfl
  | cons hstep _ ih => rw [List.filterMap_cons, List.filterMap_cons, hshow _ _ hstep, ih]

/-- The world answers two runs in the same way: as long as their actions are alike, the answers are
equal. Nothing is said of the answers once the actions have parted. -/
inductive AnsweredAlike (alike : Action → Action → Prop) : List Step → List Step → Prop where
  | firstEnded (steps : List Step) : AnsweredAlike alike [] steps
  | secondEnded (steps : List Step) : AnsweredAlike alike steps []
  | parted {first second : Step} (rest rest' : List Step)
      (h : ¬ alike first.action second.action) :
      AnsweredAlike alike (first :: rest) (second :: rest')
  | answered {first second : Step} {rest rest' : List Step} (h : StepsAlike alike first second)
      (hrest : AnsweredAlike alike rest rest') :
      AnsweredAlike alike (first :: rest) (second :: rest')

/-- Steps that are alike all along are answered alike. -/
theorem AnsweredAlike.of_forall₂ {steps steps' : List Step}
    (h : List.Forall₂ (StepsAlike alike) steps steps') : AnsweredAlike alike steps steps' := by
  induction h with
  | nil => exact .firstEnded []
  | cons hstep _ ih => exact .answered hstep ih

theorem AnsweredAlike.of_alike {first second : Step} {rest rest' : List Step}
    (h : AnsweredAlike alike (first :: rest) (second :: rest'))
    (halike : alike first.action second.action) :
    HEq first.answer second.answer ∧ AnsweredAlike alike rest rest' := by
  cases h with
  | parted _ _ hparted => exact absurd halike hparted
  | answered hstep hrest => exact ⟨hstep.2, hrest⟩

/-! ## Procedures in step -/

/-- Procedures whose actions are alike as long as the answers are equal, and that end together, in
values that are related. -/
inductive InStep (alike : Action → Action → Prop) (related : α → α' → Prop) :
    Procedure α → Procedure α' → Prop where
  | done {value : α} {value' : α'} (h : related value value') :
      InStep alike related (.done value) (.done value')
  | perform {action action' : Action} {resume : action.Answer → Procedure α}
      {resume' : action'.Answer → Procedure α'} (haction : alike action action')
      (hresume : ∀ answer answer', HEq answer answer' →
        InStep alike related (resume answer) (resume' answer')) :
      InStep alike related (.perform action resume) (.perform action' resume')

/-- A procedure is in step with itself. -/
theorem InStep.refl (halike : ∀ action, alike action action) (procedure : Procedure α) :
    InStep alike Eq procedure procedure := by
  induction procedure with
  | done value => exact .done rfl
  | perform action resume ih =>
    refine .perform (halike action) fun answer answer' hanswer => ?_
    obtain rfl := eq_of_heq hanswer
    exact ih answer

theorem InStep.bind {related : α → α' → Prop} {related' : β → β' → Prop}
    {procedure : Procedure α} {procedure' : Procedure α'} {next : α → Procedure β}
    {next' : α' → Procedure β'} (h : InStep alike related procedure procedure')
    (hnext : ∀ value value', related value value' →
      InStep alike related' (next value) (next' value')) :
    InStep alike related' (procedure.bind next) (procedure'.bind next') := by
  induction h with
  | done h => exact hnext _ _ h
  | perform haction _ ih =>
    exact .perform haction fun answer answer' hanswer => ih answer answer' hanswer

/-- Where the world answers alike, procedures in step take steps that are alike, to results that are
related. -/
theorem InStep.yields {related : α → α' → Prop} {procedure : Procedure α}
    {procedure' : Procedure α'} {steps steps' : List Step} {result : α} {result' : α'}
    (h : InStep alike related procedure procedure') (hsteps : Yields procedure steps result)
    (hsteps' : Yields procedure' steps' result') (hanswers : AnsweredAlike alike steps steps') :
    List.Forall₂ (StepsAlike alike) steps steps' ∧ related result result' := by
  -- along the first procedure: with equal answers the second one is in step with it
  induction h generalizing steps steps' with
  | done h =>
    obtain ⟨rfl, rfl⟩ := yields_done_iff.1 hsteps
    obtain ⟨rfl, rfl⟩ := yields_done_iff.1 hsteps'
    exact ⟨.nil, h⟩
  | perform haction _ ih =>
    obtain ⟨answer, rest, rfl, hrest⟩ := yields_perform_iff.1 hsteps
    obtain ⟨answer', rest', rfl, hrest'⟩ := yields_perform_iff.1 hsteps'
    obtain ⟨hanswer, hanswers⟩ := hanswers.of_alike haction
    obtain ⟨hsame, hresult⟩ := ih answer answer' hanswer hrest hrest' hanswers
    exact ⟨.cons ⟨haction, hanswer⟩ hsame, hresult⟩

/-- The answers decide on a run. -/
theorem yields_unique {procedure : Procedure α} {steps steps' : List Step} {result result' : α}
    (h : Yields procedure steps result) (h' : Yields procedure steps' result')
    (hanswers : AnsweredAlike Eq steps steps') : steps = steps' ∧ result = result' := by
  obtain ⟨hsteps, hresult⟩ := (InStep.refl (fun _ => rfl) procedure).yields h h' hanswers
  refine ⟨?_, hresult⟩
  exact List.forall₂_eq_eq_eq ▸ hsteps.imp fun _ _ hstep => hstep.eq

/-- Worlds that answer actions that are alike in the same way, and stay related by that, lead
procedures in step to results that are related. -/
theorem InStep.run {World World' : Type} {handler : Handler World} {handler' : Handler World'}
    {worlds : World → World' → Prop} {related : α → α' → Prop} {procedure : Procedure α}
    {procedure' : Procedure α'} (h : InStep alike related procedure procedure')
    (hhandlers : ∀ action action' world world', alike action action' → worlds world world' →
      HEq (handler.answer action world).1 (handler'.answer action' world').1 ∧
        worlds (handler.answer action world).2 (handler'.answer action' world').2)
    {world : World} {world' : World'} (hworlds : worlds world world') :
    related (Procedure.run handler procedure world).1
        (Procedure.run handler' procedure' world').1 ∧
      worlds (Procedure.run handler procedure world).2
        (Procedure.run handler' procedure' world').2 := by
  induction h generalizing world world' with
  | done h => exact ⟨h, hworlds⟩
  | perform haction _ ih =>
    obtain ⟨hanswer, hafter⟩ := hhandlers _ _ _ _ haction hworlds
    exact ih _ _ hanswer hafter

end Procedure

namespace Task

open Procedure (InStep)

variable {ε φ α β α' β' : Type} {alike : Action → Action → Prop}

/-! ## Tasks in step -/

/-- Outcomes that are the same error, or values that are related. -/
inductive SameOutcome (related : α → α' → Prop) : Except ε α → Except ε α' → Prop where
  | ok {value : α} {value' : α'} (h : related value value') :
      SameOutcome related (.ok value) (.ok value')
  | error (error : ε) : SameOutcome related (.error error) (.error error)

theorem SameOutcome.eq {first second : Except ε α} (h : SameOutcome Eq first second) :
    first = second := by
  cases h with
  | ok h => exact congrArg _ h
  | error error => rfl

theorem SameOutcome.refl (outcome : Except ε α) : SameOutcome Eq outcome outcome := by
  cases outcome with
  | ok value => exact .ok rfl
  | error error => exact .error error

theorem inStep_refl (halike : ∀ action, alike action action) (task : Task ε α) :
    InStep alike (SameOutcome Eq) task.run task.run := by
  have hdone : ∀ outcome outcome' : Except ε α, outcome = outcome' →
      InStep alike (SameOutcome Eq) (.done outcome) (.done outcome') := by
    rintro outcome _ rfl
    exact .done (.refl outcome)
  have h := (InStep.refl halike task.run).bind hdone
  rwa [Procedure.bind_done] at h

theorem inStep_bind {task : Task ε α} {task' : Task ε α'} {next : α → Task ε β}
    {next' : α' → Task ε β'} {related : α → α' → Prop} {related' : β → β' → Prop}
    (h : InStep alike (SameOutcome related) task.run task'.run)
    (hnext : ∀ value value', related value value' →
      InStep alike (SameOutcome related') (next value).run (next' value').run) :
    InStep alike (SameOutcome related') (task >>= next).run (task' >>= next').run := by
  rw [run_bind, run_bind]
  refine h.bind fun outcome outcome' houtcome => ?_
  cases houtcome with
  | ok hvalue => exact hnext _ _ hvalue
  | error error => exact .done (.error error)

theorem inStep_mapFault {task : Task φ α} {task' : Task φ α'} {related : α → α' → Prop}
    (toError : φ → ε) (h : InStep alike (SameOutcome related) task.run task'.run) :
    InStep alike (SameOutcome related) (mapFault toError task).run
      (mapFault toError task').run := by
  refine h.bind fun outcome outcome' houtcome => .done ?_
  cases houtcome with
  | ok hvalue => exact .ok hvalue
  | error fault => exact .error (toError fault)

end Task

end PreviewInstaller
