import PreviewInstaller.Proofs.Cluster.Server
import PreviewInstaller.Proofs.Procedure

set_option autoImplicit false

/-! # Exchanges with the cluster

A request and the reply to it are an exchange. The steps of a procedure show its exchanges in order,
and an exchange shows whether the request succeeded. -/

namespace PreviewInstaller.Cluster

/-- Why there is no object, if there is none. -/
def faultOf {α : Type} : Except ClientFault α → Option ClientFault
  | .ok _ => none
  | .error fault => some fault

@[simp]
theorem faultOf_ok {α : Type} (object : α) : faultOf (.ok object) = none := rfl

@[simp]
theorem faultOf_error {α : Type} (fault : ClientFault) :
    faultOf (.error fault : Except ClientFault α) = some fault := rfl

theorem faultOf_eq_some {α : Type} {outcome : Except ClientFault α} {fault : ClientFault}
    (h : faultOf outcome = some fault) : outcome = .error fault := by
  cases outcome with
  | ok object => simp at h
  | error fault' => simpa using h

/-- A request with the reply to it. -/
structure Exchange where
  request : Request
  reply : Reply

namespace Exchange

/-- What the reply tells of the object that the request is about. -/
def outcome (exchange : Exchange) : Except ClientFault exchange.request.collection.Object :=
  exchange.reply.decode exchange.request.collection.codec

/-- Why the request failed, if it did. -/
def fault? (exchange : Exchange) : Option ClientFault :=
  faultOf exchange.outcome

variable {exchange : Exchange}

theorem fault?_of_ok {object : exchange.request.collection.Object}
    (h : exchange.outcome = .ok object) : exchange.fault? = none := by
  rw [fault?, h, faultOf_ok]

theorem fault?_of_error {fault : ClientFault} (h : exchange.outcome = .error fault) :
    exchange.fault? = some fault := by
  rw [fault?, h, faultOf_error]

end Exchange

end PreviewInstaller.Cluster

namespace PreviewInstaller.Procedure

open Cluster

/-- The exchange that a step is, if it is one. -/
def Step.exchange? : Step → Option Exchange
  | ⟨.send request, reply⟩ => some ⟨request, reply⟩
  | _ => none

theorem Step.eq_of_exchange? {step : Step} {exchange : Exchange}
    (h : step.exchange? = some exchange) : step = ⟨.send exchange.request, exchange.reply⟩ := by
  obtain ⟨action, answer⟩ := step
  cases action with
  | send request =>
    cases h
    rfl
  | _ => cases h

/-- The exchanges among steps, in order. -/
def exchanges (steps : List Step) : List Exchange :=
  steps.filterMap Step.exchange?

@[simp]
theorem exchanges_nil : exchanges [] = [] := rfl

@[simp]
theorem exchanges_send (request : Request) (reply : Reply) (steps : List Step) :
    exchanges (⟨.send request, reply⟩ :: steps) = ⟨request, reply⟩ :: exchanges steps := rfl

@[simp]
theorem exchanges_report (event : Event) (answer : Unit) (steps : List Step) :
    exchanges (⟨.report event, answer⟩ :: steps) = exchanges steps := rfl

@[simp]
theorem exchanges_readClock (now : Instant) (steps : List Step) :
    exchanges (⟨.readClock, now⟩ :: steps) = exchanges steps := rfl

@[simp]
theorem exchanges_append (before after : List Step) :
    exchanges (before ++ after) = exchanges before ++ exchanges after :=
  List.filterMap_append

theorem exchanges_eq_nil {steps : List Step} (h : ∀ step ∈ steps, ∀ request,
    step.action ≠ .send request) : exchanges steps = [] := by
  refine List.filterMap_eq_nil_iff.2 fun step hstep => ?_
  obtain ⟨action, answer⟩ := step
  cases action with
  | send request => exact absurd rfl (h _ hstep request)
  | _ => rfl

/-- A procedure that cannot send anything has no exchanges. -/
theorem Performs.exchanges_eq_nil {α : Type} {property : Action → Prop} {procedure : Procedure α}
    {steps : List Step} {value : α} (h : Performs property procedure)
    (hsteps : Yields procedure steps value) (hsilent : ∀ request, ¬ property (.send request)) :
    exchanges steps = [] := by
  refine Procedure.exchanges_eq_nil fun step hstep request hsend => ?_
  exact hsilent request (hsend ▸ h.of_mem_steps hsteps step hstep)

end PreviewInstaller.Procedure
