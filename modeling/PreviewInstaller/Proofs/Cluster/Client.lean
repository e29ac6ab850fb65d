import PreviewInstaller.Cluster.Client
import PreviewInstaller.Proofs.Cluster.Reply
import PreviewInstaller.Proofs.Procedure

set_option autoImplicit false

/-! # Laws of the cluster client

A call whose request has a uri is that request and the reading of its reply, and a call sends
nothing but its request. -/

namespace PreviewInstaller.Cluster

open Procedure (Performs Step Yields)

variable {α : Type} {codec : Codec α} {request : Request}

/-- Whether a request has a uri is up to its path and query. -/
theorem isSome_uri? (request : Request) :
    request.uri?.isSome = isTarget (request.target.toList.takeWhile (· ≠ '#')) := by
  unfold Request.uri?
  dsimp only
  split
  · next h => exact h.symm
  · next h => exact (Bool.eq_false_iff.2 h).symm

/-- A call sends its request and ends in what the reply is read as. -/
theorem run_call (huri : request.uri?.isSome = true) :
    (call codec request).run =
      .perform (.send request) fun reply => .done (reply.decode codec) := by
  obtain ⟨uri, huri⟩ := Option.isSome_iff_exists.1 huri
  unfold call
  rw [huri]
  show Procedure.perform _ _ = _
  congr 1
  funext reply
  show (Task.orThrow id (reply.decode codec)).run = _
  rw [Task.run_orThrow]
  cases reply.decode codec <;> rfl

theorem run_outcome_call_bind {ε β : Type} (huri : request.uri?.isSome = true)
    (next : Except ClientFault α → Task ε β) :
    (Task.outcome (call codec request) >>= next).run =
      .perform (.send request) fun reply => (next (reply.decode codec)).run := by
  rw [Task.run_bind, Task.outcome, Task.run_lift, run_call huri]
  rfl

/-- A call whose request has no uri is over before anything is sent. -/
theorem run_outcome_call_bind_unbuildable {ε β : Type} (huri : request.uri? = none)
    (next : Except ClientFault α → Task ε β) :
    (Task.outcome (call codec request) >>= next).run = (next (.error .unbuildable)).run := by
  unfold call
  rw [huri]
  rfl

theorem run_mapFault_call_bind {ε β : Type} (huri : request.uri?.isSome = true)
    (toError : ClientFault → ε) (next : α → Task ε β) :
    (Task.mapFault toError (call codec request) >>= next).run =
      .perform (.send request) fun reply =>
        match reply.decode codec with
        | .ok value => (next value).run
        | .error fault => .done (.error (toError fault)) := by
  rw [Task.run_bind]
  show ((call codec request).run.bind _).bind _ = _
  rw [run_call huri]
  simp only [Procedure.bind]
  congr 1
  funext reply
  cases reply.decode codec <;> rfl

/-- A call fails with what the reply says, or what follows it goes on from the object. -/
theorem yields_mapFault_call_bind_iff {ε β : Type} (huri : request.uri?.isSome = true)
    {toError : ClientFault → ε} {next : α → Task ε β} {steps : List Step} {result : Except ε β} :
    Yields (Task.mapFault toError (call codec request) >>= next).run steps result ↔
      ∃ reply : Reply,
        (∃ fault, reply.decode codec = .error fault ∧ steps = [⟨.send request, reply⟩] ∧
          result = .error (toError fault)) ∨
        ∃ value rest, reply.decode codec = .ok value ∧ steps = ⟨.send request, reply⟩ :: rest ∧
          Yields (next value).run rest result := by
  rw [run_mapFault_call_bind huri, Procedure.yields_perform_iff]
  refine exists_congr fun reply => ?_
  cases hreply : reply.decode codec with
  | ok value =>
    constructor
    · rintro ⟨rest, rfl, hrest⟩
      exact .inr ⟨value, rest, rfl, rfl, hrest⟩
    · rintro (⟨_, ⟨⟩, -⟩ | ⟨_, rest, ⟨⟩, rfl, hrest⟩)
      exact ⟨rest, rfl, hrest⟩
  | error fault =>
    constructor
    · rintro ⟨rest, rfl, hrest⟩
      obtain ⟨rfl, rfl⟩ := Procedure.yields_done_iff.1 hrest
      exact .inl ⟨fault, rfl, rfl, rfl⟩
    · rintro (⟨_, ⟨⟩, rfl, rfl⟩ | ⟨_, _, ⟨⟩, -⟩)
      exact ⟨[], rfl, .done _⟩

/-- A call whose request has no uri fails before anything is sent. -/
theorem yields_mapFault_call_bind_unbuildable {ε β : Type} (huri : request.uri? = none)
    {toError : ClientFault → ε} {next : α → Task ε β} {steps : List Step} {result : Except ε β} :
    Yields (Task.mapFault toError (call codec request) >>= next).run steps result ↔
      steps = [] ∧ result = .error (toError .unbuildable) := by
  have hrun : (Task.mapFault toError (call codec request) >>= next).run =
      .done (.error (toError .unbuildable)) := by
    unfold call
    rw [huri]
    rfl
  rw [hrun]
  exact Procedure.yields_done_iff

/-- A call with a finer codec tells what the same call with a coarser one does. -/
theorem call_change {β : Type} {fine : Codec α} {coarse : Codec β} {change : α → β}
    (h : fine.Refines coarse change) (request : Request) :
    call coarse request = change <$> call fine request := by
  unfold call
  cases request.uri? with
  | none => rfl
  | some uri =>
    simp only [Reply.decode_change h, map_bind]
    congr 1
    funext reply
    cases reply.decode fine <;> rfl

/-- A call performs at most one action, which is to send its request. -/
theorem performs_call {property : Action → Prop} (h : property (.send request)) :
    Performs property (call codec request).run := by
  unfold call
  split
  · exact Task.performs_throw _
  · exact Task.performs_bind (Task.performs_act h) fun _ => Task.performs_orThrow _ _

end PreviewInstaller.Cluster
