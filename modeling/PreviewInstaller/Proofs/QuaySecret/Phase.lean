import PreviewInstaller.QuaySecret
import PreviewInstaller.Proofs.Cluster.Client

set_option autoImplicit false

/-! # The phases of a provision

A provision of the pull secret goes through phases: each one sends a request, or reports, or has
ended, and what is left to do in it depends on nothing but the phase. So a provision is a small state
machine, and what holds in every phase holds in every run. -/

namespace PreviewInstaller.QuaySecret

open Cluster

/-- How far a provision has come. -/
inductive Phase where
  | findNamespace
  | createNamespace
  | reportNamespace
  | findSecret
  /-- The secret was found. -/
  | updateSecret (found : Secret)
  | reportUpdated (stored : Secret)
  | createSecret
  | reportCreated (stored : Secret)
  | ended (result : Except Error Secret)

/-- The namespace that is created where it is missing. -/
def freshNamespace : Namespace :=
  { metadata := { name := some secretNamespace } }

/-- The collection of the secret. -/
abbrev secrets : Collection := .secrets secretNamespace

/-- The secret that is created where it is missing. -/
def createdSecret (dockerConfig : List UInt8) : Secret :=
  freshSecret secretName secretNamespace dockerConfig

namespace Phase

variable {dockerConfig : List UInt8}

/-- What is left to do in a phase. -/
def rest (dockerConfig : List UInt8) : Phase → Procedure (Except Error Secret)
  | findNamespace =>
    (do
      ensureNamespace secretNamespace
      applySecret secretName secretNamespace dockerConfig).run
  | createNamespace =>
    (do
      let _ ← Task.mapFault (Error.namespaceCreation secretNamespace)
        (create Namespace.codec .namespaces freshNamespace)
      Task.report (.createdNamespace secretNamespace)
      applySecret secretName secretNamespace dockerConfig).run
  | reportNamespace =>
    (do
      Task.report (.createdNamespace secretNamespace)
      applySecret secretName secretNamespace dockerConfig).run
  | findSecret => (applySecret secretName secretNamespace dockerConfig).run
  | updateSecret found =>
    (do
      let stored ← Task.mapFault (Error.secretUpdate secretName)
        (replace Secret.codec secrets secretName (updatedSecret found dockerConfig))
      Task.report (.updatedSecret ⟨secretNamespace, secretName⟩)
      return stored).run
  | reportUpdated stored =>
    (do
      Task.report (.updatedSecret ⟨secretNamespace, secretName⟩)
      return stored : Task Error Secret).run
  | createSecret =>
    (do
      let stored ← Task.mapFault (Error.secretCreation secretName)
        (create Secret.codec secrets (createdSecret dockerConfig))
      Task.report (.createdSecret ⟨secretNamespace, secretName⟩)
      return stored).run
  | reportCreated stored =>
    (do
      Task.report (.createdSecret ⟨secretNamespace, secretName⟩)
      return stored : Task Error Secret).run
  | ended result => .done result

/-- The request that a phase sends, if it sends one. -/
def request? (dockerConfig : List UInt8) : Phase → Option Request
  | findNamespace => some (.get .namespaces secretNamespace)
  | createNamespace => some (.create .namespaces (Namespace.codec.write freshNamespace))
  | findSecret => some (.get secrets secretName)
  | updateSecret found =>
    some (.replace secrets secretName (Secret.codec.write (updatedSecret found dockerConfig)))
  | createSecret => some (.create secrets (Secret.codec.write (createdSecret dockerConfig)))
  | _ => none

/-- The phase that the reply to a request leads to. -/
def afterReply (phase : Phase) (reply : Reply) : Phase :=
  match phase with
  | findNamespace =>
    match reply.decode Namespace.codec with
    | .ok _ => findSecret
    | .error fault =>
      if fault.isNotFound then createNamespace
      else ended (.error (.namespaceLookup secretNamespace fault))
  | createNamespace =>
    match reply.decode Namespace.codec with
    | .ok _ => reportNamespace
    | .error fault => ended (.error (.namespaceCreation secretNamespace fault))
  | findSecret =>
    match reply.decode Secret.codec with
    | .ok found => updateSecret found
    | .error fault =>
      if fault.isNotFound then createSecret
      else ended (.error (.secretLookup secretName fault))
  | updateSecret _ =>
    match reply.decode Secret.codec with
    | .ok stored => reportUpdated stored
    | .error fault => ended (.error (.secretUpdate secretName fault))
  | createSecret =>
    match reply.decode Secret.codec with
    | .ok stored => reportCreated stored
    | .error fault => ended (.error (.secretCreation secretName fault))
  | phase => phase

/-- The event that a phase reports, if it reports one, and the phase after it. -/
def report? : Phase → Option (Event × Phase)
  | reportNamespace => some (.createdNamespace secretNamespace, findSecret)
  | reportUpdated stored =>
    some (.updatedSecret ⟨secretNamespace, secretName⟩, ended (.ok stored))
  | reportCreated stored =>
    some (.createdSecret ⟨secretNamespace, secretName⟩, ended (.ok stored))
  | _ => none

/-! ## Steps -/

theorem uri?_request (phase : Phase) (request : Request)
    (h : phase.request? dockerConfig = some request) : request.uri?.isSome = true := by
  rw [isSome_uri?]
  cases phase with
  | findNamespace =>
    cases h
    decide
  | createNamespace =>
    cases h
    show isTarget ((Collection.namespaces.path ++ "?").toList.takeWhile _) = true
    decide
  | findSecret =>
    cases h
    decide
  | updateSecret found =>
    cases h
    show isTarget ((secrets.path ++ "/" ++ secretName ++ "?").toList.takeWhile _) = true
    decide
  | createSecret =>
    cases h
    show isTarget ((secrets.path ++ "?").toList.takeWhile _) = true
    decide
  | _ => cases h

/-- A phase that sends a request goes on with the phase that the reply leads to. -/
theorem rest_of_request (phase : Phase) (request : Request)
    (h : phase.request? dockerConfig = some request) :
    phase.rest dockerConfig =
      .perform (.send request) fun reply => (phase.afterReply reply).rest dockerConfig := by
  have huri := uri?_request phase request h
  cases phase with
  | findNamespace =>
    cases h
    unfold rest ensureNamespace
    rw [bind_assoc]
    refine (run_outcome_call_bind huri _).trans ?_
    congr 1
    funext reply
    unfold afterReply
    cases reply.decode Namespace.codec with
    | ok _ => rfl
    | error fault =>
      cases h : fault.isNotFound with
      | false =>
        simp only [h]
        rfl
      | true =>
        simp only [h, if_true, bind_assoc]
        rfl
  | createNamespace =>
    cases h
    refine (run_mapFault_call_bind huri _ _).trans ?_
    congr 1
    funext reply
    unfold afterReply
    cases reply.decode Namespace.codec <;> rfl
  | findSecret =>
    cases h
    unfold rest applySecret
    refine (run_outcome_call_bind huri _).trans ?_
    congr 1
    funext reply
    unfold afterReply
    cases reply.decode Secret.codec with
    | ok _ => rfl
    | error fault =>
      cases h : fault.isNotFound with
      | false =>
        simp only [h]
        rfl
      | true =>
        simp only [h, if_true]
        rfl
  | updateSecret found =>
    cases h
    refine (run_mapFault_call_bind huri _ _).trans ?_
    congr 1
    funext reply
    unfold afterReply
    cases reply.decode Secret.codec <;> rfl
  | createSecret =>
    cases h
    refine (run_mapFault_call_bind huri _ _).trans ?_
    congr 1
    funext reply
    unfold afterReply
    cases reply.decode Secret.codec <;> rfl
  | _ => cases h

/-- A phase that reports goes on with the next one. -/
theorem rest_of_report (phase next : Phase) (event : Event)
    (h : phase.report? = some (event, next)) :
    phase.rest dockerConfig = .perform (.report event) fun _ => next.rest dockerConfig := by
  cases phase <;> cases h <;> rfl

/-- Only a provision that has ended has nothing left to do. -/
theorem eq_ended {phase : Phase} {result : Except Error Secret}
    (h : phase.rest dockerConfig = .done result) : phase = ended result := by
  cases phase with
  | ended result' =>
    cases h
    rfl
  | reportNamespace =>
    rw [rest_of_report reportNamespace _ _ rfl] at h
    cases h
  | reportUpdated stored =>
    rw [rest_of_report (reportUpdated stored) _ _ rfl] at h
    cases h
  | reportCreated stored =>
    rw [rest_of_report (reportCreated stored) _ _ rfl] at h
    cases h
  | _ =>
    rw [rest_of_request _ _ rfl] at h
    cases h

/-! ## Runs -/

/-- The steps from a phase on: reports and exchanges, until the provision has ended. -/
inductive Runs (dockerConfig : List UInt8) (result : Except Error Secret) :
    Phase → List Procedure.Step → Prop where
  | ended : Runs dockerConfig result (ended result) []
  | report {phase next : Phase} {event : Event} {steps : List Procedure.Step}
      (hreport : phase.report? = some (event, next)) (hrest : Runs dockerConfig result next steps) :
      Runs dockerConfig result phase (⟨.report event, ()⟩ :: steps)
  | request {phase : Phase} {request : Request} {reply : Reply} {steps : List Procedure.Step}
      (hrequest : phase.request? dockerConfig = some request)
      (hrest : Runs dockerConfig result (phase.afterReply reply) steps) :
      Runs dockerConfig result phase (⟨.send request, reply⟩ :: steps)

/-- Whatever the answers are, the steps from a phase on are a run of the phases. -/
theorem runs_of_yields {phase : Phase} {steps : List Procedure.Step} {result : Except Error Secret}
    (h : Procedure.Yields (phase.rest dockerConfig) steps result) :
    Runs dockerConfig result phase steps := by
  induction steps generalizing phase with
  | nil =>
    cases hrest : phase.rest dockerConfig with
    | done value =>
      obtain rfl := eq_ended hrest
      obtain ⟨-, rfl⟩ := Procedure.yields_done_iff.1 h
      exact .ended
    | perform action resume =>
      rw [hrest] at h
      cases h
  | cons step steps ih =>
    -- a phase that has not ended reports or sends, so there are two ways in which it can begin
    have hreport : ∀ event next, phase.report? = some (event, next) →
        Runs dockerConfig result phase (step :: steps) := by
      intro event next hreport
      rw [rest_of_report phase next event hreport] at h
      obtain ⟨⟨⟩, rest, ⟨⟩, hrest⟩ := Procedure.yields_perform_iff.1 h
      exact .report hreport (ih hrest)
    have hrequest : ∀ request, phase.request? dockerConfig = some request →
        Runs dockerConfig result phase (step :: steps) := by
      intro request hrequest
      rw [rest_of_request phase request hrequest] at h
      obtain ⟨reply, rest, ⟨⟩, hrest⟩ := Procedure.yields_perform_iff.1 h
      exact .request hrequest (ih hrest)
    cases phase with
    | ended result' => cases (Procedure.yields_done_iff.1 h).1
    | reportNamespace => exact hreport _ _ rfl
    | reportUpdated stored => exact hreport _ _ rfl
    | reportCreated stored => exact hreport _ _ rfl
    | _ => exact hrequest _ rfl

/-- A token that is accepted starts the search for the namespace. -/
theorem run_provision {token : String} (h : decodeToken token = .ok dockerConfig) :
    (provision token).run = findNamespace.rest dockerConfig := by
  unfold provision
  rw [h]
  rfl

end Phase

end PreviewInstaller.QuaySecret
