import PreviewInstaller.Proofs.Cluster.Server
import PreviewInstaller.Proofs.QuaySecret.Phase

set_option autoImplicit false

/-! # Provisions against a server

What a server makes of the request of each phase: the phase that the reply leads to, and the objects
that are kept from then on. `Move` lists all that can happen, and `move_serve` says that nothing else
does. -/

namespace PreviewInstaller.QuaySecret

open Cluster

variable {server : Server} {dockerConfig : List UInt8}

/-- The namespace of the secret, as it is kept. -/
def keptNamespace (objects : Objects) : Option Namespace :=
  objects .namespaces secretNamespace

/-- The secret, as it is kept. -/
def keptSecret (objects : Objects) : Option Secret :=
  objects secrets secretName

theorem keptNamespace_put_secret {objects : Objects} {stored : Secret} :
    keptNamespace (objects.put secrets secretName stored) = keptNamespace objects :=
  Objects.put_of_ne nofun

theorem keptSecret_put_namespace {objects : Objects} {stored : Namespace} :
    keptSecret (objects.put .namespaces secretNamespace stored) = keptSecret objects :=
  Objects.put_of_ne nofun

@[simp]
theorem keptNamespace_put {objects : Objects} {stored : Namespace} :
    keptNamespace (objects.put .namespaces secretNamespace stored) = some stored :=
  Objects.put_self

@[simp]
theorem keptSecret_put {objects : Objects} {stored : Secret} :
    keptSecret (objects.put secrets secretName stored) = some stored :=
  Objects.put_self

/-- An update of the object that is kept is not stale. -/
theorem isStale_updatedSecret (secret : Secret) :
    server.isStale secrets secret (updatedSecret secret dockerConfig) = false :=
  Server.isStale_eq_false server rfl

/-- Whether a request is a write of the secret that the server accepts. -/
def writesSecret (server : Server) (store : Store) (request : Request) : Bool :=
  request.collection = secrets && server.written? store request = some secretName

/-- What the request of a phase can lead to, when it is the request with a number: the next phase,
the objects that are kept then, and whether the secret was written. -/
inductive Move (server : Server) (dockerConfig : List UInt8) (count : Nat) (objects : Objects) :
    Phase → Phase → Objects → Bool → Prop where
  | namespaceFound (h : (keptNamespace objects).isSome) :
      Move server dockerConfig count objects .findNamespace .findSecret objects false
  | namespaceMissing (h : keptNamespace objects = none) :
      Move server dockerConfig count objects .findNamespace .createNamespace objects false
  | namespaceCreated (h : keptNamespace objects = none) :
      Move server dockerConfig count objects .createNamespace .reportNamespace
        (objects.put .namespaces secretNamespace
          (server.fill count .namespaces none freshNamespace)) false
  | namespaceConflict (h : (keptNamespace objects).isSome) (fault : ClientFault) :
      Move server dockerConfig count objects .createNamespace
        (.ended (.error (.namespaceCreation secretNamespace fault))) objects false
  | secretFound {found : Secret} (h : keptSecret objects = some found) :
      Move server dockerConfig count objects .findSecret (.updateSecret found) objects false
  | secretMissing (h : keptSecret objects = none) :
      Move server dockerConfig count objects .findSecret .createSecret objects false
  | secretUpdated {found old stored : Secret} (hold : keptSecret objects = some old)
      (hstale : server.isStale secrets old (updatedSecret found dockerConfig) = false)
      (hstored : stored =
        server.fill count secrets (some old) (updatedSecret found dockerConfig)) :
      Move server dockerConfig count objects (.updateSecret found) (.reportUpdated stored)
        (objects.put secrets secretName stored) true
  | secretStale {found : Secret} (fault : ClientFault)
      (h : ∀ old, keptSecret objects = some old →
        server.isStale secrets old (updatedSecret found dockerConfig) = true) :
      Move server dockerConfig count objects (.updateSecret found)
        (.ended (.error (.secretUpdate secretName fault))) objects false
  | secretCreated {stored : Secret} (hnamespace : (keptNamespace objects).isSome)
      (h : keptSecret objects = none)
      (hstored : stored = server.fill count secrets none (createdSecret dockerConfig)) :
      Move server dockerConfig count objects .createSecret (.reportCreated stored)
        (objects.put secrets secretName stored) true
  | secretConflict (fault : ClientFault)
      (h : (keptNamespace objects).isSome → (keptSecret objects).isSome) :
      Move server dockerConfig count objects .createSecret
        (.ended (.error (.secretCreation secretName fault))) objects false

theorem writesSecret_of_none {store : Store} {request : Request}
    (h : server.written? store request = none) : writesSecret server store request = false := by
  simp [writesSecret, h]

theorem writesSecret_of_some {store : Store} {request : Request}
    (hcollection : request.collection = secrets)
    (h : server.written? store request = some secretName) :
    writesSecret server store request = true := by
  simp [writesSecret, hcollection, h]

variable {store : Store}

theorem move_findNamespace (request : Request)
    (h : Phase.findNamespace.request? dockerConfig = some request) :
    Move server dockerConfig store.served store.objects .findNamespace
      (Phase.findNamespace.afterReply (server.serve store request).1)
      (server.serve store request).2.objects (writesSecret server store request) := by
  cases h
  cases hkept : keptNamespace store.objects with
  | none =>
    have hjudge := Server.judge_get_none server hkept
    obtain ⟨⟨fault, hdecode, hfault⟩, hobjects, hwritten⟩ :=
      Server.serve_refused Namespace.codec hjudge
    simp only [Phase.afterReply, hdecode, hfault, hobjects]
    exact .namespaceMissing hkept
  | some kept =>
    have hjudge := Server.judge_get_some server hkept
    obtain ⟨hdecode, hobjects, hwritten⟩ := Server.serve_read hjudge
    rw [Phase.afterReply, show Reply.decode Namespace.codec _ = _ from hdecode, hobjects]
    exact .namespaceFound (Option.isSome_iff_exists.2 ⟨kept, hkept⟩)

theorem move_createNamespace (request : Request)
    (h : Phase.createNamespace.request? dockerConfig = some request) :
    Move server dockerConfig store.served store.objects .createNamespace
      (Phase.createNamespace.afterReply (server.serve store request).1)
      (server.serve store request).2.objects (writesSecret server store request) := by
  cases h
  have hname : (Collection.namespaces.metadata freshNamespace).name = some secretNamespace := rfl
  cases hkept : keptNamespace store.objects with
  | none =>
    have hjudge := Server.judge_create server hname rfl hkept
    obtain ⟨hdecode, hobjects, hwritten⟩ := Server.serve_write hjudge
    rw [Phase.afterReply, show Reply.decode Namespace.codec _ = _ from hdecode, hobjects]
    exact .namespaceCreated hkept
  | some kept =>
    have hsome : (keptNamespace store.objects).isSome := Option.isSome_iff_exists.2 ⟨kept, hkept⟩
    have hjudge := Server.judge_create_conflict server hname rfl hsome
    obtain ⟨⟨fault, hdecode, -⟩, hobjects, hwritten⟩ := Server.serve_refused Namespace.codec hjudge
    rw [Phase.afterReply, show Reply.decode Namespace.codec _ = _ from hdecode, hobjects]
    exact .namespaceConflict hsome fault

theorem move_findSecret (request : Request)
    (h : Phase.findSecret.request? dockerConfig = some request) :
    Move server dockerConfig store.served store.objects .findSecret
      (Phase.findSecret.afterReply (server.serve store request).1)
      (server.serve store request).2.objects (writesSecret server store request) := by
  cases h
  cases hkept : keptSecret store.objects with
  | none =>
    have hjudge := Server.judge_get_none server hkept
    obtain ⟨⟨fault, hdecode, hfault⟩, hobjects, hwritten⟩ :=
      Server.serve_refused Secret.codec hjudge
    simp only [Phase.afterReply, hdecode, hfault, hobjects, writesSecret_of_none hwritten]
    exact .secretMissing hkept
  | some kept =>
    have hjudge := Server.judge_get_some server hkept
    obtain ⟨hdecode, hobjects, hwritten⟩ := Server.serve_read hjudge
    rw [Phase.afterReply, show Reply.decode Secret.codec _ = _ from hdecode, hobjects,
      writesSecret_of_none hwritten]
    exact .secretFound hkept

theorem move_updateSecret (found : Secret) (request : Request)
    (h : (Phase.updateSecret found).request? dockerConfig = some request) :
    Move server dockerConfig store.served store.objects (.updateSecret found)
      ((Phase.updateSecret found).afterReply (server.serve store request).1)
      (server.serve store request).2.objects (writesSecret server store request) := by
  cases h
  cases hkept : keptSecret store.objects with
  | none =>
    have hjudge := Server.judge_replace_missing server hkept (updatedSecret found dockerConfig)
    obtain ⟨⟨fault, hdecode, -⟩, hobjects, hwritten⟩ := Server.serve_refused Secret.codec hjudge
    rw [Phase.afterReply, show Reply.decode Secret.codec _ = _ from hdecode, hobjects,
      writesSecret_of_none hwritten]
    exact .secretStale fault (by simp [hkept])
  | some old =>
    cases hstale : server.isStale secrets old (updatedSecret found dockerConfig) with
    | true =>
      have hjudge := Server.judge_replace_stale server hkept hstale
      obtain ⟨⟨fault, hdecode, -⟩, hobjects, hwritten⟩ := Server.serve_refused Secret.codec hjudge
      rw [Phase.afterReply, show Reply.decode Secret.codec _ = _ from hdecode, hobjects,
        writesSecret_of_none hwritten]
      refine .secretStale fault fun other hother => ?_
      obtain rfl : old = other := Option.some.inj (hkept.symm.trans hother)
      exact hstale
    | false =>
      have hjudge := Server.judge_replace server hkept hstale
      obtain ⟨hdecode, hobjects, hwritten⟩ := Server.serve_write hjudge
      rw [Phase.afterReply, show Reply.decode Secret.codec _ = _ from hdecode, hobjects,
        writesSecret_of_some rfl hwritten]
      exact .secretUpdated hkept hstale rfl

theorem move_createSecret (request : Request)
    (h : Phase.createSecret.request? dockerConfig = some request) :
    Move server dockerConfig store.served store.objects .createSecret
      (Phase.createSecret.afterReply (server.serve store request).1)
      (server.serve store request).2.objects (writesSecret server store request) := by
  cases h
  have hname : (secrets.metadata (createdSecret dockerConfig)).name = some secretName := rfl
  cases hholds : Server.holds store.objects secrets with
  | false =>
    have hjudge := Server.judge_create_missing server hname hholds
    obtain ⟨⟨fault, hdecode, -⟩, hobjects, hwritten⟩ := Server.serve_refused Secret.codec hjudge
    rw [Phase.afterReply, show Reply.decode Secret.codec _ = _ from hdecode, hobjects,
      writesSecret_of_none hwritten]
    exact .secretConflict fault fun hnamespace => absurd hnamespace (Bool.eq_false_iff.1 hholds)
  | true =>
    cases hkept : keptSecret store.objects with
    | none =>
      have hjudge := Server.judge_create server hname hholds hkept
      obtain ⟨hdecode, hobjects, hwritten⟩ := Server.serve_write hjudge
      rw [Phase.afterReply, show Reply.decode Secret.codec _ = _ from hdecode, hobjects,
        writesSecret_of_some rfl hwritten]
      exact .secretCreated hholds hkept rfl
    | some kept =>
      have hsome : (keptSecret store.objects).isSome := Option.isSome_iff_exists.2 ⟨kept, hkept⟩
      have hjudge := Server.judge_create_conflict server hname hholds hsome
      obtain ⟨⟨fault, hdecode, -⟩, hobjects, hwritten⟩ := Server.serve_refused Secret.codec hjudge
      rw [Phase.afterReply, show Reply.decode Secret.codec _ = _ from hdecode, hobjects,
        writesSecret_of_none hwritten]
      exact .secretConflict fault fun _ => hsome

/-- Whatever a phase asks of a server, it moves on. -/
theorem move_serve (server : Server) (store : Store) (phase : Phase) (request : Request)
    (h : phase.request? dockerConfig = some request) :
    Move server dockerConfig store.served store.objects phase
      (phase.afterReply (server.serve store request).1) (server.serve store request).2.objects
      (writesSecret server store request) := by
  cases phase with
  | findNamespace => exact move_findNamespace request h
  | createNamespace => exact move_createNamespace request h
  | findSecret => exact move_findSecret request h
  | updateSecret found => exact move_updateSecret found request h
  | createSecret => exact move_createSecret request h
  | _ => cases h

end PreviewInstaller.QuaySecret
