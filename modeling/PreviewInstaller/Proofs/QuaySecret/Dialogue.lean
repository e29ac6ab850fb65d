import PreviewInstaller.Proofs.Cluster.Exchange
import PreviewInstaller.Proofs.QuaySecret.Phase

set_option autoImplicit false

/-! # The dialogue of a provision

What a provision says to a cluster that can answer anything. Each request is decided by the exchange
before it, a request that fails is the last one unless it was a search that found nothing, and the
result is what the last exchange says. The dialogue is read off the phases: one lemma says what an
exchange leads to, and the dialogue follows by induction on the steps. -/

namespace PreviewInstaller.QuaySecret

open Cluster
open Procedure (Step Yields exchanges)

variable {dockerConfig : List UInt8}

/-! ## Requests -/

/-- The search for the namespace. -/
def namespaceSearch : Request :=
  .get .namespaces secretNamespace

/-- The creation of the namespace. -/
def namespaceCreation : Request :=
  .create .namespaces (Namespace.codec.write freshNamespace)

/-- The search for the secret. -/
def secretSearch : Request :=
  .get secrets secretName

/-- The update of a secret that was found. -/
def secretUpdate (dockerConfig : List UInt8) (found : Secret) : Request :=
  .replace secrets secretName (Secret.codec.write (updatedSecret found dockerConfig))

/-- The creation of the secret. -/
def secretCreation (dockerConfig : List UInt8) : Request :=
  .create secrets (Secret.codec.write (createdSecret dockerConfig))

/-- A write of the secret. -/
def IsSecretWrite (dockerConfig : List UInt8) (request : Request) : Prop :=
  request = secretCreation dockerConfig ∨ ∃ found, request = secretUpdate dockerConfig found

/-- The error that says which request failed, and why. -/
inductive Blames (dockerConfig : List UInt8) (fault : ClientFault) : Request → Error → Prop where
  | namespaceSearch :
      Blames dockerConfig fault namespaceSearch (.namespaceLookup secretNamespace fault)
  | namespaceCreation :
      Blames dockerConfig fault namespaceCreation (.namespaceCreation secretNamespace fault)
  | secretSearch : Blames dockerConfig fault secretSearch (.secretLookup secretName fault)
  | secretUpdate (found : Secret) : Blames dockerConfig fault
      (secretUpdate dockerConfig found) (.secretUpdate secretName fault)
  | secretCreation :
      Blames dockerConfig fault (secretCreation dockerConfig) (.secretCreation secretName fault)

/-! ## Exchanges -/

/-- The request that an exchange leads to; `none` if it is the last one. -/
def next? (dockerConfig : List UInt8) : Exchange → Option Request
  | ⟨.get .namespaces _, reply⟩ =>
    match reply.decode Namespace.codec with
    | .ok _ => some secretSearch
    | .error fault => if fault.isNotFound then some namespaceCreation else none
  | ⟨.create .namespaces _, reply⟩ =>
    match reply.decode Namespace.codec with
    | .ok _ => some secretSearch
    | .error _ => none
  | ⟨.get (.secrets _) _, reply⟩ =>
    match reply.decode Secret.codec with
    | .ok found => some (secretUpdate dockerConfig found)
    | .error fault => if fault.isNotFound then some (secretCreation dockerConfig) else none
  | _ => none

/-- Exchanges from a request on, each of which leads to the next one; `none` for no request. -/
inductive Dialogue (dockerConfig : List UInt8) : Option Request → List Exchange → Prop where
  | silence : Dialogue dockerConfig none []
  | exchange (request : Request) (reply : Reply) {rest : List Exchange}
      (h : Dialogue dockerConfig (next? dockerConfig ⟨request, reply⟩) rest) :
      Dialogue dockerConfig (some request) (⟨request, reply⟩ :: rest)

/-- What the last exchange says of the provision: the secret as it was stored, or the error that
names the request. -/
inductive Concludes (dockerConfig : List UInt8) : Exchange → Except Error Secret → Prop where
  | stored {request : Request} {reply : Reply} {secret : Secret}
      (hwrite : IsSecretWrite dockerConfig request)
      (h : reply.decode Secret.codec = .ok secret) :
      Concludes dockerConfig ⟨request, reply⟩ (.ok secret)
  | failed {exchange : Exchange} {fault : ClientFault} {error : Error}
      (hfault : exchange.fault? = some fault)
      (h : Blames dockerConfig fault exchange.request error) :
      Concludes dockerConfig exchange (.error error)

/-! ## Phases -/

namespace Phase

/-- The request that is the next one from a phase on, if there is one. -/
def lead? (dockerConfig : List UInt8) : Phase → Option Request
  | reportNamespace => some secretSearch
  | phase => phase.request? dockerConfig

/-- The result of a phase in which nothing is left but to report. -/
def result? : Phase → Option (Except Error Secret)
  | reportUpdated stored | reportCreated stored => some (.ok stored)
  | ended result => some result
  | _ => none

/-- A phase goes on as an exchange says: with the request that it leads to, or with its result. -/
structure Follows (dockerConfig : List UInt8) (phase : Phase) (exchange : Exchange) : Prop where
  lead : phase.lead? dockerConfig = next? dockerConfig exchange
  result : ∀ result, phase.result? = some result → Concludes dockerConfig exchange result

theorem follows_of_next (phase : Phase) {exchange : Exchange} {request : Request}
    (hlead : phase.lead? dockerConfig = some request)
    (hnext : next? dockerConfig exchange = some request) (hresult : phase.result? = none) :
    phase.Follows dockerConfig exchange := by
  refine ⟨hlead.trans hnext.symm, ?_⟩
  intro result h
  rw [hresult] at h
  cases h

theorem follows_of_stored (phase : Phase) {request : Request} {reply : Reply} {stored : Secret}
    (hlead : phase.lead? dockerConfig = none) (hresult : phase.result? = some (.ok stored))
    (hnext : next? dockerConfig ⟨request, reply⟩ = none)
    (hwrite : IsSecretWrite dockerConfig request) (h : reply.decode Secret.codec = .ok stored) :
    phase.Follows dockerConfig ⟨request, reply⟩ := by
  refine ⟨hlead.trans hnext.symm, ?_⟩
  intro result hsome
  rw [hresult] at hsome
  cases hsome
  exact .stored hwrite h

theorem follows_of_failed {exchange : Exchange} {fault : ClientFault} {error : Error}
    (hnext : next? dockerConfig exchange = none) (hfault : exchange.fault? = some fault)
    (h : Blames dockerConfig fault exchange.request error) :
    (ended (.error error)).Follows dockerConfig exchange := by
  refine ⟨hnext.symm, ?_⟩
  intro result hsome
  cases hsome
  exact .failed hfault h

/-- Whatever the reply to a request is, the next phase follows the exchange. -/
theorem follows_afterReply (phase : Phase) (request : Request)
    (h : phase.request? dockerConfig = some request) (reply : Reply) :
    (phase.afterReply reply).Follows dockerConfig ⟨request, reply⟩ := by
  cases phase with
  | findNamespace =>
    cases h
    cases hreply : reply.decode Namespace.codec with
    | ok found =>
      simp only [afterReply, hreply]
      exact follows_of_next findSecret rfl (by simp only [next?, hreply]; rfl) rfl
    | error fault =>
      cases hmissing : fault.isNotFound with
      | true =>
        simp only [afterReply, hreply, hmissing, if_true]
        exact follows_of_next createNamespace rfl
          (by simp only [next?, hreply, hmissing, if_true]; rfl) rfl
      | false =>
        simp only [afterReply, hreply, hmissing]
        exact follows_of_failed (by simp [next?, hreply, hmissing])
          (Exchange.fault?_of_error hreply) .namespaceSearch
  | createNamespace =>
    cases h
    cases hreply : reply.decode Namespace.codec with
    | ok created =>
      simp only [afterReply, hreply]
      exact follows_of_next reportNamespace rfl (by simp only [next?, hreply]) rfl
    | error fault =>
      simp only [afterReply, hreply]
      exact follows_of_failed (by simp [next?, hreply])
        (Exchange.fault?_of_error hreply) .namespaceCreation
  | findSecret =>
    cases h
    cases hreply : reply.decode Secret.codec with
    | ok found =>
      simp only [afterReply, hreply]
      exact follows_of_next (updateSecret found) rfl (by simp only [next?, hreply]; rfl) rfl
    | error fault =>
      cases hmissing : fault.isNotFound with
      | true =>
        simp only [afterReply, hreply, hmissing, if_true]
        exact follows_of_next createSecret rfl
          (by simp only [next?, hreply, hmissing, if_true]; rfl) rfl
      | false =>
        simp only [afterReply, hreply, hmissing]
        exact follows_of_failed (by simp [next?, hreply, hmissing])
          (Exchange.fault?_of_error hreply) .secretSearch
  | updateSecret found =>
    cases h
    cases hreply : reply.decode Secret.codec with
    | ok stored =>
      simp only [afterReply, hreply]
      exact follows_of_stored (reportUpdated stored) rfl rfl rfl (.inr ⟨found, rfl⟩) hreply
    | error fault =>
      simp only [afterReply, hreply]
      exact follows_of_failed rfl (Exchange.fault?_of_error hreply) (.secretUpdate found)
  | createSecret =>
    cases h
    cases hreply : reply.decode Secret.codec with
    | ok stored =>
      simp only [afterReply, hreply]
      exact follows_of_stored (reportCreated stored) rfl rfl rfl (.inl rfl) hreply
    | error fault =>
      simp only [afterReply, hreply]
      exact follows_of_failed rfl (Exchange.fault?_of_error hreply) .secretCreation
  | _ => cases h

/-- What the steps of a provision say from a phase on. -/
structure Says (dockerConfig : List UInt8) (phase : Phase) (talk : List Exchange)
    (result : Except Error Secret) : Prop where
  dialogue : Dialogue dockerConfig (phase.lead? dockerConfig) talk
  concludes : phase.result? = none →
    ∃ front last, talk = front ++ [last] ∧ Concludes dockerConfig last result
  settled : ∀ settled, phase.result? = some settled → talk = [] ∧ result = settled

theorem says_report {phase next : Phase} {event : Event} {talk : List Exchange}
    {result : Except Error Secret} (hreport : phase.report? = some (event, next))
    (h : next.Says dockerConfig talk result) : phase.Says dockerConfig talk result := by
  cases phase with
  | reportNamespace =>
    cases hreport
    exact ⟨h.dialogue, h.concludes, h.settled⟩
  | reportUpdated stored =>
    cases hreport
    exact ⟨h.dialogue, nofun, h.settled⟩
  | reportCreated stored =>
    cases hreport
    exact ⟨h.dialogue, nofun, h.settled⟩
  | _ => cases hreport

theorem says_request {phase : Phase} {request : Request} {reply : Reply} {talk : List Exchange}
    {result : Except Error Secret} (hrequest : phase.request? dockerConfig = some request)
    (h : (phase.afterReply reply).Says dockerConfig talk result) :
    phase.Says dockerConfig (⟨request, reply⟩ :: talk) result := by
  have hfollows := follows_afterReply phase request hrequest reply
  have hlead : phase.lead? dockerConfig = some request := by
    cases phase <;> first | exact hrequest | cases hrequest
  have hunsettled : phase.result? = none := by
    cases phase <;> first | rfl | cases hrequest
  refine ⟨?_, fun _ => ?_, fun settled hsettled => ?_⟩
  · rw [hlead]
    exact .exchange request reply (hfollows.lead ▸ h.dialogue)
  · cases hresult : (phase.afterReply reply).result? with
    | none =>
      obtain ⟨front, last, rfl, hlast⟩ := h.concludes hresult
      exact ⟨⟨request, reply⟩ :: front, last, rfl, hlast⟩
    | some settled =>
      obtain ⟨rfl, rfl⟩ := h.settled settled hresult
      exact ⟨[], _, rfl, hfollows.result _ hresult⟩
  · rw [hunsettled] at hsettled
    cases hsettled

/-- The steps from a phase on are a dialogue that begins with the request of the phase. -/
theorem says_of_yields {phase : Phase} {steps : List Step} {result : Except Error Secret}
    (h : Yields (phase.rest dockerConfig) steps result) :
    phase.Says dockerConfig (exchanges steps) result := by
  replace h := runs_of_yields h
  induction h with
  | ended => exact ⟨.silence, nofun, fun settled hsettled => ⟨rfl, Option.some.inj hsettled⟩⟩
  | report hreport hrest ih => exact says_report hreport ih
  | request hrequest hrest ih => exact says_request hrequest ih

end Phase

/-! ## Dialogues -/

/-- Behind an exchange the dialogue goes on with what it leads to. -/
theorem Dialogue.behind {first : Option Request} {front rest : List Exchange} {exchange : Exchange}
    (h : Dialogue dockerConfig first (front ++ exchange :: rest)) :
    Dialogue dockerConfig (next? dockerConfig exchange) rest := by
  induction front generalizing first with
  | nil =>
    cases h with
    | exchange request reply h => exact h
  | cons _ front ih =>
    cases h with
    | exchange request reply h => exact ih h

theorem Dialogue.leads {first : Option Request} {front rest : List Exchange}
    {exchange other : Exchange}
    (h : Dialogue dockerConfig first (front ++ exchange :: other :: rest)) :
    next? dockerConfig exchange = some other.request := by
  have hbehind := h.behind
  generalize next? dockerConfig exchange = next at hbehind ⊢
  cases hbehind with
  | exchange request reply _ => rfl

/-- Only a search that finds nothing leads on when it fails. -/
theorem next?_of_fault {exchange : Exchange} {fault : ClientFault}
    (h : exchange.fault? = some fault) : next? dockerConfig exchange = none ∨
      exchange.request.method = "GET" ∧ fault.isNotFound = true := by
  obtain ⟨request, reply⟩ := exchange
  have hfault : Exchange.outcome ⟨request, reply⟩ = .error fault := faultOf_eq_some h
  cases request with
  | get collection name =>
    cases hmissing : fault.isNotFound with
    | true => exact .inr ⟨rfl, rfl⟩
    | false =>
      left
      cases collection with
      | namespaces =>
        have hdecode : reply.decode Namespace.codec = .error fault := hfault
        simp [next?, hdecode, hmissing]
      | secrets namespaceName =>
        have hdecode : reply.decode Secret.codec = .error fault := hfault
        simp [next?, hdecode, hmissing]
      | _ => rfl
  | create collection body =>
    left
    cases collection with
    | namespaces =>
      have hdecode : reply.decode Namespace.codec = .error fault := hfault
      simp [next?, hdecode]
    | _ => rfl
  | _ => exact .inl rfl

/-- Every request is the first one or what some exchange leads to. -/
theorem Dialogue.request_of_mem {first : Option Request} {talk : List Exchange}
    (h : Dialogue dockerConfig first talk) : ∀ exchange ∈ talk,
      first = some exchange.request ∨
        ∃ other, next? dockerConfig other = some exchange.request := by
  induction h with
  | silence => nofun
  | exchange request reply _ ih =>
    intro exchange hmem
    rcases List.mem_cons.1 hmem with rfl | hmem
    · exact .inl rfl
    · rcases ih exchange hmem with hnext | hother
      · exact .inr ⟨_, hnext⟩
      · exact .inr hother

/-- What an exchange can lead to. -/
theorem request_of_next? {exchange : Exchange} {request : Request}
    (h : next? dockerConfig exchange = some request) : request = secretSearch ∨
      request = namespaceCreation ∨ IsSecretWrite dockerConfig request := by
  unfold next? at h
  split at h
  · split at h
    · exact .inl (Option.some.inj h).symm
    · split at h
      · exact .inr (.inl (Option.some.inj h).symm)
      · cases h
  · split at h
    · exact .inl (Option.some.inj h).symm
    · cases h
  · split at h
    · exact .inr (.inr (.inr ⟨_, (Option.some.inj h).symm⟩))
    · split at h
      · exact .inr (.inr (.inl (Option.some.inj h).symm))
      · cases h
  · cases h

/-- Only a search for a secret that finds one leads to a replacement. -/
theorem found_of_next? {exchange : Exchange} {collection : Collection} {name : String} {body : Json}
    (h : next? dockerConfig exchange = some (.replace collection name body)) :
    (∃ namespaceName other, exchange.request = .get (.secrets namespaceName) other) ∧
      ∃ found, exchange.reply.decode Secret.codec = .ok found ∧
        .replace collection name body = secretUpdate dockerConfig found := by
  unfold next? at h
  split at h
  · split at h
    · cases h
    · split at h <;> cases h
  · split at h <;> cases h
  · next namespaceName other reply =>
    split at h
    · next found hfound => exact ⟨⟨_, _, rfl⟩, found, hfound, (Option.some.inj h).symm⟩
    · split at h <;> cases h
  · cases h

/-- A replacement comes right behind the search that found the secret. -/
theorem Dialogue.search_of_replace {front rest : List Exchange} {collection : Collection}
    {name : String} {body : Json} {reply : Reply}
    (h : Dialogue dockerConfig (some namespaceSearch)
      (front ++ ⟨.replace collection name body, reply⟩ :: rest)) :
    ∃ before search found, front = before ++ [⟨secretSearch, search⟩] ∧
      search.decode Secret.codec = .ok found ∧
      .replace collection name body = secretUpdate dockerConfig found := by
  rcases List.eq_nil_or_concat front with rfl | ⟨before, ⟨request, search⟩, rfl⟩
  · cases h
  rw [List.concat_eq_append, List.append_assoc] at h
  obtain ⟨⟨namespaceName, other, hget⟩, found, hfound, hupdate⟩ := found_of_next? h.leads
  have hget : request = .get (.secrets namespaceName) other := hget
  -- no other request searches a secret
  have hsearch : request = secretSearch := by
    rcases h.request_of_mem ⟨request, search⟩ (by simp) with hfirst | ⟨exchange, hother⟩
    · cases hget ▸ hfirst
    · rcases request_of_next? hother with hsearch | hcreation | hcreation | ⟨_, hupdate⟩
      · exact hsearch
      · cases hget.symm.trans hcreation
      · cases hget.symm.trans hcreation
      · cases hget.symm.trans hupdate
  exact ⟨before, search, found, by rw [hsearch, List.concat_eq_append], hfound, hupdate⟩

/-- What a provision with an accepted token and the cluster say to each other. -/
structure Conversation (dockerConfig : List UInt8) (talk : List Exchange)
    (result : Except Error Secret) : Prop where
  /-- The namespace is searched first, and each further request is what the exchange before it
  leads to. -/
  dialogue : Dialogue dockerConfig (some namespaceSearch) talk
  /-- A request that fails is the last one, unless it searched and there was nothing. -/
  stops : ∀ front exchange rest fault, talk = front ++ exchange :: rest →
    exchange.fault? = some fault →
      rest = [] ∨ exchange.request.method = "GET" ∧ fault.isNotFound = true
  /-- The result is a secret exactly if the last request wrote it, and it is the one in the
  reply. -/
  stored_iff : ∀ secret, result = .ok secret ↔ ∃ front request reply,
    talk = front ++ [⟨request, reply⟩] ∧ IsSecretWrite dockerConfig request ∧
      reply.decode Secret.codec = .ok secret
  /-- An error names the last request, and is for the reason for which that failed. -/
  failed : ∀ error, result = .error error → ∃ front last fault, talk = front ++ [last] ∧
    last.fault? = some fault ∧ Blames dockerConfig fault last.request error

theorem fault?_of_stored {request : Request} {reply : Reply} {secret : Secret}
    (hwrite : IsSecretWrite dockerConfig request) (h : reply.decode Secret.codec = .ok secret) :
    Exchange.fault? ⟨request, reply⟩ = none := by
  rcases hwrite with rfl | ⟨found, rfl⟩
  · exact Exchange.fault?_of_ok h
  · exact Exchange.fault?_of_ok h

theorem conversation_of_concludes {talk front : List Exchange} {last : Exchange}
    {result : Except Error Secret} (h : Dialogue dockerConfig (some namespaceSearch) talk)
    (htalk : talk = front ++ [last]) (hlast : Concludes dockerConfig last result) :
    Conversation dockerConfig talk result where
  dialogue := h
  stops front' exchange rest fault htalk' hfault := by
    -- what is behind an exchange goes on with what it leads to
    have hrest := (htalk' ▸ h).behind
    rcases next?_of_fault hfault with hnone | hmissing
    · rw [hnone] at hrest
      cases hrest
      exact .inl rfl
    · exact .inr hmissing
  stored_iff secret := by
    constructor
    · rintro rfl
      cases hlast with
      | stored hwrite hreply => exact ⟨front, _, _, htalk, hwrite, hreply⟩
    · rintro ⟨front', request, reply, htalk', hwrite, hreply⟩
      obtain rfl : last = ⟨request, reply⟩ := by
        simpa using (List.append_inj' (htalk.symm.trans htalk') rfl).2
      cases hlast with
      | stored _ hreply' => rw [Except.ok.inj (hreply'.symm.trans hreply)]
      | failed hfault _ =>
        rw [fault?_of_stored hwrite hreply] at hfault
        cases hfault
  failed error := by
    rintro rfl
    cases hlast with
    | failed hfault hblames => exact ⟨front, last, _, htalk, hfault, hblames⟩

/-- A provision that rejects its token has nothing to do. -/
theorem run_provision_rejected {token : String} {error : Error}
    (h : decodeToken token = .error error) : (provision token).run = .done (.error error) := by
  unfold provision
  rw [h]
  rfl

/-- A provision that accepts its token ends with what its last exchange says. -/
theorem concludes_of_yields {token : String} {steps : List Step} {result : Except Error Secret}
    (htoken : decodeToken token = .ok dockerConfig)
    (h : Yields (provision token).run steps result) :
    Dialogue dockerConfig (some namespaceSearch) (exchanges steps) ∧
      ∃ front last, exchanges steps = front ++ [last] ∧ Concludes dockerConfig last result := by
  rw [Phase.run_provision htoken] at h
  have htold := Phase.says_of_yields h
  exact ⟨htold.dialogue, htold.concludes rfl⟩

/-- A search that finds the secret leads to the update. -/
theorem yields_found {read reply : Reply} {found : Secret} {steps : List Step}
    {result : Except Error Secret} (hread : read.decode Secret.codec = .ok found)
    (hrest : Yields (((Phase.updateSecret found).afterReply reply).rest dockerConfig)
      steps result) :
    Yields (Phase.findSecret.rest dockerConfig)
      (⟨.send secretSearch, read⟩ :: ⟨.send (secretUpdate dockerConfig found), reply⟩ :: steps)
      result := by
  have hfound : Phase.findSecret.afterReply read = .updateSecret found := by
    simp only [Phase.afterReply, hread]
  rw [Phase.rest_of_request _ secretSearch rfl]
  refine .perform _ ?_
  rw [hfound, Phase.rest_of_request _ (secretUpdate dockerConfig found) rfl]
  exact .perform _ hrest

/-- A provision that finds the namespace and the secret goes on with the update. -/
theorem yields_update {token : String} {searched read reply : Reply} {kept : Namespace}
    {found : Secret} {steps : List Step} {result : Except Error Secret}
    (htoken : decodeToken token = .ok dockerConfig)
    (hsearched : searched.decode Namespace.codec = .ok kept)
    (hread : read.decode Secret.codec = .ok found)
    (hrest : Yields (((Phase.updateSecret found).afterReply reply).rest dockerConfig)
      steps result) :
    Yields (provision token).run
      (⟨.send namespaceSearch, searched⟩ :: ⟨.send secretSearch, read⟩ ::
        ⟨.send (secretUpdate dockerConfig found), reply⟩ :: steps) result := by
  have hfound : Phase.findNamespace.afterReply searched = .findSecret := by
    simp only [Phase.afterReply, hsearched]
  rw [Phase.run_provision htoken, Phase.rest_of_request _ namespaceSearch rfl]
  refine .perform _ ?_
  rw [hfound]
  exact yields_found hread hrest

/-- The update can fail. -/
theorem yields_failed_update {token : String} {searched read refused : Reply} {kept : Namespace}
    {found : Secret} {fault : ClientFault} (htoken : decodeToken token = .ok dockerConfig)
    (hsearched : searched.decode Namespace.codec = .ok kept)
    (hread : read.decode Secret.codec = .ok found)
    (hrefused : refused.decode Secret.codec = .error fault) :
    Yields (provision token).run
      [⟨.send namespaceSearch, searched⟩, ⟨.send secretSearch, read⟩,
        ⟨.send (secretUpdate dockerConfig found), refused⟩]
      (.error (.secretUpdate secretName fault)) := by
  refine yields_update htoken hsearched hread ?_
  simp only [Phase.afterReply, hrefused]
  exact .done _

/-- The update can succeed. -/
theorem yields_updated {token : String} {searched read written : Reply} {kept : Namespace}
    {found stored : Secret} (htoken : decodeToken token = .ok dockerConfig)
    (hsearched : searched.decode Namespace.codec = .ok kept)
    (hread : read.decode Secret.codec = .ok found)
    (hwritten : written.decode Secret.codec = .ok stored) :
    Yields (provision token).run
      [⟨.send namespaceSearch, searched⟩, ⟨.send secretSearch, read⟩,
        ⟨.send (secretUpdate dockerConfig found), written⟩,
        ⟨.report (.updatedSecret ⟨secretNamespace, secretName⟩), ()⟩]
      (.ok stored) := by
  refine yields_update htoken hsearched hread ?_
  simp only [Phase.afterReply, hwritten]
  rw [Phase.rest_of_report _ _ _ rfl]
  exact .perform _ (.done _)

/-- A provision ends with the failure of its update, if that fails. -/
theorem Conversation.error_of_update {talk front rest : List Exchange} {exchange : Exchange}
    {result : Except Error Secret} {found : Secret} {fault : ClientFault}
    (h : Conversation dockerConfig talk result) (htalk : talk = front ++ exchange :: rest)
    (hupdate : exchange.request = secretUpdate dockerConfig found)
    (hfault : exchange.fault? = some fault) :
    result = .error (.secretUpdate secretName fault) := by
  obtain rfl : rest = [] := by
    rcases h.stops front exchange rest fault htalk hfault with hrest | ⟨hget, -⟩
    · exact hrest
    · simp [hupdate, secretUpdate, Request.method] at hget
  cases result with
  | ok secret =>
    obtain ⟨front', request, reply, htalk', hwrite, hreply⟩ := (h.stored_iff secret).1 rfl
    obtain rfl : exchange = ⟨request, reply⟩ := by
      simpa using (List.append_inj' (htalk.symm.trans htalk') rfl).2
    rw [fault?_of_stored hwrite hreply] at hfault
    cases hfault
  | error error =>
    obtain ⟨front', last, fault', htalk', hfault', hblames⟩ := h.failed error rfl
    obtain rfl : exchange = last := by
      simpa using (List.append_inj' (htalk.symm.trans htalk') rfl).2
    obtain rfl : fault = fault' := Option.some.inj (hfault.symm.trans hfault')
    generalize exchange.request = request at hupdate hblames
    cases hblames with
    | secretUpdate => rfl
    | _ => cases hupdate

/-- Whatever the cluster answers, a provision that rejects its token says nothing to it and ends
with what is wrong with the token; and any other provision converses with it as it should. -/
theorem provision_converses {token : String} {steps : List Step} {result : Except Error Secret}
    (h : Yields (provision token).run steps result) :
    (exchanges steps = [] ↔ ∃ error, decodeToken token = .error error) ∧
      (∀ error, decodeToken token = .error error → result = .error error) ∧
      ∀ dockerConfig, decodeToken token = .ok dockerConfig →
        Conversation dockerConfig (exchanges steps) result := by
  cases htoken : decodeToken token with
  | error error =>
    rw [run_provision_rejected htoken] at h
    obtain ⟨rfl, rfl⟩ := Procedure.yields_done_iff.1 h
    exact ⟨iff_of_true rfl ⟨error, rfl⟩, fun _ herror => congrArg _ (Except.error.inj herror),
      nofun⟩
  | ok dockerConfig =>
    obtain ⟨hdialogue, front, last, htalk, hlast⟩ := concludes_of_yields htoken h
    refine ⟨iff_of_false ?_ nofun, nofun, ?_⟩
    · rw [htalk]
      simp
    · rintro _ ⟨⟩
      exact conversation_of_concludes hdialogue htalk hlast

/-- A provision that finds no namespace and may not create it. -/
theorem provision_converses_forbidden :
    let steps : List Step :=
      [⟨.send namespaceSearch, Reply.response 404 []⟩,
       ⟨.send namespaceCreation, Reply.response 403 []⟩]
    let result : Except Error Secret :=
      .error (.namespaceCreation secretNamespace (.refused (.undescribed 403 "")))
    Yields (provision "YWJj").run steps result ∧ decodeToken "YWJj" = .ok [97, 98, 99] ∧
      Conversation [97, 98, 99] (exchanges steps) result := by
  intro steps result
  have hyields : Yields (provision "YWJj").run steps result :=
    .perform _ <| .perform _ <| .done _
  have htoken : decodeToken "YWJj" = .ok [97, 98, 99] := by decide
  exact ⟨hyields, htoken, (provision_converses hyields).2.2 _ htoken⟩

end PreviewInstaller.QuaySecret
