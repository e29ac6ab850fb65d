import PreviewInstaller.Proofs.Cluster.Exchange
import PreviewInstaller.Proofs.OauthRedirect

set_option autoImplicit false

/-! # The account of a push

A push of the redirect url fails nothing, so its reports are all that tells how far it came. It
patches the configuration map, searches the deployment and scales it down, each only if what comes
before succeeded, and reports the first failure as its last event. `Course` lists the courses that
the three steps can take against a cluster that can answer anything. -/

namespace PreviewInstaller.OauthRedirect

open Cluster
open Procedure (Step Yields exchanges reports)

/-! ## Requests -/

/-- The patch of the configuration map. -/
def patchRequest (url : String) : Request :=
  .mergePatch configMaps configMapName.name (redirectPatch url)

/-- The search for the deployment. -/
def searchRequest : Request :=
  .get deployments deploymentName.name

/-- The name that a deployment gives itself, in the namespace of the service if it gives none. -/
def ownName {τ : Type} (deployment : Deployment τ) : ObjectName :=
  ⟨deployment.metadata.namespaceName.getD serviceNamespace, deployment.metadata.name.getD ""⟩

/-- The replacement of a deployment by its scaled down copy. -/
def scaleRequest {τ : Type} [Timed τ] (found : Deployment τ) (now : Instant) : Request :=
  .replace (.deployments (ownName found).namespaceName) (ownName found).name
    (Deployment.codec.write (scaledDown found now.rfc3339))

/-! ## Courses -/

/-- The courses of the three steps: what is done, and the event that tells of a failure. -/
inductive Course (url : String) : List Step → Except Event Unit → Prop where
  | unset (hurl : url = "") : Course url [] (.error .redirectUrlNotSet)
  | patchFailed {patch : Reply} {fault : ClientFault} (hurl : url ≠ "")
      (hpatch : patch.decode ConfigMap.codec = .error fault) :
      Course url [⟨.send (patchRequest url), patch⟩] (.error (.patchFailed configMapName fault))
  | searchFailed {patch search : Reply} {patched : ConfigMap} {fault : ClientFault}
      (hurl : url ≠ "") (hpatch : patch.decode ConfigMap.codec = .ok patched)
      (hsearch : search.decode Deployment.codec = .error fault) :
      Course url
        [⟨.send (patchRequest url), patch⟩,
         ⟨.report (.patched configMapName redirectUrlKey), ()⟩,
         ⟨.send searchRequest, search⟩]
        (.error (.deploymentLookupFailed deploymentName fault))
  /-- The deployment has a name that no uri can hold. -/
  | scaleUnbuildable {patch search : Reply} {patched : ConfigMap} {found : Deployment}
      {now : Instant} (hurl : url ≠ "") (hpatch : patch.decode ConfigMap.codec = .ok patched)
      (hsearch : search.decode Deployment.codec = .ok found)
      (huri : (scaleRequest found now).uri? = none) :
      Course url
        [⟨.send (patchRequest url), patch⟩,
         ⟨.report (.patched configMapName redirectUrlKey), ()⟩,
         ⟨.send searchRequest, search⟩,
         ⟨.readClock, now⟩]
        (.error (.scaleDownFailed deploymentName .unbuildable))
  | scaleFailed {patch search scale : Reply} {patched : ConfigMap} {found : Deployment}
      {now : Instant} {fault : ClientFault} (hurl : url ≠ "")
      (hpatch : patch.decode ConfigMap.codec = .ok patched)
      (hsearch : search.decode Deployment.codec = .ok found)
      (huri : (scaleRequest found now).uri?.isSome = true)
      (hscale : scale.decode Deployment.codec = .error fault) :
      Course url
        [⟨.send (patchRequest url), patch⟩,
         ⟨.report (.patched configMapName redirectUrlKey), ()⟩,
         ⟨.send searchRequest, search⟩,
         ⟨.readClock, now⟩,
         ⟨.send (scaleRequest found now), scale⟩]
        (.error (.scaleDownFailed deploymentName fault))
  | scaled {patch search scale : Reply} {patched : ConfigMap} {found stored : Deployment}
      {now : Instant} (hurl : url ≠ "")
      (hpatch : patch.decode ConfigMap.codec = .ok patched)
      (hsearch : search.decode Deployment.codec = .ok found)
      (huri : (scaleRequest found now).uri?.isSome = true)
      (hscale : scale.decode Deployment.codec = .ok stored) :
      Course url
        [⟨.send (patchRequest url), patch⟩,
         ⟨.report (.patched configMapName redirectUrlKey), ()⟩,
         ⟨.send searchRequest, search⟩,
         ⟨.readClock, now⟩,
         ⟨.send (scaleRequest found now), scale⟩,
         ⟨.report (.scaledDown (ownName found)), ()⟩]
        (.ok ())

/-- Without a url there is nothing to do. -/
theorem run_steps_unset {url : Option String} (hurl : url.getD "" = "") :
    (steps url).run = .done (.error .redirectUrlNotSet) := by
  unfold steps stepsDated
  simp only [hurl, if_true]
  rfl

/-- The steps one after another. -/
theorem steps_eq (url : Option String) (hurl : url.getD "" ≠ "") :
    steps url = (do
      let _ ← Task.mapFault (.patchFailed configMapName)
        (call ConfigMap.codec (patchRequest (url.getD "")))
      Task.report (.patched configMapName redirectUrlKey)
      let found ← Task.mapFault (.deploymentLookupFailed deploymentName)
        (call Deployment.codec searchRequest)
      let now ← Task.readClock
      let _ ← Task.mapFault (.scaleDownFailed deploymentName)
        (call Deployment.codec (scaleRequest found now))
      Task.report (.scaledDown (ownName found)) : Task Event Unit) := by
  rw [steps_eq_dated]
  unfold stepsDated patchConfigMap scaleDown mergePatch Cluster.get replace
  -- each call gets the event of its own step, so a failure in the scaling is one of its call
  simp only [hurl, if_false, Task.mapFault_bind, Task.mapFault_report, Task.mapFault_readClock,
    Task.mapFault_pure, bind_assoc, pure_bind, bind_pure_unit]
  rfl

/-- Whatever the cluster answers, the steps take one of the courses. -/
theorem course_of_yields {url : Option String} {taken : List Step} {outcome : Except Event Unit}
    (h : Yields (steps url).run taken outcome) : Course (url.getD "") taken outcome := by
  by_cases hurl : url.getD "" = ""
  · rw [run_steps_unset hurl] at h
    obtain ⟨rfl, rfl⟩ := Procedure.yields_done_iff.1 h
    exact .unset hurl
  rw [steps_eq url hurl] at h
  obtain ⟨patch, ⟨fault, hpatch, rfl, rfl⟩ | ⟨patched, rest, hpatch, rfl, htold⟩⟩ :=
    (yields_mapFault_call_bind_iff (isSome_uri_patch _)).1 h
  · exact .patchFailed hurl hpatch
  obtain ⟨rest, rfl, hgot⟩ := Task.yields_report_bind_iff.1 htold
  obtain ⟨search, ⟨fault, hsearch, rfl, rfl⟩ | ⟨found, rest, hsearch, rfl, hclock⟩⟩ :=
    (yields_mapFault_call_bind_iff isSome_uri_get).1 hgot
  · exact .searchFailed hurl hpatch hsearch
  obtain ⟨now, rest, rfl, hscaled⟩ := Task.yields_act_bind_iff.1 hclock
  -- what is replaced has the name that the deployment gives itself, which no uri may hold
  cases huri : (scaleRequest found now).uri? with
  | none =>
    obtain ⟨rfl, rfl⟩ := (yields_mapFault_call_bind_unbuildable huri).1 hscaled
    exact .scaleUnbuildable hurl hpatch hsearch huri
  | some uri =>
    have hsome : (scaleRequest found now).uri?.isSome = true := by rw [huri, Option.isSome_some]
    obtain ⟨scale, ⟨fault, hscale, rfl, rfl⟩ | ⟨stored, rest, hscale, rfl, hdone⟩⟩ :=
      (yields_mapFault_call_bind_iff hsome).1 hscaled
    · exact .scaleFailed hurl hpatch hsearch hsome hscale
    · obtain ⟨rfl, rfl⟩ := Task.yields_report_iff.1 hdone
      exact .scaled hurl hpatch hsearch hsome hscale

/-- The steps go on with the scaling when the deployment is found. -/
theorem yields_of_found {url : Option String} (hurl : url.getD "" ≠ "") {patch search : Reply}
    {patched : ConfigMap} {found : Deployment} {now : Instant} {rest : List Step}
    {outcome : Except Event Unit} (hpatch : patch.decode ConfigMap.codec = .ok patched)
    (hsearch : search.decode Deployment.codec = .ok found)
    (h : Yields (Task.mapFault (.scaleDownFailed deploymentName)
        (call Deployment.codec (scaleRequest found now)) >>= fun _ =>
          (Task.report (.scaledDown (ownName found)) : Task Event Unit)).run rest outcome) :
    Yields (steps url).run
      (⟨.send (patchRequest (url.getD "")), patch⟩ ::
        ⟨.report (.patched configMapName redirectUrlKey), ()⟩ ::
        ⟨.send searchRequest, search⟩ :: ⟨.readClock, now⟩ :: rest) outcome := by
  rw [steps_eq url hurl]
  refine (yields_mapFault_call_bind_iff (isSome_uri_patch _)).2 ⟨_, .inr ⟨_, _, hpatch, rfl, ?_⟩⟩
  refine Task.yields_report_bind_iff.2 ⟨_, rfl, ?_⟩
  refine (yields_mapFault_call_bind_iff isSome_uri_get).2 ⟨_, .inr ⟨_, _, hsearch, rfl, ?_⟩⟩
  exact Task.yields_act_bind_iff.2 ⟨_, _, rfl, h⟩

/-- The steps can take every course. -/
theorem Course.yields {url : Option String} {taken : List Step} {outcome : Except Event Unit}
    (h : Course (url.getD "") taken outcome) : Yields (steps url).run taken outcome := by
  cases h with
  | unset hurl =>
    rw [run_steps_unset hurl]
    exact .done _
  | patchFailed hurl hpatch =>
    rw [steps_eq url hurl]
    exact (yields_mapFault_call_bind_iff (isSome_uri_patch _)).2
      ⟨_, .inl ⟨_, hpatch, rfl, rfl⟩⟩
  | searchFailed hurl hpatch hsearch =>
    rw [steps_eq url hurl]
    refine (yields_mapFault_call_bind_iff (isSome_uri_patch _)).2 ⟨_, .inr ⟨_, _, hpatch, rfl, ?_⟩⟩
    refine Task.yields_report_bind_iff.2 ⟨_, rfl, ?_⟩
    exact (yields_mapFault_call_bind_iff isSome_uri_get).2 ⟨_, .inl ⟨_, hsearch, rfl, rfl⟩⟩
  | scaleUnbuildable hurl hpatch hsearch huri =>
    exact yields_of_found hurl hpatch hsearch
      ((yields_mapFault_call_bind_unbuildable huri).2 ⟨rfl, rfl⟩)
  | scaleFailed hurl hpatch hsearch huri hscale =>
    exact yields_of_found hurl hpatch hsearch
      ((yields_mapFault_call_bind_iff huri).2 ⟨_, .inl ⟨_, hscale, rfl, rfl⟩⟩)
  | scaled hurl hpatch hsearch huri hscale =>
    exact yields_of_found hurl hpatch hsearch ((yields_mapFault_call_bind_iff huri).2
      ⟨_, .inr ⟨_, _, hscale, rfl, Task.yields_report_iff.2 ⟨rfl, rfl⟩⟩⟩)

/-- The steps take the courses, whatever the cluster answers, and no other ones. -/
theorem yields_steps_iff {url : Option String} {taken : List Step}
    {outcome : Except Event Unit} :
    Yields (steps url).run taken outcome ↔ Course (url.getD "") taken outcome :=
  ⟨course_of_yields, Course.yields⟩

/-- The report that is left to do when the steps have ended. -/
def closing : Except Event Unit → List Step
  | .ok () => []
  | .error event => [⟨.report event, ()⟩]

theorem yields_closing_iff {outcome : Except Event Unit} {taken : List Step} :
    Yields (match outcome with
      | .ok () => pure ()
      | .error event => Procedure.act (.report event)) taken () ↔ taken = closing outcome := by
  cases outcome with
  | ok value => exact Procedure.yields_done_iff.trans (and_iff_left rfl)
  | error event =>
    refine Procedure.yields_perform_iff.trans ⟨?_, ?_⟩
    · rintro ⟨⟨⟩, rest, rfl, hrest⟩
      rw [(Procedure.yields_done_iff.1 hrest).1, closing]
    · rintro rfl
      exact ⟨(), [], rfl, .done _⟩

/-- A push takes one of the courses and reports the failure in it, if there is one. -/
theorem yields_push_iff {url : Option String} {taken : List Step} :
    Yields (push url) taken () ↔ ∃ before outcome, taken = before ++ closing outcome ∧
      Course (url.getD "") before outcome := by
  refine Procedure.yields_bind_iff.trans ⟨?_, ?_⟩
  · rintro ⟨before, outcome, after, rfl, hbefore, hafter⟩
    exact ⟨before, outcome, by rw [yields_closing_iff.1 hafter], yields_steps_iff.1 hbefore⟩
  · rintro ⟨before, outcome, rfl, hcourse⟩
    exact ⟨before, outcome, _, rfl, yields_steps_iff.2 hcourse, yields_closing_iff.2 rfl⟩

/-! ## Accounts -/

/-- All three requests were sent, and none failed. -/
def Accomplished (talk : List Exchange) : Prop :=
  talk.length = 3 ∧ ∀ exchange ∈ talk, exchange.fault? = none

/-- The event that tells which step failed after the last exchange or in it, and why. -/
inductive Blames (url : String) : Option Exchange → Event → Prop where
  | unset (hurl : url = "") : Blames url none .redirectUrlNotSet
  | patch {reply : Reply} {fault : ClientFault} (h : reply.decode ConfigMap.codec = .error fault) :
      Blames url (some ⟨patchRequest url, reply⟩) (.patchFailed configMapName fault)
  | search {reply : Reply} {fault : ClientFault}
      (h : reply.decode Deployment.codec = .error fault) :
      Blames url (some ⟨searchRequest, reply⟩) (.deploymentLookupFailed deploymentName fault)
  /-- The deployment was found, and its replacement cannot be sent. -/
  | unbuildable {reply : Reply} {found : Deployment} {now : Instant}
      (h : reply.decode Deployment.codec = .ok found)
      (huri : (scaleRequest found now).uri? = none) :
      Blames url (some ⟨searchRequest, reply⟩) (.scaleDownFailed deploymentName .unbuildable)
  | scale {reply : Reply} {fault : ClientFault} (found : Deployment) (now : Instant)
      (h : reply.decode Deployment.codec = .error fault) :
      Blames url (some ⟨scaleRequest found now, reply⟩) (.scaleDownFailed deploymentName fault)

/-- What a push and the cluster say to each other, and what the push reports of it. -/
structure Account (url : String) (talk : List Exchange) (events : List Event) : Prop where
  /-- Without a url nothing is said. -/
  silent : url = "" → talk = []
  /-- The configuration map is patched, the deployment searched and a deployment replaced, in this
  order and up to some request. -/
  requests : ∃ collection name body, talk.map (·.request) <+:
    [patchRequest url, searchRequest, .replace collection name body]
  /-- What is replaced is the deployment that was found. -/
  replaces : ∀ exchange ∈ talk, exchange.request.method = "PUT" → ∃ search found now,
    ⟨searchRequest, search⟩ ∈ talk ∧ search.decode Deployment.codec = .ok found ∧
      exchange.request = scaleRequest found now
  /-- Every request but the last one succeeds. -/
  stops : ∀ exchange ∈ talk.dropLast, exchange.fault? = none
  /-- Nothing but success is reported if everything succeeds. -/
  succeeded : Accomplished talk → ∀ event ∈ events, event.level = .info
  /-- If not, the last event, and no other one, is an error, and it names the failure. -/
  failed : ¬ Accomplished talk → ∃ front event, events = front ++ [event] ∧
    (∀ other ∈ front, other.level = .info) ∧ event.level = .error ∧
      Blames url talk.getLast? event
  /-- The patch is reported exactly if it succeeded. -/
  patched_iff : .patched configMapName redirectUrlKey ∈ events ↔
    ∃ exchange ∈ talk, exchange.request.method = "PATCH" ∧ exchange.fault? = none
  /-- The replacement is reported exactly if it succeeded. -/
  scaledDown_iff : (∃ deployment, .scaledDown deployment ∈ events) ↔
    ∃ exchange ∈ talk, exchange.request.method = "PUT" ∧ exchange.fault? = none

/-! ## Courses as accounts -/

section Requests

variable (url : String) (found : Deployment) (now : Instant) (reply : Reply)

@[simp]
theorem method_patchRequest : (patchRequest url).method = "PATCH" := rfl

@[simp]
theorem method_searchRequest : searchRequest.method = "GET" := rfl

@[simp]
theorem method_scaleRequest : (scaleRequest found now).method = "PUT" := rfl

@[simp]
theorem fault?_patchRequest :
    Exchange.fault? ⟨patchRequest url, reply⟩ = faultOf (reply.decode ConfigMap.codec) := rfl

@[simp]
theorem fault?_searchRequest :
    Exchange.fault? ⟨searchRequest, reply⟩ = faultOf (reply.decode Deployment.codec) := rfl

@[simp]
theorem fault?_scaleRequest :
    Exchange.fault? ⟨scaleRequest found now, reply⟩ =
      faultOf (reply.decode Deployment.codec) := rfl

end Requests

theorem replaces_found {url : String} {patch search scale : Reply} {found : Deployment}
    {now : Instant} (hsearch : search.decode Deployment.codec = .ok found) :
    let talk : List Exchange :=
      [⟨patchRequest url, patch⟩, ⟨searchRequest, search⟩, ⟨scaleRequest found now, scale⟩]
    ∀ exchange ∈ talk, exchange.request.method = "PUT" → ∃ search found now,
      ⟨searchRequest, search⟩ ∈ talk ∧ search.decode Deployment.codec = .ok found ∧
        exchange.request = scaleRequest found now := by
  intro talk exchange hmem hput
  refine ⟨search, found, now, by simp [talk], hsearch, ?_⟩
  simp only [talk, List.mem_cons, List.not_mem_nil, or_false] at hmem
  rcases hmem with rfl | rfl | rfl
  · simp at hput
  · simp at hput
  · rfl

/-- Every course gives an account. -/
theorem Course.account {url : String} {before : List Step} {outcome : Except Event Unit}
    (h : Course url before outcome) :
    Account url (exchanges (before ++ closing outcome)) (reports (before ++ closing outcome)) := by
  -- which request is the last one and which event blames it is said case by case; the rest can be
  -- read off the steps of the course
  cases h with
  | unset hurl =>
    refine ⟨fun _ => rfl, ⟨deployments, "", .null, List.nil_prefix⟩, ?_, ?_, ?_,
      fun _ => ⟨[], _, rfl, ?_, rfl, .unset hurl⟩, ?_, ?_⟩
    all_goals simp [closing, reports, Accomplished]
  | patchFailed hurl hpatch =>
    refine ⟨fun h => absurd h hurl, ⟨deployments, "", .null, _, rfl⟩, ?_, ?_, ?_,
      fun _ => ⟨[], _, rfl, ?_, rfl, .patch hpatch⟩, ?_, ?_⟩
    all_goals simp [closing, reports, Accomplished, hpatch]
  | searchFailed hurl hpatch hsearch =>
    refine ⟨fun h => absurd h hurl, ⟨deployments, "", .null, _, rfl⟩, ?_, ?_, ?_,
      fun _ => ⟨[_], _, rfl, ?_, rfl, .search hsearch⟩, ?_, ?_⟩
    all_goals simp [closing, reports, Accomplished, Event.level, hpatch, hsearch]
  | scaleUnbuildable hurl hpatch hsearch huri =>
    refine ⟨fun h => absurd h hurl, ⟨deployments, "", .null, _, rfl⟩, ?_, ?_, ?_,
      fun _ => ⟨[_], _, rfl, ?_, rfl, .unbuildable hsearch huri⟩, ?_, ?_⟩
    all_goals simp [closing, reports, Accomplished, Event.level, hpatch, hsearch]
  | @scaleFailed _ _ _ _ found now _ hurl hpatch hsearch huri hscale =>
    refine ⟨fun h => absurd h hurl, ⟨_, _, _, _, rfl⟩, replaces_found hsearch, ?_, ?_,
      fun _ => ⟨[_], _, rfl, ?_, rfl, .scale found now hscale⟩, ?_, ?_⟩
    all_goals simp [closing, reports, Accomplished, Event.level, hpatch, hsearch, hscale]
  | scaled hurl hpatch hsearch huri hscale =>
    refine ⟨fun h => absurd h hurl, ⟨_, _, _, _, rfl⟩, replaces_found hsearch, ?_, ?_,
      fun hnot => absurd ?_ hnot, ?_, ?_⟩
    all_goals simp [closing, reports, Accomplished, Event.level, hpatch, hsearch, hscale]

theorem eq_third {first second third exchange : Exchange} {front rest : List Exchange}
    (h : [first, second, third] = front ++ exchange :: rest) (hfirst : first ≠ exchange)
    (hsecond : second ≠ exchange) : front = [first, second] ∧ exchange = third := by
  rcases front with _ | ⟨_, _ | ⟨_, _ | ⟨_, _⟩⟩⟩
  · exact absurd (List.cons.inj h).1 hfirst
  · simp at h
    exact absurd h.2.1 hsecond
  · simp at h
    obtain ⟨rfl, rfl, rfl, -⟩ := h
    exact ⟨rfl, rfl⟩
  · simp at h

/-- A replacement comes right behind the search that found the deployment, and if it fails, this is
the one error that is reported. -/
theorem Course.search_of_replace {url : String} {before : List Step} {outcome : Except Event Unit}
    (h : Course url before outcome) {front rest : List Exchange} {collection : Collection}
    {name : String} {body : Json} {reply : Reply}
    (htalk : exchanges (before ++ closing outcome) =
      front ++ ⟨.replace collection name body, reply⟩ :: rest) :
    ∃ patch search found now, front = [⟨patchRequest url, patch⟩, ⟨searchRequest, search⟩] ∧
      search.decode Deployment.codec = .ok found ∧
      .replace collection name body = scaleRequest found now ∧
      ∀ fault, Exchange.fault? ⟨.replace collection name body, reply⟩ = some fault →
        reports (before ++ closing outcome) = [.patched configMapName redirectUrlKey,
          .scaleDownFailed deploymentName fault] := by
  have hmem : ⟨.replace collection name body, reply⟩ ∈ exchanges (before ++ closing outcome) := by
    simp [htalk]
  -- the courses that end before the scaling replace nothing
  cases h with
  | unset hurl => simp [closing] at hmem
  | patchFailed hurl hpatch => simp [closing, patchRequest] at hmem
  | searchFailed hurl hpatch hsearch => simp [closing, patchRequest, searchRequest] at hmem
  | scaleUnbuildable hurl hpatch hsearch huri =>
    simp [closing, patchRequest, searchRequest] at hmem
  | scaleFailed hurl hpatch hsearch huri hscale =>
    obtain ⟨rfl, hthird⟩ := eq_third htalk nofun nofun
    obtain ⟨hrequest, rfl⟩ := Exchange.mk.inj hthird
    refine ⟨_, _, _, _, rfl, hsearch, hrequest, fun fault hfault => ?_⟩
    rw [hrequest, fault?_scaleRequest, hscale] at hfault
    obtain rfl := Option.some.inj hfault
    rfl
  | scaled hurl hpatch hsearch huri hscale =>
    obtain ⟨rfl, hthird⟩ := eq_third htalk nofun nofun
    obtain ⟨hrequest, rfl⟩ := Exchange.mk.inj hthird
    refine ⟨_, _, _, _, rfl, hsearch, hrequest, fun fault hfault => ?_⟩
    rw [hrequest, fault?_scaleRequest, hscale] at hfault
    cases hfault

/-- Whatever the cluster answers, the reports of a push are its exact account. -/
theorem push_accounts {url : Option String} {taken : List Step} (h : Yields (push url) taken ()) :
    Account (url.getD "") (exchanges taken) (reports taken) := by
  obtain ⟨before, outcome, rfl, hcourse⟩ := yields_push_iff.1 h
  exact hcourse.account

/-- A push that patches the configuration map and cannot read the deployment. -/
theorem push_accounts_undecodable :
    let taken : List Step :=
      [⟨.send (patchRequest "https://proxy"), Reply.response 200 (Text.utf8 ['{', '}'])⟩,
       ⟨.report (.patched configMapName redirectUrlKey), ()⟩,
       ⟨.send searchRequest, Reply.response 200 (Text.utf8 ['['])⟩,
       ⟨.report (.deploymentLookupFailed deploymentName .undecodable), ()⟩]
    Yields (push (some "https://proxy")) taken () ∧
      Account "https://proxy" (exchanges taken) (reports taken) := by
  intro taken
  have hyields : Yields (push (some "https://proxy")) taken () :=
    .perform _ <| .perform _ <| .perform _ <| .perform _ <| .done _
  exact ⟨hyields, push_accounts hyields⟩

end PreviewInstaller.OauthRedirect
