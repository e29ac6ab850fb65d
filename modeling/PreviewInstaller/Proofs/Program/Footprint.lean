import PreviewInstaller.Machine
import PreviewInstaller.Proofs.Cluster.Access
import PreviewInstaller.Proofs.Installation.Order
import PreviewInstaller.Proofs.Installation.ScriptEnvironment
import PreviewInstaller.Proofs.OauthRedirect.Account
import PreviewInstaller.Proofs.QuaySecret.Dialogue

set_option autoImplicit false

/-! # The footprint of a subcommand

What a subcommand can reach outside of itself: the objects of the cluster that its requests are
about, and whether it touches files or starts a process. The bound on the requests of the redirect
needs the server to answer a search for a deployment with that deployment, because the replacement
is sent to the name that the answer tells. Main statement: every session stays within the footprint
of its subcommand, and its exit code and its last event tell how the subcommand ended. -/

namespace PreviewInstaller.QuaySecret

open Cluster
open Procedure (Step Yields exchanges)

/-- What a provision does to the cluster. -/
def accesses : List Access :=
  [⟨"GET", .namespaces, secretNamespace⟩,
   ⟨"POST", .namespaces, secretNamespace⟩,
   ⟨"GET", secrets, secretName⟩,
   ⟨"POST", secrets, secretName⟩,
   ⟨"PUT", secrets, secretName⟩]

/-- The requests of a provision are about its namespace and its secret. -/
theorem staysWithin_of_yields {token : String} {steps : List Step} {result : Except Error Secret}
    (h : Yields (provision token).run steps result) :
    StaysWithin accesses (exchanges steps) := by
  cases htoken : decodeToken token with
  | error error =>
    rw [run_provision_rejected htoken] at h
    obtain ⟨rfl, -⟩ := Procedure.yields_done_iff.1 h
    exact nofun
  | ok dockerConfig =>
    -- a created object has the name that its body is read with
    have hnamespace : namespaceCreation.name? = some secretNamespace :=
      Request.name?_create .namespaces freshNamespace
    have hsecret : (secretCreation dockerConfig).name? = some secretName :=
      Request.name?_create secrets (createdSecret dockerConfig)
    refine staysWithin_of_isFor (by decide) fun exchange hmem => ?_
    rcases (concludes_of_yields htoken h).1.request_of_mem exchange hmem with hfirst | ⟨_, hnext⟩
    · rw [← Option.some.inj hfirst]
      exact ⟨⟨"GET", .namespaces, secretNamespace⟩, by decide, rfl, rfl, rfl⟩
    · rcases request_of_next? hnext with hrequest | hrequest | hrequest | ⟨found, hrequest⟩
      · rw [hrequest]
        exact ⟨⟨"GET", secrets, secretName⟩, by decide, rfl, rfl, rfl⟩
      · rw [hrequest]
        exact ⟨⟨"POST", .namespaces, secretNamespace⟩, by decide, rfl, rfl, hnamespace⟩
      · rw [hrequest]
        exact ⟨⟨"POST", secrets, secretName⟩, by decide, rfl, rfl, hsecret⟩
      · rw [hrequest]
        exact ⟨⟨"PUT", secrets, secretName⟩, by decide, rfl, rfl, rfl⟩

end PreviewInstaller.QuaySecret

namespace PreviewInstaller.OauthRedirect

open Cluster
open Procedure (Step Yields exchanges)

/-- What a push does to the cluster. -/
def accesses : List Access :=
  [⟨"PATCH", configMaps, configMapName.name⟩,
   ⟨"GET", deployments, deploymentName.name⟩,
   ⟨"PUT", deployments, deploymentName.name⟩]

/-- The name that a deployment gives itself is the one of the service, if it was found as asked. -/
theorem ownName_eq {talk : List Exchange} (hfinds : FindsAsAsked talk) {search : Reply}
    (hmem : ⟨searchRequest, search⟩ ∈ talk) {found : Deployment}
    (hsearch : search.decode Deployment.codec = .ok found) : ownName found = deploymentName := by
  obtain ⟨hname, hnamespace⟩ := hfinds _ hmem serviceNamespace deploymentName.name found rfl hsearch
  unfold ownName
  rw [hname]
  rcases hnamespace with hnamespace | hnamespace <;> rw [hnamespace] <;> rfl

/-- The requests of a push are about its configuration map and its deployment. -/
theorem staysWithin_of_yields {url : Option String} {taken : List Step}
    (h : Yields (push url) taken ()) (hfinds : FindsAsAsked (exchanges taken)) :
    StaysWithin accesses (exchanges taken) := by
  obtain ⟨before, outcome, rfl, hcourse⟩ := yields_push_iff.1 h
  have haccount := hcourse.account
  obtain ⟨collection, name, body, hprefix⟩ := haccount.requests
  refine staysWithin_of_isFor (by decide) fun exchange hmem => ?_
  have hrequest := hprefix.subset (List.mem_map_of_mem hmem)
  rcases List.mem_cons.1 hrequest with hpatch | hrequest
  · rw [hpatch]
    exact ⟨⟨"PATCH", configMaps, configMapName.name⟩, by decide, rfl, rfl, rfl⟩
  rcases List.mem_cons.1 hrequest with hsearch | hrequest
  · rw [hsearch]
    exact ⟨⟨"GET", deployments, deploymentName.name⟩, by decide, rfl, rfl, rfl⟩
  -- what is replaced is what was found, and that was asked for
  have hput : exchange.request.method = "PUT" := by rw [List.mem_singleton.1 hrequest]; rfl
  obtain ⟨search, found, now, hsearch, hfound, hscale⟩ := haccount.replaces exchange hmem hput
  rw [hscale, scaleRequest, ownName_eq hfinds hsearch hfound]
  exact ⟨⟨"PUT", deployments, deploymentName.name⟩, by decide, rfl, rfl, rfl⟩

end PreviewInstaller.OauthRedirect

namespace PreviewInstaller.Install

open Cluster
open Procedure (Step Yields exchanges)

variable {checkout : Checkout} {config : Config} {steps : List Step} {result : Except Error Unit}

/-- What an installation does to the cluster. -/
def accesses : List Access :=
  OauthRedirect.accesses ++ QuaySecret.accesses

theorem exchanges_of_sync (h : Yields checkout.sync.run steps result) : exchanges steps = [] :=
  (performs_sync checkout).exchanges_eq_nil h fun _ => nofun

theorem exchanges_of_runPreview {directory : Path} {environment : TextMap String}
    (h : Yields (Bootstrap.runPreview directory environment).run steps result) :
    exchanges steps = [] :=
  (performs_runPreview directory environment).exchanges_eq_nil h fun _ => nofun

/-- The requests of an installation are those of the redirect and of the secret. -/
theorem staysWithin_of_yields (h : Yields (runFrom checkout config).run steps result)
    (hfinds : FindsAsAsked (exchanges steps)) : StaysWithin accesses (exchanges steps) := by
  have hredirect : ∀ access ∈ OauthRedirect.accesses, access ∈ accesses :=
    fun _ => List.mem_append_left _
  have hsecret : ∀ access ∈ QuaySecret.accesses, access ∈ accesses :=
    fun _ => List.mem_append_right _
  cases yields_iff_course.1 h with
  | syncFailed hsync =>
    rw [exchanges_of_sync hsync]
    exact nofun
  | scriptFailed hsync hscript =>
    simp only [Procedure.exchanges_append, Procedure.exchanges_report, exchanges_of_sync hsync,
      exchanges_of_runPreview hscript]
    exact nofun
  | secretFailed hsync hscript hpush hprovided =>
    simp only [Procedure.exchanges_append, Procedure.exchanges_report, exchanges_of_sync hsync,
      exchanges_of_runPreview hscript, List.nil_append] at hfinds ⊢
    have hpushed := hfinds.mono fun _ => List.mem_append_left _
    exact ((OauthRedirect.staysWithin_of_yields hpush hpushed).mono hredirect).append
      ((QuaySecret.staysWithin_of_yields hprovided).mono hsecret)
  | installed hsync hscript hpush hprovided =>
    simp only [Procedure.exchanges_append, Procedure.exchanges_report, Procedure.exchanges_nil,
      exchanges_of_sync hsync, exchanges_of_runPreview hscript, List.nil_append,
      List.append_nil] at hfinds ⊢
    have hpushed := hfinds.mono fun _ => List.mem_append_left _
    exact ((OauthRedirect.staysWithin_of_yields hpush hpushed).mono hredirect).append
      ((QuaySecret.staysWithin_of_yields hprovided).mono hsecret)

end PreviewInstaller.Install

namespace PreviewInstaller.Program

open CommandLine Cluster Install
open Procedure (Step Yields Performs exchanges reports)

variable {environment : Environment} {arguments : List String} {subcommand : Subcommand}
  {given : Given} {options : Options} {steps : List Step}

/-! ## What a subcommand does -/

/-- What a subcommand does to the cluster. -/
def accesses : Subcommand → List Access
  | .install => Install.accesses
  | .clone => []
  | .quaySecret => QuaySecret.accesses
  | .oauthRedirect => OauthRedirect.accesses

theorem exchanges_of_configure {result : Except Error Config}
    (h : Yields (configure options).run steps result) : exchanges steps = [] :=
  (performs_configure options).exchanges_eq_nil h fun _ => nofun

theorem exchanges_of_configureWithCluster {result : Except Error Config}
    (h : Yields (configureWithCluster options).run steps result) : exchanges steps = [] :=
  (performs_configureWithCluster options).exchanges_eq_nil h fun _ => nofun

/-- A task behind a configuration has all the exchanges. -/
theorem staysWithin_behind {allowed : List Access} {make : Task Error Config}
    {next : Config → Task Error Unit} {outcome : Except Error Unit}
    (h : Yields (make >>= next).run steps outcome) (hfinds : FindsAsAsked (exchanges steps))
    (hsilent : ∀ {before result}, Yields make.run before result → exchanges before = [])
    (hnext : ∀ {config after}, Yields (next config).run after outcome →
      FindsAsAsked (exchanges after) → StaysWithin allowed (exchanges after)) :
    StaysWithin allowed (exchanges steps) := by
  obtain ⟨_, hfailed, -⟩ | ⟨before, config, after, rfl, hmade, hafter⟩ := Task.yields_bind_iff.1 h
  · rw [hsilent hfailed]
    exact nofun
  · rw [Procedure.exchanges_append, hsilent hmade, List.nil_append] at hfinds ⊢
    exact hnext hafter hfinds

/-- The requests of a subcommand are for its accesses. -/
theorem staysWithin_of_yields {outcome : Except Error Unit}
    (h : Yields (execute subcommand options).run steps outcome)
    (hfinds : FindsAsAsked (exchanges steps)) :
    StaysWithin (accesses subcommand) (exchanges steps) := by
  cases subcommand with
  | install =>
    refine staysWithin_behind h hfinds exchanges_of_configureWithCluster fun hrun hfinds => ?_
    obtain ⟨rest, rfl, hfrom⟩ := Task.yields_report_bind_iff.1 hrun
    rw [Procedure.exchanges_report] at hfinds ⊢
    exact Install.staysWithin_of_yields hfrom hfinds
  | clone =>
    refine staysWithin_behind h hfinds exchanges_of_configure fun hsync _ => ?_
    rw [exchanges_of_sync hsync]
    exact nofun
  | quaySecret =>
    refine staysWithin_behind h hfinds exchanges_of_configureWithCluster fun hrun _ => ?_
    obtain ⟨_, hfailed, -⟩ | ⟨provided, _, _, rfl, hprovided, hdone⟩ := Task.yields_bind_iff.1 hrun
    · exact QuaySecret.staysWithin_of_yields hfailed
    · obtain ⟨rfl, -⟩ := Procedure.yields_done_iff.1 hdone
      rw [List.append_nil]
      exact QuaySecret.staysWithin_of_yields hprovided
  | oauthRedirect =>
    refine staysWithin_behind h hfinds exchanges_of_configureWithCluster fun hrun hfinds => ?_
    rw [Task.run_lift] at hrun
    obtain ⟨pushed, _, _, rfl, hpush, hdone⟩ := Procedure.yields_bind_iff.1 hrun
    obtain ⟨rfl, -⟩ := Procedure.yields_done_iff.1 hdone
    rw [List.append_nil] at hfinds ⊢
    exact OauthRedirect.staysWithin_of_yields hpush hfinds

/-- Whether an action starts a process. -/
def startsProcess : Action → Bool
  | .launch _ => true
  | _ => false

/-- Whether an action sends a request. -/
def sendsRequest : Action → Bool
  | .send _ => true
  | _ => false

/-- Whether an action reads or changes files. -/
def touchesFiles : Action → Bool
  | .findDirectory _ | .removeDirectory _ | .clone .. | .addRemote .. | .launch _ => true
  | _ => false

/-- Whether an action is one that a subcommand can perform at all. -/
def mayPerform : Subcommand → Action → Bool
  | .install, _ => true
  | .clone, action => !sendsRequest action && !startsProcess action
  | .quaySecret, action | .oauthRedirect, action => !touchesFiles action && !startsProcess action

theorem performs_execute (subcommand : Subcommand) (options : Options) :
    Performs (fun action => mayPerform subcommand action = true)
      (execute subcommand options).run := by
  cases subcommand with
  | install => exact .of_forall (fun _ => rfl) _
  | clone =>
    refine Task.performs_bind ((performs_configure _).mono fun action h => ?_) fun config => ?_
    · cases h <;> rfl
    refine (performs_sync _).mono fun action h => ?_
    cases h <;> rfl
  | quaySecret =>
    refine Task.performs_bind ((performs_configureWithCluster _).mono fun action h => ?_)
      fun config => ?_
    · cases h <;> rfl
    refine Task.performs_bind ((performs_provision _).mono fun action h => ?_) fun _ => ?_
    · cases h <;> rfl
    exact Task.performs_pure _
  | oauthRedirect =>
    refine Task.performs_bind ((performs_configureWithCluster _).mono fun action h => ?_)
      fun config => ?_
    · cases h <;> rfl
    refine Task.performs_lift ((performs_push _).mono fun action h => ?_)
    cases h <;> rfl

/-! ## Sessions -/

theorem performs_session (hparse : parse arguments = .ok (subcommand, given))
    (environment : Environment) : Performs (fun action => mayPerform subcommand action = true)
      (session environment arguments) := by
  have hreport : ∀ event, mayPerform subcommand (.report event) = true := by
    cases subcommand <;> exact fun _ => rfl
  rw [session_of_ok hparse]
  refine (performs_execute subcommand _).bind fun outcome => ?_
  cases outcome with
  | ok _ => exact .done _
  | error error =>
    rw [conclude]
    split
    · exact .perform (hreport _) fun _ => .done _
    · exact .done _

theorem exchanges_lastSteps (outcome : Except Error Unit) : exchanges (lastSteps outcome) = [] := by
  refine Procedure.exchanges_eq_nil fun step hstep request hsend => ?_
  obtain ⟨event, hevent⟩ := report_of_mem_lastSteps hstep
  rw [hevent] at hsend
  cases hsend

/-- What touches no files answers the same, whatever files there are. -/
theorem answer_withDisk {action : Action} (h : touchesFiles action = false) (machine : Machine)
    (disk : Disk) : { machine with disk }.answer action =
      ((machine.answer action).1, { (machine.answer action).2 with disk }) := by
  cases action with
  | send request =>
    obtain ⟨_, _, _, _, network, _, _, _, _, _⟩ := machine
    cases network <;> rfl
  | findDirectory | removeDirectory | clone | addRemote | launch => cases h
  | _ => rfl

/-- A procedure that touches no files runs the same, whatever files there are, and leaves them. -/
theorem run_withDisk {α : Type} {procedure : Procedure α}
    (h : Performs (fun action => touchesFiles action = false) procedure) (machine : Machine)
    (disk : Disk) : { machine with disk }.run procedure =
      ((machine.run procedure).1, { (machine.run procedure).2 with disk }) := by
  induction h generalizing machine with
  | done value => rfl
  | @perform action resume haction _ ih =>
    calc { machine with disk }.run (.perform action resume)
        = ({ machine with disk }.answer action).2.run
            (resume ({ machine with disk }.answer action).1) := rfl
      _ = { (machine.answer action).2 with disk }.run (resume (machine.answer action).1) := by
        rw [answer_withDisk haction]
      _ = _ := ih _ _

/-- What a session with a subcommand can do. -/
structure Footprint (subcommand : Subcommand) (steps : List Step) : Prop where
  /-- It makes requests for the objects of the subcommand only. -/
  requests : StaysWithin (accesses subcommand) (exchanges steps)
  /-- A request is for one object and does not delete it, and the configuration map is all that is
  patched. -/
  gentle : ∀ exchange ∈ exchanges steps,
    exchange.request.method ≠ "DELETE" ∧ (∃ name, name ≠ "" ∧ exchange.request.name? = some name) ∧
      (exchange.request.method = "PATCH" →
        exchange.request.collection = .configMaps "spi-system" ∧
          exchange.request.name? = some "spi-oauth-service-environment-config")
  /-- It does not touch files, start a process or send a request unless the subcommand may. -/
  actions : ∀ step ∈ steps, mayPerform subcommand step.action = true

theorem footprint_of_staysWithin (h : StaysWithin (accesses subcommand) (exchanges steps))
    (hactions : ∀ step ∈ steps, mayPerform subcommand step.action = true) :
    Footprint subcommand steps := by
  refine ⟨h, fun exchange hmem => ?_, hactions⟩
  obtain ⟨access, haccess, hfor, -⟩ := h exchange hmem
  have hgentle : ∀ access ∈ accesses subcommand, access.method ≠ "DELETE" ∧ access.name ≠ "" ∧
      (access.method = "PATCH" → access.collection = .configMaps "spi-system" ∧
        access.name = "spi-oauth-service-environment-config") := by
    cases subcommand <;> decide
  obtain ⟨hdelete, hname, hpatch⟩ := hgentle access haccess
  rw [hfor.method, hfor.collection, hfor.name]
  refine ⟨hdelete, ⟨_, hname, rfl⟩, fun hmethod => ?_⟩
  obtain ⟨hcollection, hconfigMap⟩ := hpatch hmethod
  exact ⟨hcollection, congrArg _ hconfigMap⟩

/-- The end of a session tells how the subcommand ended. -/
structure TellsOutcome (outcome : Except Error Unit) (steps : List Step) (ending : Ending) :
    Prop where
  exitCode : ending.exitCode = 0 ↔ outcome = .ok ()
  /-- The last event is the error, with its level and its text. A crash returns no error. -/
  lastEvent : ∀ error, outcome = .error error → error ≠ .crash → ∃ front event,
    reports steps = front ++ [event] ∧ event.level = .error ∧ event.message = error.message

theorem tellsOutcome_lastSteps (before : List Step) (outcome : Except Error Unit) :
    TellsOutcome outcome (before ++ lastSteps outcome) (endingOf outcome) := by
  constructor
  · cases outcome with
    | ok value => exact iff_of_true rfl rfl
    | error error => exact iff_of_false (by cases error <;> exact nofun) nofun
  · rintro error rfl hcrash
    rw [lastSteps, if_pos hcrash]
    exact ⟨reports before, .failed error, List.filterMap_append, rfl, rfl⟩

/-- Every session stays within the footprint of its subcommand and tells how that ended, and neither
the secret nor the redirect depends on the files. -/
theorem session_footprint (environment : Environment)
    (hparse : parse arguments = .ok (subcommand, given)) :
    (∀ steps ending, Yields (session environment arguments) steps ending →
      FindsAsAsked (exchanges steps) → Footprint subcommand steps) ∧
    (∀ steps ending, Yields (session environment arguments) steps ending → ∃ before outcome,
      Yields (execute subcommand (optionsOf environment given)).run before outcome ∧
        before <+: steps ∧ TellsOutcome outcome steps ending) ∧
    (subcommand = .quaySecret ∨ subcommand = .oauthRedirect → ∀ (machine : Machine) (disk : Disk),
      { machine with disk }.run (session environment arguments) =
        ((machine.run (session environment arguments)).1,
          { (machine.run (session environment arguments)).2 with disk })) := by
  have hperforms := performs_session hparse environment
  refine ⟨fun steps ending h hfinds => ?_, fun steps ending h => ?_, fun hfileless => ?_⟩
  · obtain ⟨before, outcome, hexecute, hsteps, -⟩ := (yields_session_iff hparse).1 h
    have hsame : exchanges steps = exchanges before := by
      rw [hsteps, Procedure.exchanges_append, exchanges_lastSteps, List.append_nil]
    refine footprint_of_staysWithin ?_ (hperforms.of_mem_steps h)
    rw [hsame] at hfinds ⊢
    exact staysWithin_of_yields hexecute hfinds
  · obtain ⟨before, outcome, hexecute, rfl, rfl⟩ := (yields_session_iff hparse).1 h
    exact ⟨before, outcome, hexecute, List.prefix_append _ _, tellsOutcome_lastSteps before outcome⟩
  · refine run_withDisk (hperforms.mono fun action haction => ?_)
    rcases hfileless with rfl | rfl
    all_goals
      rw [mayPerform, Bool.and_eq_true, Bool.not_eq_true', Bool.not_eq_true'] at haction
      exact haction.1

/-- A deployment that names itself and no namespace. -/
def strayDeployment : Deployment :=
  { metadata.name := some OauthRedirect.deploymentName.name }

/-- The steps that make a configuration in a working directory. -/
def madeSteps : List Step :=
  [⟨.findWorkingDirectory, Except.ok ⟨"/work"⟩⟩,
   ⟨.drawLetter, Fin.last 25⟩,
   ⟨.drawLetter, Fin.last 25⟩,
   ⟨.drawLetter, Fin.last 25⟩,
   ⟨.drawLetter, Fin.last 25⟩,
   ⟨.connect, Except.ok ()⟩]

/-- The steps of a push in which the replacement of this deployment is refused. -/
def refusedSteps : List Step :=
  [⟨.send (OauthRedirect.patchRequest "https://proxy"), tellingReply ConfigMap.codec {}⟩,
   ⟨.report (.patched OauthRedirect.configMapName OauthRedirect.redirectUrlKey), ()⟩,
   ⟨.send OauthRedirect.searchRequest, tellingReply Deployment.codec strayDeployment⟩,
   ⟨.readClock, Instant.epoch⟩,
   ⟨.send (OauthRedirect.scaleRequest strayDeployment .epoch), Reply.response 409 []⟩,
   ⟨.report (.scaleDownFailed OauthRedirect.deploymentName (.refused (.undescribed 409 ""))), ()⟩]

theorem yields_madeSteps (options : Options) :
    Yields (configureWithCluster options).run madeSteps
      (.ok (.ofOptions options ⟨"/work"⟩ "zzzz")) :=
  .perform _ <| .perform _ <| .perform _ <| .perform _ <| .perform _ <| .perform _ <| .done _

theorem yields_refusedSteps :
    Yields (OauthRedirect.push (some "https://proxy")) refusedSteps () :=
  OauthRedirect.yields_push_iff.2 ⟨_, _, rfl, .scaleFailed (show "https://proxy" ≠ "" by decide)
    (decode_tellingReply ConfigMap.lawful_codec {})
    (decode_tellingReply Deployment.lawful_codec strayDeployment)
    (OauthRedirect.isSome_uri_replace _) rfl⟩

/-- The replacement is sent to the namespace of the service, and its failure is no error. -/
theorem session_footprint_refused :
    let arguments := ["oauth-redirect", "--oauth-redirect-proxy-url=https://proxy"]
    parse arguments = .ok (.oauthRedirect, [(.oauthRedirectProxyUrl, "https://proxy")]) ∧
      Yields (session .empty arguments) (madeSteps ++ refusedSteps) .succeeded ∧
      FindsAsAsked (exchanges (madeSteps ++ refusedSteps)) ∧
      Footprint .oauthRedirect (madeSteps ++ refusedSteps) := by
  intro arguments
  have hparse : parse arguments =
      .ok (.oauthRedirect, [(.oauthRedirectProxyUrl, "https://proxy")]) := rfl
  have hyields : Yields (session .empty arguments) (madeSteps ++ refusedSteps) .succeeded := by
    refine (yields_session_iff hparse).2 ⟨_, .ok (), ?_, (List.append_nil _).symm, rfl⟩
    refine Task.yields_bind_iff.2 (.inr ⟨_, _, _, rfl, yields_madeSteps _, ?_⟩)
    exact Procedure.yields_bind_iff.2 ⟨refusedSteps, (), [], by simp, yields_refusedSteps, .done _⟩
  have hfinds : FindsAsAsked (exchanges (madeSteps ++ refusedSteps)) := by
    intro exchange hmem namespaceName name found hrequest hfound
    have hmem : exchange ∈ [_, _, _] := hmem
    rcases List.mem_cons.1 hmem with rfl | hmem
    · cases hrequest
    rcases List.mem_cons.1 hmem with rfl | hmem
    · cases hrequest
      rw [decode_tellingReply Deployment.lawful_codec] at hfound
      cases hfound
      exact ⟨rfl, .inr rfl⟩
    · cases List.mem_singleton.1 hmem ▸ hrequest
  exact ⟨hparse, hyields, hfinds, (session_footprint .empty hparse).1 _ _ hyields hfinds⟩

end PreviewInstaller.Program
