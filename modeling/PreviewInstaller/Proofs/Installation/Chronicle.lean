import PreviewInstaller.Proofs.Cluster.Access
import PreviewInstaller.Proofs.Installation.Order
import PreviewInstaller.Proofs.OauthRedirect.Account
import PreviewInstaller.Proofs.QuaySecret.Dialogue

set_option autoImplicit false

/-! # The chronicle of an installation

The log of an installation tells what it did. An event belongs to a step: it announces the step and
comes right before it, or it tells what the step found or achieved and comes right behind it. Main
statement: without its errors, a run is its steps, each between the events that belong to it, and one
more event at the end if the run succeeds. So events and steps match one to one and in order, and no
event tells of a success that is still to come. -/

namespace PreviewInstaller.Install

open Procedure Cluster

/-! ## What belongs to a step -/

/-- The step that reports an event. -/
def tell (event : Event) : Step :=
  ⟨.report event, ()⟩

/-- The event that a step reports, if it is a report. -/
def event? (step : Step) : Option Event :=
  match step.action with
  | .report event => some event
  | _ => none

/-- The event that tells that a request succeeded. -/
def successOf? (request : Request) : Option Event :=
  let name := request.name?.getD ""
  match request with
  | .create .namespaces _ => some (.createdNamespace name)
  | .create (.secrets namespaceName) _ => some (.createdSecret ⟨namespaceName, name⟩)
  | .replace (.secrets namespaceName) _ _ => some (.updatedSecret ⟨namespaceName, name⟩)
  | .replace (.deployments namespaceName) _ _ => some (.scaledDown ⟨namespaceName, name⟩)
  | .mergePatch (.configMaps namespaceName) _ _ =>
    some (.patched ⟨namespaceName, name⟩ OauthRedirect.redirectUrlKey)
  | _ => none

/-- The events that tell what is about to happen, right before a step. -/
def announced (config : Config) (step : Step) : List Event :=
  match step.action with
  | .clone url branch _ => [.cloning url (branchReference branch)]
  | .launch command => [announcement config,
      .running Bootstrap.previewScript command.arguments command.workingDirectory]
  | _ => []

/-- The events that tell what a step found or achieved, right behind it. -/
def concluded : Step → List Event
  | ⟨.findDirectory path, true⟩ => [.removingFolder path]
  | ⟨.addRemote _ name url, .ok ()⟩ => [.addedRemote name url]
  | ⟨.launch _, .ok (.exited 0)⟩ => [.finished Bootstrap.previewScript]
  | ⟨.send request, reply⟩ =>
    if (Exchange.fault? ⟨request, reply⟩).isNone then (successOf? request).toList else []
  | _ => []

/-- An event tells what a step found or achieved. -/
inductive Concludes : Step → Event → Prop where
  | found (path : Path) : Concludes ⟨.findDirectory path, true⟩ (.removingFolder path)
  | remote (path : Path) (name url : String) :
      Concludes ⟨.addRemote path name url, Except.ok ()⟩ (.addedRemote name url)
  | script (command : Command) :
      Concludes ⟨.launch command, Except.ok (.exited 0)⟩ (.finished Bootstrap.previewScript)
  | request {request : Request} {reply : Reply} {event : Event}
      (hdone : Exchange.fault? ⟨request, reply⟩ = none)
      (hevent : successOf? request = some event) : Concludes ⟨.send request, reply⟩ event

/-- A step between the events that belong to it. -/
def narrated (config : Config) (step : Step) : List Step :=
  (announced config step).map tell ++ step :: (concluded step).map tell

/-- The steps that are no reports. -/
def deeds (steps : List Step) : List Step :=
  steps.filter fun step => (event? step).isNone

/-- The steps that report no error. -/
def heard (steps : List Step) : List Step :=
  steps.filter fun step => (event? step).all fun event => event.level ≠ .error

variable {config : Config}

theorem deeds_append (before after : List Step) :
    deeds (before ++ after) = deeds before ++ deeds after :=
  List.filter_append ..

theorem heard_append (before after : List Step) :
    heard (before ++ after) = heard before ++ heard after :=
  List.filter_append ..

theorem deeds_cons_of_deed {step : Step} (h : event? step = none) (steps : List Step) :
    deeds (step :: steps) = step :: deeds steps :=
  List.filter_cons_of_pos (by rw [h]; rfl)

theorem heard_cons_of_deed {step : Step} (h : event? step = none) (steps : List Step) :
    heard (step :: steps) = step :: heard steps :=
  List.filter_cons_of_pos (by rw [h]; rfl)

theorem heard_tell {event : Event} (h : event.level ≠ .error) (steps : List Step) :
    heard (tell event :: steps) = tell event :: heard steps :=
  List.filter_cons_of_pos (decide_eq_true h)

/-- A request that failed has no event. -/
theorem concluded_failed {request : Request} {reply : Reply} {fault : ClientFault}
    (h : Exchange.outcome ⟨request, reply⟩ = .error fault) :
    concluded ⟨.send request, reply⟩ = [] := by
  simp only [concluded, Exchange.fault?_of_error h, Option.isNone_some, Bool.false_eq_true,
    if_false]

/-- A request that succeeded has the event that tells of it, if there is one. -/
theorem concluded_done {request : Request} {reply : Reply} {object : request.collection.Object}
    (h : Exchange.outcome ⟨request, reply⟩ = .ok object) :
    concluded ⟨.send request, reply⟩ = (successOf? request).toList := by
  simp only [concluded, Exchange.fault?_of_ok h, Option.isNone_none, if_true]

theorem mem_concluded_iff {step : Step} {event : Event} :
    event ∈ concluded step ↔ Concludes step event := by
  constructor
  · intro h
    unfold concluded at h
    split at h
    · rw [List.mem_singleton.1 h]
      exact .found _
    · rw [List.mem_singleton.1 h]
      exact .remote _ _ _
    · rw [List.mem_singleton.1 h]
      exact .script _
    · split at h
      · next hdone => exact .request (Option.isNone_iff_eq_none.1 hdone) (Option.mem_toList.1 h)
      · exact absurd h List.not_mem_nil
    · exact absurd h List.not_mem_nil
  · intro h
    cases h with
    | found path => exact List.mem_singleton_self _
    | remote path name url => exact List.mem_singleton_self _
    | script command => exact List.mem_singleton_self _
    | request hdone hevent =>
      simpa only [concluded, hdone, Option.isNone_none, if_true, Option.mem_toList] using hevent

theorem level_of_successOf? {request : Request} {event : Event}
    (h : successOf? request = some event) : event.level = .info := by
  unfold successOf? at h
  dsimp only at h
  split at h
  all_goals first | (cases h; rfl) | cases h

theorem Concludes.level {step : Step} {event : Event} (h : Concludes step event) :
    event.level ≠ .error := by
  cases h with
  | found path => nofun
  | remote path name url => nofun
  | script command => nofun
  | request hdone hevent =>
    rw [level_of_successOf? hevent]
    nofun

theorem deeds_map_tell (events : List Event) : deeds (events.map tell) = [] := by
  induction events with
  | nil => rfl
  | cons event rest ih => exact ih

theorem heard_map_tell {events : List Event} (h : ∀ event ∈ events, event.level ≠ .error) :
    heard (events.map tell) = events.map tell := by
  induction events with
  | nil => rfl
  | cons event rest ih =>
    obtain ⟨hevent, hrest⟩ := List.forall_mem_cons.1 h
    rw [List.map_cons, heard_tell hevent, ih hrest]

/-! ## Parts that tell everything -/

/-- Without its errors, the list is its deeds, each between its events. -/
def Narrated (config : Config) (steps : List Step) : Prop :=
  heard steps = (deeds steps).flatMap (narrated config)

theorem Narrated.append {before after : List Step} (hbefore : Narrated config before)
    (hafter : Narrated config after) : Narrated config (before ++ after) := by
  unfold Narrated at *
  rw [heard_append, deeds_append, List.flatMap_append, hbefore, hafter]

/-- A step that is not announced may come in front, with the events that it leads to. -/
theorem Narrated.cons {step : Step} {events : List Event} {rest : List Step}
    (hstep : event? step = none) (hannounced : announced config step = [])
    (hevents : concluded step = events) (hrest : Narrated config rest) :
    Narrated config (step :: (events.map tell ++ rest)) := by
  subst hevents
  have hlevel : ∀ event ∈ concluded step, event.level ≠ .error :=
    fun event hmem => (mem_concluded_iff.1 hmem).level
  have hheard := heard_map_tell hlevel
  unfold Narrated at *
  rw [heard_cons_of_deed hstep, heard_append, deeds_cons_of_deed hstep, deeds_append, hheard,
    deeds_map_tell, List.nil_append, List.flatMap_cons, narrated, hannounced, hrest]
  rfl

theorem Narrated.failed {request : Request} {reply : Reply} {fault : ClientFault}
    {rest : List Step} (h : Exchange.outcome ⟨request, reply⟩ = .error fault)
    (hrest : Narrated config rest) : Narrated config (⟨.send request, reply⟩ :: rest) :=
  .cons rfl rfl (concluded_failed h) hrest

theorem Narrated.done {request : Request} {reply : Reply} {object : request.collection.Object}
    {rest : List Step} (h : Exchange.outcome ⟨request, reply⟩ = .ok object)
    (hrest : Narrated config rest) :
    Narrated config (⟨.send request, reply⟩ :: ((successOf? request).toList.map tell ++ rest)) :=
  .cons rfl rfl (concluded_done h) hrest

theorem Narrated.clock {now : Instant} {rest : List Step} (hrest : Narrated config rest) :
    Narrated config (⟨.readClock, now⟩ :: rest) :=
  .cons rfl rfl rfl hrest

theorem narrated_nil : Narrated config [] := rfl

/-- Whatever the answers are, a run of the procedure is its deeds, each between its events. -/
def Narrates {α : Type} (config : Config) (procedure : Procedure α) : Prop :=
  ∀ {steps : List Step} {value : α}, Yields procedure steps value → Narrated config steps

theorem narrates_done {α : Type} (value : α) : Narrates config (.done value) := by
  intro steps result h
  obtain ⟨rfl, -⟩ := yields_done_iff.1 h
  rfl

theorem narrates_bind {ε α β : Type} {task : Task ε α} {next : α → Task ε β}
    (h : Narrates config task.run) (hnext : ∀ value, Narrates config (next value).run) :
    Narrates config (task >>= next).run := by
  intro steps result hsteps
  rcases Task.yields_bind_iff.1 hsteps with
    ⟨error, hbefore, -⟩ | ⟨before, value, after, rfl, hbefore, hafter⟩
  · exact h hbefore
  · exact (h hbefore).append (hnext value hafter)

theorem eq_nil_of_orThrow {ε φ α : Type} {toError : φ → ε} {outcome : Except φ α}
    {steps : List Step} {result : Except ε α}
    (h : Yields (Task.orThrow toError outcome).run steps result) : steps = [] := by
  rw [Task.run_orThrow] at h
  exact (yields_done_iff.1 h).1

theorem narrates_removeStale (directory : Path) :
    Narrates config (Checkout.removeStale directory).run := by
  intro steps result h
  obtain ⟨found, rest, rfl, hrest⟩ := Task.yields_act_bind_iff.1 h
  cases found with
  | false =>
    obtain ⟨rfl, -⟩ := yields_done_iff.1 hrest
    rfl
  | true =>
    obtain ⟨rest, rfl, hremove⟩ := Task.yields_report_bind_iff.1 hrest
    obtain ⟨outcome, rest, rfl, hend⟩ := Task.yields_act_bind_iff.1 hremove
    rw [eq_nil_of_orThrow hend]
    rfl

theorem narrates_cloneBranch (url branch : String) (directory : Path) :
    Narrates config (Checkout.cloneBranch url branch directory).run := by
  intro steps result h
  obtain ⟨rest, rfl, hclone⟩ := Task.yields_report_bind_iff.1 h
  obtain ⟨outcome, rest, rfl, hend⟩ := Task.yields_act_bind_iff.1 hclone
  have hrest : rest = [] := by
    cases outcome <;> exact (yields_done_iff.1 hend).1
  rw [hrest]
  rfl

theorem narrates_addForkRemote (directory : Path) (name url : String) :
    Narrates config (Checkout.addForkRemote directory name url).run := by
  intro steps result h
  obtain ⟨outcome, rest, rfl, hrest⟩ := Task.yields_act_bind_iff.1 h
  cases outcome with
  | error fault =>
    obtain ⟨rfl, -⟩ := yields_done_iff.1 hrest
    rfl
  | ok value =>
    obtain ⟨rfl, -⟩ := Task.yields_report_iff.1 hrest
    rfl

theorem narrates_sync (checkout : Checkout) : Narrates config checkout.sync.run := by
  refine narrates_bind (narrates_removeStale _) fun _ => ?_
  exact narrates_bind (narrates_cloneBranch _ _ _) fun _ => narrates_addForkRemote _ _ _

/-- The identifier of the run is told before the script, which is why both count as one part. -/
theorem narrated_script {directory : Path} {environment : TextMap String} {ran : List Step}
    {result : Except Error Unit}
    (h : Yields (Bootstrap.runPreview directory environment).run ran result) :
    Narrated config (tell (announcement config) :: ran) := by
  unfold Bootstrap.runPreview Bootstrap.runScript at h
  obtain ⟨rest, rfl, hlaunch⟩ := Task.yields_report_bind_iff.1 h
  obtain ⟨outcome, rest, rfl, hrest⟩ := Task.yields_act_bind_iff.1 hlaunch
  cases outcome with
  | error fault =>
    obtain ⟨rfl, -⟩ := yields_done_iff.1 hrest
    rfl
  | ok status =>
    rcases status with (_ | code) | number
    · obtain ⟨rfl, -⟩ := Task.yields_report_iff.1 hrest
      rfl
    · obtain ⟨rfl, -⟩ := yields_done_iff.1 hrest
      rfl
    · obtain ⟨rfl, -⟩ := yields_done_iff.1 hrest
      rfl

/-- A push tells everything but its failure, which is an error. -/
theorem narrates_push (url : Option String) : Narrates config (OauthRedirect.push url) := by
  intro steps result h
  obtain ⟨before, outcome, rfl, hcourse⟩ := OauthRedirect.yields_push_iff.1 h
  have hclosing : Narrated config (OauthRedirect.closing outcome) := by
    cases hcourse <;> rfl
  refine Narrated.append ?_ hclosing
  cases hcourse with
  | unset => rfl
  | patchFailed hurl hpatch => exact .failed hpatch narrated_nil
  | searchFailed hurl hpatch hsearch => exact .done hpatch (.failed hsearch narrated_nil)
  | scaleUnbuildable hurl hpatch hsearch huri =>
    exact .done hpatch (.done hsearch (.clock narrated_nil))
  | scaleFailed hurl hpatch hsearch huri hscale =>
    exact .done hpatch (.done hsearch (.clock (.failed hscale narrated_nil)))
  | scaled hurl hpatch hsearch huri hscale =>
    exact .done hpatch (.done hsearch (.clock (.done hscale narrated_nil)))

section Secret

open QuaySecret

variable {dockerConfig : List UInt8}

/-- The event that a phase is about to report. -/
def pending (phase : Phase) : List Event :=
  (phase.report?.map (·.1)).toList

/-- The events that belong to a request are those that the next phase is about to report. -/
theorem concluded_of_request {phase : Phase} {request : Request}
    (h : phase.request? dockerConfig = some request) (reply : Reply) :
    concluded ⟨.send request, reply⟩ = pending (phase.afterReply reply) := by
  cases phase with
  | findNamespace =>
    cases h
    rcases hreply : reply.decode Namespace.codec with fault | found
    · refine Eq.trans (concluded_failed hreply) ?_
      simp only [Phase.afterReply, hreply]
      split <;> rfl
    · refine Eq.trans (concluded_done hreply) ?_
      simp only [Phase.afterReply, hreply]
      rfl
  | createNamespace =>
    cases h
    have hname := Request.name?_create .namespaces freshNamespace
    rcases hreply : reply.decode Namespace.codec with fault | created
    · refine Eq.trans (concluded_failed hreply) ?_
      simp only [Phase.afterReply, hreply]
      rfl
    · refine Eq.trans (concluded_done hreply) ?_
      simp only [Phase.afterReply, hreply]
      exact congrArg (fun name => [Event.createdNamespace (name.getD "")]) hname
  | findSecret =>
    cases h
    rcases hreply : reply.decode Secret.codec with fault | found
    · refine Eq.trans (concluded_failed hreply) ?_
      simp only [Phase.afterReply, hreply]
      split <;> rfl
    · refine Eq.trans (concluded_done hreply) ?_
      simp only [Phase.afterReply, hreply]
      rfl
  | updateSecret found =>
    cases h
    rcases hreply : reply.decode Secret.codec with fault | stored
    · refine Eq.trans (concluded_failed hreply) ?_
      simp only [Phase.afterReply, hreply]
      rfl
    · refine Eq.trans (concluded_done hreply) ?_
      simp only [Phase.afterReply, hreply]
      rfl
  | createSecret =>
    cases h
    have hname := Request.name?_create secrets (createdSecret dockerConfig)
    rcases hreply : reply.decode Secret.codec with fault | stored
    · refine Eq.trans (concluded_failed hreply) ?_
      simp only [Phase.afterReply, hreply]
      rfl
    · refine Eq.trans (concluded_done hreply) ?_
      simp only [Phase.afterReply, hreply]
      exact congrArg (fun name => [Event.createdSecret ⟨secretNamespace, name.getD ""⟩]) hname
  | _ => cases h

/-- The steps from a phase on begin with what it is about to report. -/
theorem heard_of_phase {phase : Phase} {steps : List Step} {result : Except Error Secret}
    (h : Yields (phase.rest dockerConfig) steps result) :
    heard steps = (pending phase).map tell ++ (deeds steps).flatMap (narrated config) := by
  replace h := Phase.runs_of_yields h
  induction h with
  | ended => rfl
  | @report phase next event steps hreport hrest ih =>
    have hinfo : pending next = [] ∧ event.level = .info := by
      cases phase <;> cases hreport <;> exact ⟨rfl, rfl⟩
    have hlevel : event.level ≠ .error := by
      rw [hinfo.2]
      decide
    rw [hinfo.1] at ih
    rw [pending, hreport]
    exact (heard_tell hlevel _).trans (congrArg (_ :: ·) ih)
  | @request phase request reply steps hrequest hrest ih =>
    have hnone : pending phase = [] := by
      cases phase <;> first | rfl | cases hrequest
    rw [hnone, heard_cons_of_deed rfl, ih, ← concluded_of_request hrequest reply]
    rfl

theorem narrates_provision (token : String) : Narrates config (provision token).run := by
  intro steps result h
  rcases htoken : decodeToken token with error | dockerConfig
  · rw [run_provision_rejected htoken] at h
    exact narrates_done _ h
  · rw [Phase.run_provision htoken] at h
    exact heard_of_phase h

end Secret

/-! ## The whole run -/

section Run

variable {checkout : Checkout} {synced ran pushed provided : List Step}

theorem narrated_prepared {outcome : Except Error Unit}
    (hsync : Yields checkout.sync.run synced (.ok ()))
    (hscript : Yields (Bootstrap.runPreview checkout.directory config.environment).run ran
      outcome) :
    Narrated config (synced ++ ⟨.report (announcement config), ()⟩ :: ran) :=
  Narrated.append (narrates_sync checkout hsync) (narrated_script hscript)

theorem narrated_deployed {outcome : Except Error Secret}
    (hsync : Yields checkout.sync.run synced (.ok ()))
    (hscript : Yields (Bootstrap.runPreview checkout.directory config.environment).run ran
      (.ok ()))
    (hpush : Yields (OauthRedirect.push config.oauthRedirectProxyUrl) pushed ())
    (hsecret : Yields (QuaySecret.provision config.quayToken).run provided outcome) :
    Narrated config
      (synced ++ ⟨.report (announcement config), ()⟩ :: ran ++ (pushed ++ provided)) :=
  (narrated_prepared hsync hscript).append
    ((narrates_push _ hpush).append (narrates_provision _ hsecret))

/-- The report at the end of a run that succeeded. -/
def ending : Except Error Unit → List Step
  | .ok () => [tell .installed]
  | .error _ => []

variable {steps : List Step} {result : Except Error Unit}

/-- An installation is what narrates itself, and the ending. -/
theorem exists_narrated (h : Yields (runFrom checkout config).run steps result) :
    ∃ front, steps = front ++ ending result ∧ Narrated config front := by
  cases yields_iff_course.1 h with
  | syncFailed hsync => exact ⟨_, (List.append_nil _).symm, narrates_sync checkout hsync⟩
  | scriptFailed hsync hscript =>
    exact ⟨_, (List.append_nil _).symm, narrated_prepared hsync hscript⟩
  | secretFailed hsync hscript hpush hsecret =>
    exact ⟨_, (List.append_nil _).symm, narrated_deployed hsync hscript hpush hsecret⟩
  | installed hsync hscript hpush hsecret =>
    refine ⟨_, ?_, narrated_deployed hsync hscript hpush hsecret⟩
    simp only [ending, tell, List.append_assoc]

/-- Without its errors, an installation is its deeds, each between its events, and the ending. -/
theorem heard_eq (h : Yields (runFrom checkout config).run steps result) :
    heard steps = (deeds steps).flatMap (narrated config) ++ ending result := by
  obtain ⟨front, rfl, hfront⟩ := exists_narrated h
  have hending : heard (ending result) = ending result ∧ deeds (ending result) = [] := by
    cases result <;> exact ⟨rfl, rfl⟩
  rw [heard_append, deeds_append, hending.1, hending.2, List.append_nil, hfront]

end Run

end PreviewInstaller.Install
