import PreviewInstaller.Proofs.Installation.Chronicle

set_option autoImplicit false

/-! # The log of an installation

What can be concluded from the events of an installation, given that its steps and its events match.
Main statement: a removal is told exactly if a directory was in the way, a remote exactly if it was
added to a clone, the end of the script exactly if it exited with status 0, and the success of a
request exactly if it succeeded; nothing that succeeds is left out, nothing is told too early, and
the last event of an installation that succeeded, and of no other one, is that it did. -/

namespace PreviewInstaller.Install

open Procedure Cluster

variable {checkout : Checkout} {config : Config} {steps : List Step} {result : Except Error Unit}

/-! ## Events and steps -/

/-- Whether an event tells what was found or achieved. -/
def isOutcome : Event → Bool
  | .removingFolder _ | .addedRemote .. | .finished _ | .patched .. | .scaledDown _
  | .createdNamespace _ | .createdSecret _ | .updatedSecret _ | .installed => true
  | _ => false

theorem level_of_isOutcome {event : Event} (h : isOutcome event = true) :
    event.level ≠ .error := by
  cases event <;> simp [isOutcome, Event.level] at h ⊢

/-- What is announced is still to come. -/
theorem notMem_announced {event : Event} (h : isOutcome event = true) (step : Step) :
    event ∉ announced config step := by
  obtain ⟨action, answer⟩ := step
  intro hmem
  cases action with
  | clone url branch path =>
    rw [List.mem_singleton.1 hmem] at h
    cases h
  | launch command =>
    simp only [announced, List.mem_cons, List.not_mem_nil, or_false] at hmem
    rcases hmem with rfl | rfl <;> cases h
  | _ => exact absurd hmem List.not_mem_nil

/-- The kind of request whose success an event tells. -/
inductive TellsOf : Event → String → Collection → Prop where
  | patched (namespaceName name : String) :
      TellsOf (.patched ⟨namespaceName, name⟩ OauthRedirect.redirectUrlKey) "PATCH"
        (.configMaps namespaceName)
  | scaledDown (namespaceName name : String) :
      TellsOf (.scaledDown ⟨namespaceName, name⟩) "PUT" (.deployments namespaceName)
  | createdNamespace (name : String) : TellsOf (.createdNamespace name) "POST" .namespaces
  | createdSecret (namespaceName name : String) :
      TellsOf (.createdSecret ⟨namespaceName, name⟩) "POST" (.secrets namespaceName)
  | updatedSecret (namespaceName name : String) :
      TellsOf (.updatedSecret ⟨namespaceName, name⟩) "PUT" (.secrets namespaceName)

theorem tellsOf_of_successOf? {request : Request} {event : Event}
    (h : successOf? request = some event) :
    TellsOf event request.method request.collection := by
  unfold successOf? at h
  dsimp only at h
  split at h
  · cases h
    exact .createdNamespace _
  · cases h
    exact .createdSecret _ _
  · cases h
    exact .updatedSecret _ _
  · cases h
    exact .scaledDown _ _
  · cases h
    exact .patched _ _
  · cases h

theorem mem_reports_iff {event : Event} : event ∈ reports steps ↔ tell event ∈ steps := by
  unfold reports
  rw [List.mem_filterMap]
  constructor
  · rintro ⟨⟨action, answer⟩, hmem, heq⟩
    cases action with
    | report found =>
      cases heq
      exact hmem
    | _ => cases heq
  · intro h
    exact ⟨_, h, rfl⟩

theorem mem_heard_iff {event : Event} (h : event.level ≠ .error) :
    tell event ∈ heard steps ↔ tell event ∈ steps := by
  rw [heard, List.mem_filter]
  exact and_iff_left (decide_eq_true h)

@[simp]
theorem tell_inj {first second : Event} : tell first = tell second ↔ first = second := by
  refine ⟨fun h => ?_, congrArg tell⟩
  cases h
  rfl

theorem tell_mem_map_iff {event : Event} {events : List Event} :
    tell event ∈ events.map tell ↔ event ∈ events := by
  simp

theorem Concludes.event?_eq {step : Step} {event : Event} (h : Concludes step event) :
    event? step = none := by
  cases h <;> rfl

theorem mem_narrated_iff {step : Step} {event : Event} (hstep : event? step = none)
    (hevent : isOutcome event = true) : tell event ∈ narrated config step ↔ Concludes step event := by
  have hself : tell event ≠ step := by
    rintro rfl
    cases hstep
  rw [narrated, List.mem_append, tell_mem_map_iff, List.mem_cons, tell_mem_map_iff,
    mem_concluded_iff]
  simp only [notMem_announced hevent, hself, false_or]

/-- What is told of a step is told because of it. -/
theorem told_iff (h : Yields (runFrom checkout config).run steps result) {event : Event}
    (hevent : isOutcome event = true) :
    event ∈ reports steps ↔
      (∃ step ∈ steps, Concludes step event) ∨ tell event ∈ ending result := by
  rw [mem_reports_iff, ← mem_heard_iff (level_of_isOutcome hevent), heard_eq h, List.mem_append,
    List.mem_flatMap]
  refine or_congr_left ⟨?_, ?_⟩
  · rintro ⟨step, hstep, hmem⟩
    obtain ⟨hstep, hdeed⟩ := List.mem_filter.1 hstep
    exact ⟨step, hstep, (mem_narrated_iff (Option.isNone_iff_eq_none.1 hdeed) hevent).1 hmem⟩
  · rintro ⟨step, hstep, hconcludes⟩
    have hdeed := hconcludes.event?_eq
    exact ⟨step, List.mem_filter.2 ⟨hstep, Option.isNone_iff_eq_none.2 hdeed⟩,
      (mem_narrated_iff hdeed hevent).2 hconcludes⟩

theorem mem_ending_iff {event : Event} :
    tell event ∈ ending result ↔ event = .installed ∧ result = .ok () := by
  cases result with
  | error error => simp [ending]
  | ok value =>
    simp only [ending, List.mem_singleton, tell_inj, and_true]

/-- An element of a list of lists is in one of them, and what is in front of it there is in front of
it in the whole list. -/
theorem exists_of_flatMap {α β : Type} {f : α → List β} {values : List α} {tail before after : List β}
    {found : β} (h : values.flatMap f ++ tail = before ++ found :: after) (htail : found ∉ tail) :
    ∃ value ∈ values, ∃ front back, f value = front ++ found :: back ∧
      ∀ other ∈ front, other ∈ before := by
  induction values generalizing before with
  | nil =>
    rw [List.flatMap_nil, List.nil_append] at h
    exact absurd (h ▸ List.mem_append_right _ List.mem_cons_self) htail
  | cons value rest ih =>
    rw [List.flatMap_cons, List.append_assoc] at h
    rcases List.append_eq_append_iff.1 h with ⟨between, rfl, hrest⟩ | ⟨between, hvalue, hrest⟩
    · obtain ⟨other, hother, front, back, heq, hfront⟩ := ih hrest
      exact ⟨other, List.mem_cons_of_mem _ hother, front, back, heq,
        fun _ hmem => List.mem_append_right _ (hfront _ hmem)⟩
    · cases between with
      | nil =>
        have hbehind : rest.flatMap f ++ tail = [] ++ found :: after := hrest.symm
        obtain ⟨other, hother, front, back, heq, hfront⟩ := ih hbehind
        refine ⟨other, List.mem_cons_of_mem _ hother, front, back, heq, fun _ hmem => ?_⟩
        exact absurd (hfront _ hmem) List.not_mem_nil
      | cons first back =>
        obtain ⟨rfl, -⟩ := List.cons.inj hrest
        exact ⟨value, List.mem_cons_self, before, back, hvalue, fun _ hmem => hmem⟩

/-- What is told of a step comes behind it. -/
theorem concluded_before (h : Yields (runFrom checkout config).run steps result)
    {before after : List Step} {event : Event} (hsteps : steps = before ++ tell event :: after)
    (hevent : isOutcome event = true) (hending : tell event ∉ ending result) :
    ∃ step ∈ before, Concludes step event := by
  have heq := heard_eq h
  rw [hsteps, heard_append, heard_tell (level_of_isOutcome hevent), ← hsteps] at heq
  obtain ⟨step, hstep, front, back, hnarrated, hfront⟩ := exists_of_flatMap heq.symm hending
  have hdeed := Option.isNone_iff_eq_none.1 (List.mem_filter.1 hstep).2
  have hannounced : tell event ∉ (announced config step).map tell := by
    rw [tell_mem_map_iff]
    exact notMem_announced hevent step
  obtain ⟨between, rfl, hbehind⟩ := eq_append_of_notMem hnarrated hannounced
  cases between with
  | nil =>
    obtain ⟨rfl, -⟩ := List.cons.inj hbehind
    cases hdeed
  | cons first between =>
    obtain ⟨rfl, hconcluded⟩ := List.cons.inj hbehind
    have hmem : tell event ∈ (concluded step).map tell := by
      rw [hconcluded]
      exact List.mem_append_right _ List.mem_cons_self
    rw [tell_mem_map_iff, mem_concluded_iff] at hmem
    have hheard := hfront step (List.mem_append_right _ List.mem_cons_self)
    exact ⟨step, (List.mem_filter.1 hheard).1, hmem⟩

/-! ## The checkout in the log -/

/-- Whether nothing but a checkout does this: to look for a directory, or to add a remote. -/
def isCheckoutAction : Action → Bool
  | .findDirectory _ | .addRemote .. => true
  | _ => false

/-- What follows the checkout looks for no directory and adds no remote. -/
theorem exists_synced (h : Yields (runFrom checkout config).run steps result) :
    ∃ synced rest outcome, steps = synced ++ rest ∧ Yields checkout.sync.run synced outcome ∧
      ∀ step ∈ rest, isCheckoutAction step.action = false := by
  rcases Task.yields_bind_iff.1 h with ⟨error, hsync, -⟩ | ⟨synced, ⟨⟩, rest, rfl, hsync, hrest⟩
  · exact ⟨steps, [], .error error, (List.append_nil _).symm, hsync, by simp⟩
  refine ⟨synced, rest, .ok (), rfl, hsync,
    @Performs.of_mem_steps _ (fun action => isCheckoutAction action = false) _ _ _ ?_ hrest⟩
  refine Task.performs_bind (Task.performs_report rfl) fun _ => ?_
  refine Task.performs_bind ((performs_runPreview _ _).mono ?_) fun _ => ?_
  · rintro action (_ | _ | _) <;> rfl
  refine Task.performs_bind (Task.performs_lift ((performs_push _).mono ?_)) fun _ => ?_
  · rintro action (_ | _ | _ | _ | _) <;> rfl
  refine Task.performs_bind ((performs_provision _).mono ?_) fun _ => Task.performs_report rfl
  rintro action (_ | _ | _ | _ | _ | _ | _ | _) <;> rfl

/-- An action that does not look for a directory. -/
def LooksAway (action : Action) : Prop :=
  ∀ path, action ≠ .findDirectory path

theorem find_of_removeStale {directory : Path} {stale : List Step} {outcome : Except Error Unit}
    (h : Yields (Checkout.removeStale directory).run stale outcome) :
    ∃ found rest, stale = ⟨.findDirectory directory, found⟩ :: rest ∧
      ∀ step ∈ rest, LooksAway step.action := by
  obtain ⟨found, rest, rfl, hrest⟩ := Task.yields_act_bind_iff.1 h
  refine ⟨found, rest, rfl, @Performs.of_mem_steps _ LooksAway _ _ _ ?_ hrest⟩
  cases found with
  | false => exact .done _
  | true =>
    refine Task.performs_bind (Task.performs_report nofun) fun _ => ?_
    exact Task.performs_bind (Task.performs_act nofun) fun _ => Task.performs_orThrow _ _

/-- An installation begins with the look for the directory, and looks for none later. -/
theorem find_of_yields (h : Yields (runFrom checkout config).run steps result) :
    ∃ found rest, steps = ⟨.findDirectory checkout.directory, found⟩ :: rest ∧
      ∀ step ∈ rest, LooksAway step.action := by
  obtain ⟨synced, rest, outcome, rfl, hsync, hrest⟩ := exists_synced h
  have haway : ∀ step ∈ rest, LooksAway step.action := by
    intro step hstep path heq
    have hnot := hrest step hstep
    rw [heq] at hnot
    cases hnot
  rcases Task.yields_bind_iff.1 hsync with
    ⟨error, hstale, -⟩ | ⟨stale, ⟨⟩, others, rfl, hstale, hothers⟩
  · obtain ⟨found, behind, rfl, hbehind⟩ := find_of_removeStale hstale
    exact ⟨found, behind ++ rest, rfl, List.forall_mem_append.2 ⟨hbehind, haway⟩⟩
  · obtain ⟨found, behind, rfl, hbehind⟩ := find_of_removeStale hstale
    have hclone : ∀ step ∈ others, LooksAway step.action := by
      refine @Performs.of_mem_steps _ LooksAway _ _ _ ?_ hothers
      exact Task.performs_bind (performs_cloneBranch nofun nofun) fun _ =>
        performs_addForkRemote nofun nofun
    refine ⟨found, behind ++ others ++ rest, rfl, ?_⟩
    exact List.forall_mem_append.2 ⟨List.forall_mem_append.2 ⟨hbehind, hclone⟩, haway⟩

theorem removing_iff (h : Yields (runFrom checkout config).run steps result) :
    (∃ path, .removingFolder path ∈ reports steps) ↔
      ⟨.findDirectory checkout.directory, true⟩ ∈ steps := by
  constructor
  · rintro ⟨path, hmem⟩
    rcases (told_iff h rfl).1 hmem with ⟨step, hstep, hconcludes⟩ | hending
    · cases hconcludes with
      | found =>
        obtain ⟨found, rest, rfl, haway⟩ := find_of_yields h
        rcases List.mem_cons.1 hstep with heq | hrest
        · cases heq
          exact List.mem_cons_self
        · exact absurd rfl (haway _ hrest path)
      | request _ hevent => cases tellsOf_of_successOf? hevent
    · cases (mem_ending_iff.1 hending).1
  · intro hmem
    exact ⟨_, (told_iff h rfl).2 (.inl ⟨_, hmem, .found _⟩)⟩

/-- A remote is only added to a clone that is done. -/
theorem cloned_of_addRemote (h : Yields (runFrom checkout config).run steps result) {path : Path}
    {name url : String} {answer : (Action.addRemote path name url).Answer}
    (hmem : ⟨.addRemote path name url, answer⟩ ∈ steps) :
    ⟨.clone checkout.url checkout.branch checkout.directory, CloneOutcome.done⟩ ∈ steps := by
  obtain ⟨synced, rest, outcome, rfl, hsync, hrest⟩ := exists_synced h
  have hnot : ⟨.addRemote path name url, answer⟩ ∉ rest := by
    intro hmem
    cases hrest _ hmem
  have hsynced := (List.mem_append.1 hmem).resolve_right hnot
  refine List.mem_append_left _ ?_
  rcases Task.yields_bind_iff.1 hsync with
    ⟨error, hstale, -⟩ | ⟨stale, ⟨⟩, others, rfl, hstale, hothers⟩
  · exact absurd hsynced
      (notMem_of_goesThrough (goesThrough_removeStale _) hstale rfl (by decide))
  rcases Task.yields_bind_iff.1 hothers with
    ⟨error, hclone, -⟩ | ⟨cloned, ⟨⟩, added, rfl, hclone, hadded⟩
  · have hstale' : ⟨.addRemote path name url, answer⟩ ∉ stale :=
      notMem_of_goesThrough (goesThrough_removeStale _) hstale rfl (by decide)
    have hclone' : ⟨.addRemote path name url, answer⟩ ∉ others :=
      notMem_of_goesThrough (goesThrough_cloneBranch _ _ _) hclone rfl (by decide)
    exact absurd hsynced (by simp [hstale', hclone'])
  · obtain ⟨told, rfl, hact⟩ := Task.yields_report_bind_iff.1 hclone
    obtain ⟨outcome, ended, rfl, hend⟩ := Task.yields_act_bind_iff.1 hact
    cases outcome with
    | done => simp
    | failed fault => cases (yields_done_iff.1 hend).2
    | crashed => cases (yields_done_iff.1 hend).2

theorem remote_iff (h : Yields (runFrom checkout config).run steps result) :
    (∃ name url, .addedRemote name url ∈ reports steps) ↔
      ⟨.clone checkout.url checkout.branch checkout.directory, CloneOutcome.done⟩ ∈ steps ∧
        ∃ path name url, ⟨.addRemote path name url, Except.ok ()⟩ ∈ steps := by
  constructor
  · rintro ⟨name, url, hmem⟩
    rcases (told_iff h rfl).1 hmem with ⟨step, hstep, hconcludes⟩ | hending
    · cases hconcludes with
      | remote path => exact ⟨cloned_of_addRemote h hstep, path, name, url, hstep⟩
      | request _ hevent => cases tellsOf_of_successOf? hevent
    · cases (mem_ending_iff.1 hending).1
  · rintro ⟨-, path, name, url, hmem⟩
    exact ⟨name, url, (told_iff h rfl).2 (.inl ⟨_, hmem, .remote _ _ _⟩)⟩

/-! ## The script in the log -/

theorem finished_iff (h : Yields (runFrom checkout config).run steps result) :
    (∃ script, .finished script ∈ reports steps) ↔
      ∃ command, ⟨.launch command, Except.ok (.exited 0)⟩ ∈ steps := by
  constructor
  · rintro ⟨script, hmem⟩
    rcases (told_iff h rfl).1 hmem with ⟨step, hstep, hconcludes⟩ | hending
    · cases hconcludes with
      | script command => exact ⟨command, hstep⟩
      | request _ hevent => cases tellsOf_of_successOf? hevent
    · cases (mem_ending_iff.1 hending).1
  · rintro ⟨command, hmem⟩
    exact ⟨_, (told_iff h rfl).2 (.inl ⟨_, hmem, .script command⟩)⟩

/-! ## Requests in the log -/

theorem mem_exchanges_iff {exchange : Exchange} :
    exchange ∈ exchanges steps ↔ ⟨.send exchange.request, exchange.reply⟩ ∈ steps := by
  rw [exchanges, List.mem_filterMap]
  constructor
  · rintro ⟨step, hmem, hstep⟩
    rwa [← Step.eq_of_exchange? hstep]
  · intro hmem
    exact ⟨_, hmem, rfl⟩

/-- A request that changes something has an event that tells of its success. -/
def HasEvent (action : Action) : Prop :=
  ∀ request, action = .send request → request.method ≠ "GET" →
    (successOf? request).isSome = true

theorem hasEvent_of_isSome {request : Request} (h : (successOf? request).isSome = true) :
    HasEvent (.send request) := by
  rintro other ⟨⟩ -
  exact h

theorem hasEvent_of_get {request : Request} (h : request.method = "GET") :
    HasEvent (.send request) := by
  rintro other ⟨⟩ hmethod
  exact absurd h hmethod

theorem performs_hasEvent (checkout : Checkout) (config : Config) :
    Performs HasEvent (runFrom checkout config).run := by
  refine (performs_runFrom checkout config).mono fun action h => ?_
  cases h with
  | tell event => nofun
  | checkout h => cases h <;> nofun
  | script h => cases h <;> nofun
  | redirect h =>
    cases h with
    | tell => nofun
    | readClock => nofun
    | patch url => exact hasEvent_of_isSome rfl
    | find => exact hasEvent_of_get rfl
    | scale => exact hasEvent_of_isSome rfl
  | secret h =>
    cases h with
    | findNamespace => exact hasEvent_of_get rfl
    | findSecret => exact hasEvent_of_get rfl
    | createNamespace => exact hasEvent_of_isSome rfl
    | createSecret => exact hasEvent_of_isSome rfl
    | updateSecret => exact hasEvent_of_isSome rfl
    | _ => nofun

theorem TellsOf.isOutcome {event : Event} {method : String} {collection : Collection}
    (h : TellsOf event method collection) : isOutcome event = true := by
  cases h <;> rfl

theorem TellsOf.unique {event : Event} {method method' : String}
    {collection collection' : Collection} (h : TellsOf event method collection)
    (h' : TellsOf event method' collection') : method = method' ∧ collection = collection' := by
  cases h <;> cases h' <;> exact ⟨rfl, rfl⟩

/-- The success of a kind of request is told exactly if such a request succeeded. -/
theorem request_iff (h : Yields (runFrom checkout config).run steps result) {method : String}
    {collection : Collection} (hmethod : method ≠ "GET") :
    (∃ event ∈ reports steps, TellsOf event method collection) ↔
      ∃ exchange ∈ exchanges steps, exchange.request.method = method ∧
        exchange.request.collection = collection ∧ exchange.fault? = none := by
  constructor
  · rintro ⟨event, hmem, htells⟩
    rcases (told_iff h htells.isOutcome).1 hmem with ⟨step, hstep, hconcludes⟩ | hending
    · cases hconcludes with
      | @request request reply _ hdone hevent =>
        obtain ⟨hsame, hsame'⟩ := (tellsOf_of_successOf? hevent).unique htells
        exact ⟨⟨request, reply⟩, mem_exchanges_iff.2 hstep, hsame, hsame', hdone⟩
      | _ => cases htells
    · obtain ⟨rfl, -⟩ := mem_ending_iff.1 hending
      cases htells
  · rintro ⟨exchange, hmem, rfl, rfl, hdone⟩
    have hstep := mem_exchanges_iff.1 hmem
    have hsome := (performs_hasEvent checkout config).of_mem_steps h _ hstep _ rfl hmethod
    obtain ⟨event, hevent⟩ := Option.isSome_iff_exists.1 hsome
    have htells := tellsOf_of_successOf? hevent
    exact ⟨event, (told_iff h htells.isOutcome).2 (.inl ⟨_, hstep, .request hdone hevent⟩), htells⟩

/-! ## One secret in the log -/

/-- Whether an event tells that the secret was stored. -/
def tellsOfSecret : Event → Bool
  | .createdSecret _ | .updatedSecret _ => true
  | _ => false

/-- How often steps tell that the secret was stored. -/
def secretsTold (steps : List Step) : Nat :=
  (reports steps).countP tellsOfSecret

theorem secretsTold_append (before after : List Step) :
    secretsTold (before ++ after) = secretsTold before + secretsTold after := by
  rw [secretsTold, reports, List.filterMap_append, List.countP_append]
  rfl

/-- An action that does not tell of the secret. -/
def KeepsQuiet (action : Action) : Prop :=
  ∀ event, action = .report event → tellsOfSecret event = false

theorem secretsTold_eq_zero {α : Type} {procedure : Procedure α} {value : α}
    (h : Performs KeepsQuiet procedure) (hsteps : Yields procedure steps value) :
    secretsTold steps = 0 := by
  refine List.countP_eq_zero.2 fun event hmem => ?_
  rw [h.of_mem_steps hsteps _ (mem_reports_iff.1 hmem) event rfl]
  nofun

theorem keepsQuiet_prepare (checkout : Checkout) (config : Config) :
    Performs KeepsQuiet (prepare checkout config).run := by
  refine Task.performs_bind ((performs_sync checkout).mono ?_) fun _ => ?_
  · rintro action (_ | _ | _ | _ | _ | _ | _) event ⟨⟩ <;> rfl
  refine Task.performs_bind (Task.performs_report ?_) fun _ => (performs_runPreview _ _).mono ?_
  · rintro event ⟨⟩
    rfl
  · rintro action (_ | _ | _) event ⟨⟩ <;> rfl

theorem keepsQuiet_push (url : Option String) : Performs KeepsQuiet (OauthRedirect.push url) := by
  refine (performs_push url).mono ?_
  rintro action h event rfl
  obtain ⟨hevent⟩ := h
  cases hevent <;> rfl

/-- From every phase on the secret is stored once at most, as nothing follows its report. -/
theorem secretsTold_phase {dockerConfig : List UInt8} {phase : QuaySecret.Phase}
    {outcome : Except Error Secret} (h : Yields (phase.rest dockerConfig) steps outcome) :
    secretsTold steps ≤ 1 := by
  replace h := QuaySecret.Phase.runs_of_yields h
  induction h with
  | ended => exact Nat.zero_le 1
  | @report phase next event steps hreport hrest ih =>
    have hlast : ∀ ended, next = .ended ended →
        secretsTold (⟨.report event, ()⟩ :: steps) ≤ 1 := by
      rintro ended rfl
      cases hrest with
      | ended => exact List.countP_le_length
      | report hreport _ => cases hreport
      | request hrequest _ => cases hrequest
    cases phase with
    | reportNamespace =>
      cases hreport
      exact ih
    | reportUpdated stored =>
      cases hreport
      exact hlast _ rfl
    | reportCreated stored =>
      cases hreport
      exact hlast _ rfl
    | _ => cases hreport
  | request hrequest hrest ih => exact ih

theorem secretsTold_provision {token : String} {provided : List Step}
    {outcome : Except Error Secret} (h : Yields (QuaySecret.provision token).run provided outcome) :
    secretsTold provided ≤ 1 := by
  rcases htoken : QuaySecret.decodeToken token with error | dockerConfig
  · rw [QuaySecret.run_provision_rejected htoken] at h
    rw [(yields_done_iff.1 h).1]
    exact Nat.zero_le 1
  · rw [QuaySecret.Phase.run_provision htoken] at h
    exact secretsTold_phase h

theorem secretsTold_le (h : Yields (runFrom checkout config).run steps result) :
    secretsTold steps ≤ 1 := by
  rcases yields_iff_prepared.1 h with
    ⟨error, hprepared, -⟩ | ⟨prepared, deployed, rfl, hprepared, hdeployed⟩
  · rw [secretsTold_eq_zero (keepsQuiet_prepare checkout config) hprepared]
    exact Nat.zero_le 1
  obtain ⟨pushed, ⟨⟩, rest, rfl, hpush, hrest⟩ := Task.yields_lift_bind_iff.1 hdeployed
  rw [secretsTold_append, secretsTold_append,
    secretsTold_eq_zero (keepsQuiet_prepare checkout config) hprepared,
    secretsTold_eq_zero (keepsQuiet_push _) hpush, Nat.zero_add, Nat.zero_add]
  rcases Task.yields_bind_iff.1 hrest with
    ⟨error, hsecret, -⟩ | ⟨provided, secret, ended, rfl, hsecret, hend⟩
  · exact secretsTold_provision hsecret
  · obtain ⟨rfl, -⟩ := Task.yields_report_iff.1 hend
    rw [secretsTold_append]
    exact secretsTold_provision hsecret

/-! ## The end of the log -/

theorem installed_iff (h : Yields (runFrom checkout config).run steps result) :
    .installed ∈ reports steps ↔ result = .ok () := by
  rw [told_iff h rfl, mem_ending_iff]
  constructor
  · rintro (⟨step, -, hconcludes⟩ | ⟨-, hresult⟩)
    · cases hconcludes with
      | request _ hevent => cases tellsOf_of_successOf? hevent
    · exact hresult
  · intro hresult
    exact .inr ⟨rfl, hresult⟩

/-- Nothing follows the report that the installation succeeded. -/
theorem eq_nil_of_installed (h : Yields (runFrom checkout config).run steps result)
    {before after : List Step} (hsteps : steps = before ++ tell .installed :: after) :
    after = [] := by
  obtain ⟨front, hfront, hnarrated⟩ := exists_narrated h
  have hnot : tell .installed ∉ front := by
    rw [← mem_heard_iff (level_of_isOutcome rfl), hnarrated, List.mem_flatMap]
    rintro ⟨step, hstep, hmem⟩
    have hdeed := Option.isNone_iff_eq_none.1 (List.mem_filter.1 hstep).2
    cases (mem_narrated_iff hdeed rfl).1 hmem with
    | request _ hevent => cases tellsOf_of_successOf? hevent
  obtain ⟨between, -, hending⟩ := eq_append_of_notMem (hfront.symm.trans hsteps) hnot
  cases result with
  | error error => cases between <;> cases hending
  | ok value =>
    cases between with
    | nil => exact (List.cons.inj hending).2.symm
    | cons first between => cases between <;> cases hending

/-! ## Logs of machines -/

section Machine

variable (machine : Machine)

theorem events_record_reported (event : Event) :
    (machine.record [.reported event]).events = machine.events ++ [event] := by
  simp [Machine.events, Machine.entries, Machine.record]

/-- What is no event leaves the events as they are. -/
theorem events_record {entries : List Emission} (h : ∀ event, .reported event ∉ entries) :
    (machine.record entries).events = machine.events := by
  have hnone : ∀ event, .reported event ∉ entries := h
  unfold Machine.events Machine.entries Machine.record
  rw [List.reverse_append, List.reverse_reverse, List.filterMap_append]
  refine List.append_right_eq_self.2 (List.filterMap_eq_nil_iff.2 fun entry hentry => ?_)
  cases entry with
  | reported event => exact absurd hentry (hnone event)
  | printed printed => rfl
  | transportFault text => rfl

theorem events_answer (action : Action) : (machine.answer action).2.events =
    machine.events ++ reports [⟨action, (machine.answer action).1⟩] := by
  cases action with
  | report event => exact events_record_reported machine event
  | launch command =>
    refine (events_record _ ?_).trans (List.append_nil _).symm
    simp
  | send request =>
    show (machine.send request).2.events = machine.events ++ []
    unfold Machine.send
    rw [List.append_nil]
    split
    · exact events_record _ (by simp)
    · rfl
  | _ => exact (List.append_nil _).symm

/-- The events of a machine are those of the steps that it goes through. -/
theorem events_run {α : Type} (procedure : Procedure α) : (machine.run procedure).2.events =
    machine.events ++ reports (trace Machine.handler procedure machine) := by
  induction procedure generalizing machine with
  | done value => exact (List.append_nil _).symm
  | perform action resume ih =>
    have hrest := ih (machine.answer action).1 (machine.answer action).2
    calc (machine.run (.perform action resume)).2.events
        = (machine.answer action).2.events ++ reports (trace Machine.handler
            (resume (machine.answer action).1) (machine.answer action).2) := hrest
      _ = machine.events ++ (reports [⟨action, (machine.answer action).1⟩] ++
            reports (trace Machine.handler (resume (machine.answer action).1)
              (machine.answer action).2)) := by
        rw [events_answer, List.append_assoc]
      _ = machine.events ++ reports (trace Machine.handler (.perform action resume) machine) :=
        congrArg (machine.events ++ ·) List.filterMap_append.symm

theorem answer_of_trace {α : Type} {procedure : Procedure α} {step : Step} {rest : List Step}
    (h : trace Machine.handler procedure machine = step :: rest) :
    step.answer = (machine.answer step.action).1 := by
  cases procedure with
  | done value => cases h
  | perform action resume =>
    obtain ⟨rfl, -⟩ := List.cons.inj h
    rfl

end Machine

/-! ## Truthful logs -/

/-- What the log of an installation has to do with what was done. -/
structure Truthful (checkout : Checkout) (config : Config) (steps : List Step)
    (result : Except Error Unit) : Prop where
  /-- Without its errors, the run is its deeds, each between its events, and an ending. -/
  chronicle : heard steps = (deeds steps).flatMap (narrated config) ++ ending result
  /-- What is told of a step comes behind the step. -/
  behind : ∀ before event after, steps = before ++ tell event :: after → isOutcome event = true →
    event ≠ .installed → ∃ step ∈ before, Concludes step event
  removing : (∃ path, .removingFolder path ∈ reports steps) ↔
    ⟨.findDirectory checkout.directory, true⟩ ∈ steps
  remote : (∃ name url, .addedRemote name url ∈ reports steps) ↔
    ⟨.clone checkout.url checkout.branch checkout.directory, CloneOutcome.done⟩ ∈ steps ∧
      ∃ path name url, ⟨.addRemote path name url, Except.ok ()⟩ ∈ steps
  finished : (∃ script, .finished script ∈ reports steps) ↔
    ∃ command, ⟨.launch command, Except.ok (.exited 0)⟩ ∈ steps
  /-- The success of a patch, a replacement or a creation is told exactly if there is one. -/
  requests : ∀ method collection, method ≠ "GET" →
    ((∃ event ∈ reports steps, TellsOf event method collection) ↔
      ∃ exchange ∈ exchanges steps, exchange.request.method = method ∧
        exchange.request.collection = collection ∧ exchange.fault? = none)
  /-- The secret is not told of twice, neither as a new one nor as an updated one. -/
  secret : secretsTold steps ≤ 1
  installed : .installed ∈ reports steps ↔ result = .ok ()
  last : ∀ before after, steps = before ++ tell .installed :: after → after = []

/-- Whatever the answers are, the log of an installation is truthful, and on a machine these are the
events that the machine shows, with a removal exactly if there is a directory at the path. -/
theorem runFrom_truthful (checkout : Checkout) (config : Config) :
    (∀ steps result, Yields (runFrom checkout config).run steps result →
      Truthful checkout config steps result) ∧
    ∀ machine : Machine, ∃ steps,
      Yields (runFrom checkout config).run steps (machine.run (runFrom checkout config).run).1 ∧
      (machine.run (runFrom checkout config).run).2.events = machine.events ++ reports steps ∧
      ((∃ path, .removingFolder path ∈ reports steps) ↔
        machine.disk.isDirectory machine.here checkout.directory = true) := by
  refine ⟨fun steps result h => ?_, fun machine => ?_⟩
  · refine ⟨heard_eq h, ?_, removing_iff h, remote_iff h, finished_iff h,
      fun method collection => request_iff h, secretsTold_le h, installed_iff h,
      fun before after => eq_nil_of_installed h⟩
    intro before event after hsteps hevent hne
    exact concluded_before h hsteps hevent fun hending => hne (mem_ending_iff.1 hending).1
  · have h := yields_trace Machine.handler (runFrom checkout config).run machine
    refine ⟨_, h, events_run machine _, (removing_iff h).trans ?_⟩
    obtain ⟨found, rest, hsteps, haway⟩ := find_of_yields h
    have hfound : found = machine.disk.isDirectory machine.here checkout.directory :=
      answer_of_trace machine hsteps
    rw [hsteps, ← hfound]
    constructor
    · intro hmem
      rcases List.mem_cons.1 hmem with heq | hrest
      · cases heq
        rfl
      · exact absurd rfl (haway _ hrest _)
    · rintro rfl
      exact List.mem_cons_self

/-- An installation whose first request fails tells of nothing behind the script. -/
theorem runFrom_truthful_unavailable :
    Truthful (.ofConfig plainConfig) plainConfig unavailableSteps
      (.error (.namespaceLookup QuaySecret.secretNamespace (.service "unavailable"))) :=
  (runFrom_truthful (.ofConfig plainConfig) plainConfig).1 _ _ yields_unavailable

end PreviewInstaller.Install
