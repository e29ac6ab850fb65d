import PreviewInstaller.Proofs.Installation.Outcome

set_option autoImplicit false

/-! # Attempts

An attempt is an installation that anything can go wrong with: the directory can be left in any
state, requests can fail before and after the server did something about them, and the run can stop
at any point. Whatever happens, the disk is as it was or one of those that work on the directory
leaves, and every object is as it was or as an installation makes it. -/

namespace PreviewInstaller.Install

open Procedure Cluster OauthRedirect QuaySecret

/-! ## What can happen -/

/-- The worlds in which paths and urls mean the same and programs inherit the same variables. -/
structure SameSetting (first second : World) : Prop where
  workingDirectory : first.machine.workingDirectory = second.machine.workingDirectory
  aliases : first.machine.aliases = second.machine.aliases
  environment : first.machine.environment = second.machine.environment

theorem SameSetting.refl (world : World) : SameSetting world world :=
  ⟨rfl, rfl, rfl⟩

theorem SameSetting.trans {first second third : World} (h : SameSetting first second)
    (h' : SameSetting second third) : SameSetting first third :=
  ⟨h.workingDirectory.trans h'.workingDirectory, h.aliases.trans h'.aliases,
    h.environment.trans h'.environment⟩

/-- An action that nothing is asked of the cluster in. -/
def IsOffline (action : Action) : Prop :=
  ∀ request, action ≠ .send request

/-- What an action can be answered with when requests can fail, and the objects after it. -/
inductive Exchanged (server : Server) :
    (action : Action) → action.Answer → Objects → Objects → Prop where
  | offline {action : Action} (h : IsOffline action) (answer : action.Answer)
      (objects : Objects) : Exchanged server action answer objects objects
  | served (request : Request) (store : Store) :
      Exchanged server (.send request) (server.serve store request).1 store.objects
        (server.serve store request).2.objects
  /-- The server does not get the request, or does nothing about it. -/
  | unserved (request : Request) (reply : Reply)
      (h : ∃ fault, reply.decode request.collection.codec = .error fault) (objects : Objects) :
      Exchanged server (.send request) reply objects objects
  /-- The server does what is asked for, and the reply gets lost or mangled. -/
  | unanswered (request : Request) (reply : Reply)
      (h : ∃ fault, reply.decode request.collection.codec = .error fault) (store : Store) :
      Exchanged server (.send request) reply store.objects (server.serve store request).2.objects

theorem Exchanged.of_offline {server : Server} {action : Action} {answer : action.Answer}
    {objects after : Objects} (h : Exchanged server action answer objects after)
    (haction : IsOffline action) : after = objects := by
  cases h with
  | offline => rfl
  | served request => exact absurd rfl (haction request)
  | unserved request => exact absurd rfl (haction request)
  | unanswered request => exact absurd rfl (haction request)

/-- The server gets a request or it does not, and only the server tells an object. -/
theorem Exchanged.of_send {server : Server} {request : Request} {reply : Reply}
    {objects after : Objects} (h : Exchanged server (.send request) reply objects after) :
    ((∃ count, after = (server.serve ⟨objects, count⟩ request).2.objects) ∨ after = objects) ∧
      ∀ object, reply.decode request.collection.codec = .ok object →
        ∃ count, reply = (server.serve ⟨objects, count⟩ request).1 := by
  cases h with
  | offline h => exact absurd rfl (h request)
  | served _ store => exact ⟨.inl ⟨store.served, rfl⟩, fun _ _ => ⟨store.served, rfl⟩⟩
  | unserved _ _ h =>
    obtain ⟨fault, hfault⟩ := h
    exact ⟨.inr rfl, fun object hdecode => by rw [hfault] at hdecode; cases hdecode⟩
  | unanswered _ _ h store =>
    obtain ⟨fault, hfault⟩ := h
    exact ⟨.inl ⟨store.served, rfl⟩, fun object hdecode => by rw [hfault] at hdecode; cases hdecode⟩

/-- What an action of an attempt can be answered with, and the world after it. -/
structure Attempted (leaves : Disk → Prop) (server : Server) (action : Action)
    (answer : action.Answer) (world after : World) : Prop where
  setting : SameSetting after world
  /-- Only the actions that change files do, and there are disks that they can leave. -/
  files : after.machine.disk = world.machine.disk ∨
    changesFiles action = true ∧ leaves after.machine.disk
  objects : Exchanged server action answer world.store.objects after.store.objects

/-- What an attempt leaves of the world that it started in. -/
structure Recoverable (leaves : Disk → Prop) (url : String) (dockerConfig : List UInt8)
    (initial world : World) : Prop where
  setting : SameSetting world initial
  files : world.machine.disk = initial.machine.disk ∨ leaves world.machine.disk
  objects : Between url dockerConfig (essences initial.store.objects)
    (essences world.store.objects)

variable {leaves : Disk → Prop} {server : Server} {url : String} {dockerConfig : List UInt8}
  {initial world after : World}

/-! ## Requests of an attempt -/

/-- A request that the server gets leaves objects in between, if what it writes is what an
installation makes. -/
theorem between_serve {store : Store} {request : Request} {before : Objects}
    (h : Between url dockerConfig before (essences store.objects))
    (hwrite : ∀ object name, server.judge store request = .ok (object, some name) →
      settled url dockerConfig before request.collection name =
        some (essence request.collection object)) :
    Between url dockerConfig before (essences (server.serve store request).2.objects) := by
  cases hjudge : server.judge store request with
  | error code =>
    obtain ⟨-, hobjects, -⟩ := Server.serve_refused Namespace.codec hjudge
    rwa [hobjects]
  | ok verdict =>
    obtain ⟨object, _ | name⟩ := verdict
    · obtain ⟨-, hobjects, -⟩ := Server.serve_read hjudge
      rwa [hobjects]
    · obtain ⟨-, hobjects, -⟩ := Server.serve_write hjudge
      rw [hobjects, essences_put]
      exact h.put (hwrite object name hjudge)

theorem Recoverable.of_attempted {action : Action} {answer : action.Answer}
    (h : Recoverable leaves url dockerConfig initial world)
    (hattempted : Attempted leaves server action answer world after)
    (hobjects : Between url dockerConfig (essences initial.store.objects)
      (essences after.store.objects)) :
    Recoverable leaves url dockerConfig initial after := by
  refine ⟨hattempted.setting.trans h.setting, ?_, hobjects⟩
  rcases hattempted.files with hsame | ⟨-, hleaves⟩
  · rw [hsame]
    exact h.files
  · exact .inr hleaves

/-- An action without a request is recoverable. -/
theorem Recoverable.of_offline {action : Action} {answer : action.Answer}
    (haction : IsOffline action)
    (h : Recoverable leaves url dockerConfig initial world)
    (hattempted : Attempted leaves server action answer world after) :
    Recoverable leaves url dockerConfig initial after := by
  refine h.of_attempted hattempted ?_
  rw [hattempted.objects.of_offline haction]
  exact h.objects

/-- However the actions of a task are answered, the world stays recoverable, and a value that the
task ends in has the property. -/
abbrev Absorbs (leaves : Disk → Prop) (server : Server) (url : String)
    (dockerConfig : List UInt8) (initial : World) {ε α : Type} (property : α → Prop)
    (task : Task ε α) : Prop :=
  Keeps (Attempted leaves server) (Recoverable leaves url dockerConfig initial)
    (Task.OnOk property) task.run

/-- A call keeps the world recoverable if the server does, and ends in no object but the one that
the server tells. -/
theorem absorbs_call (request : Request) {property : request.collection.Object → Prop}
    (hserve : ∀ store : Store,
      Between url dockerConfig (essences initial.store.objects) (essences store.objects) →
        Between url dockerConfig (essences initial.store.objects)
            (essences (server.serve store request).2.objects) ∧
          ∀ object,
            (server.serve store request).1.decode request.collection.codec = .ok object →
              property object) :
    Absorbs leaves server url dockerConfig initial property
      (call request.collection.codec request) := by
  unfold call
  split
  · exact .done trivial
  refine .perform (fun reply world after hworld hattempted => ?_)
    fun reply world after hworld hattempted => Task.keeps_orThrow _ ?_
  · refine hworld.of_attempted hattempted ?_
    obtain ⟨count, hafter⟩ | hafter := hattempted.objects.of_send.1
    · rw [hafter]
      exact (hserve ⟨world.store.objects, count⟩ hworld.objects).1
    · rw [hafter]
      exact hworld.objects
  · cases hdecode : reply.decode request.collection.codec with
    | error fault => trivial
    | ok object =>
      obtain ⟨count, hreply⟩ := hattempted.objects.of_send.2 object hdecode
      exact (hserve ⟨world.store.objects, count⟩ hworld.objects).2 object (hreply ▸ hdecode)

/-- An object is told as it was or as an installation makes it. -/
def Genuine (url : String) (dockerConfig : List UInt8) (before : Objects) (collection : Collection)
    (name : String) (object : collection.Object) : Prop :=
  some (essence collection object) = before collection name ∨
    some (essence collection object) = settled url dockerConfig before collection name

theorem Between.genuine {before : Objects} {store : Store} {collection : Collection} {name : String}
    {object : collection.Object}
    (h : Between url dockerConfig before (essences store.objects))
    (hkept : store.objects collection name = some object) :
    Genuine url dockerConfig before collection name object := by
  have hessence : essences store.objects collection name = some (essence collection object) :=
    congrArg (Option.map (essence collection)) hkept
  have hcases := h collection name
  rwa [hessence] at hcases

theorem absorbs_get (collection : Collection) (name : String) :
    Absorbs leaves server url dockerConfig initial
      (Genuine url dockerConfig (essences initial.store.objects) collection name)
      (get collection.codec collection name) := by
  refine absorbs_call (.get collection name) fun store hbetween => ?_
  cases hkept : store.objects collection name with
  | none =>
    have hjudge := Server.judge_get_none server hkept
    obtain ⟨⟨fault, hdecode, -⟩, hobjects, -⟩ := Server.serve_refused collection.codec hjudge
    refine ⟨hobjects ▸ hbetween, fun object htold => ?_⟩
    cases hdecode.symm.trans htold
  | some kept =>
    have hjudge := Server.judge_get_some server hkept
    obtain ⟨hdecode, hobjects, -⟩ := Server.serve_read hjudge
    refine ⟨hobjects ▸ hbetween, fun object htold => ?_⟩
    obtain rfl : kept = object := Except.ok.inj (hdecode.symm.trans htold)
    exact hbetween.genuine hkept

theorem absorbs_create (collection : Collection) (object : collection.Object) {name : String}
    (hname : (collection.metadata object).name = some name)
    (hsome : settled url dockerConfig (essences initial.store.objects) collection name ≠ none)
    (hobject : essences initial.store.objects collection name = none →
      settled url dockerConfig (essences initial.store.objects) collection name =
        some (essence collection object)) :
    Absorbs leaves server url dockerConfig initial (fun _ => True)
      (create collection.codec collection object) := by
  refine absorbs_call (.create collection (collection.codec.write object)) fun store hbetween =>
    ⟨between_serve hbetween fun stored name' hjudge => ?_, fun _ _ => trivial⟩
  obtain ⟨rfl, rfl, hnone⟩ := Server.judge_create_ok server hname hjudge
  have hmissing : essences store.objects collection name' = none := by
    rw [essences, hnone]
    rfl
  refine Eq.trans ?_ (congrArg some (essence_fill _ _ _ _ _).symm)
  rcases hbetween collection name' with hsame | hmade
  · exact hobject (hsame.symm.trans hmissing)
  · exact absurd (hmade.symm.trans hmissing) hsome

theorem absorbs_replace (collection : Collection) (name : String) (object : collection.Object)
    (hobject : settled url dockerConfig (essences initial.store.objects) collection name =
      some (essence collection object)) :
    Absorbs leaves server url dockerConfig initial (fun _ => True)
      (replace collection.codec collection name object) := by
  refine absorbs_call (.replace collection name (collection.codec.write object))
    fun store hbetween => ⟨between_serve hbetween fun stored name' hjudge => ?_,
      fun _ _ => trivial⟩
  obtain ⟨rfl, old, rfl⟩ := Server.judge_replace_ok server hjudge
  exact hobject.trans (congrArg some (essence_fill _ _ _ _ _).symm)

/-! ## The parts of an attempt -/

theorem absorbs_act {ε : Type} {action : Action} (h : IsOffline action) :
    Absorbs leaves server url dockerConfig initial (fun _ => True)
      (Task.act action : Task ε action.Answer) :=
  .perform (fun _ _ _ hworld hattempted => hworld.of_offline h hattempted)
    fun _ _ _ _ _ => .done trivial

theorem isOffline_report (event : Event) : IsOffline (.report event) := by
  rintro _ ⟨⟩

theorem absorbs_report {ε : Type} (event : Event) :
    Absorbs leaves server url dockerConfig initial (fun _ => True)
      (Task.report event : Task ε Unit) :=
  absorbs_act (isOffline_report event)

/-- A change that does not matter the second time makes the same of what is kept and of what it
has made of it. -/
theorem eq_some_of_map {α : Type} {change : α → α} {kept made : Option α} {value : α}
    (hchange : ∀ value, change (change value) = change value) (hmade : made = kept.map change)
    (hvalue : some value = kept ∨ some value = made) : made = some (change value) := by
  rcases hvalue with rfl | rfl
  · exact hmade
  · have htwice := congrArg (Option.map change) hmade
    rw [map_map_self hchange, ← hmade] at htwice
    exact htwice.symm

/-- The patch makes the configuration map what an installation makes it, and only succeeds where
there is one. -/
theorem absorbs_patchConfigMap (hurl : url ≠ "") :
    Absorbs leaves server url dockerConfig initial
      (fun _ => keptConfigMap (essences initial.store.objects) ≠ none) (patchConfigMap url) := by
  have hsettled : settled url dockerConfig (essences initial.store.objects) configMaps
      configMapName.name =
        (keptConfigMap (essences initial.store.objects)).map (redirected url) :=
    settled_configMap.trans (if_neg hurl)
  have hpatch : Absorbs leaves server url dockerConfig initial
      (fun _ => keptConfigMap (essences initial.store.objects) ≠ none)
      (mergePatch ConfigMap.codec configMaps configMapName.name (redirectPatch url)) := by
    refine absorbs_call (.mergePatch configMaps configMapName.name (redirectPatch url))
      fun store hbetween => ⟨between_serve hbetween fun stored name hjudge => ?_,
        fun object htold hnone => ?_⟩
    · obtain ⟨rfl, old, patched, hkept, hread, rfl⟩ := Server.judge_mergePatch_ok server hjudge
      obtain rfl : redirected url old = patched :=
        Option.some.inj ((read_merge_redirectPatch url old).symm.trans hread)
      have hmade := eq_some_of_map (redirected_redirected url url) hsettled (hbetween.genuine hkept)
      have hfilled : essence configMaps
          (server.fill store.served configMaps (some old) (redirected url old)) =
            redirected url (essence configMaps old) := by
        rw [essence_fill, essence_redirected]
      exact hmade.trans (congrArg some hfilled.symm)
    · have hmissing : keptConfigMap (essences store.objects) = none :=
        hbetween.configMap_eq_none.2 hnone
      have hkept : keptConfigMap store.objects = none := Option.map_eq_none_iff.1 hmissing
      have hjudge := Server.judge_mergePatch_missing server hkept (redirectPatch url)
      obtain ⟨⟨fault, hdecode, -⟩, -, -⟩ := Server.serve_refused ConfigMap.codec hjudge
      cases hdecode.symm.trans htold
  unfold patchConfigMap
  exact Task.keeps_bind hpatch fun _ hfound =>
    Task.keeps_bind (absorbs_report _) fun _ _ => .done hfound

theorem isNamed_essence {deployment : Deployment} :
    IsNamed (essence deployments deployment) ↔ IsNamed deployment := Iff.rfl

theorem keepsNamed_essences {objects : Objects} :
    KeepsNamed (essences objects) ↔ KeepsNamed objects := by
  constructor
  · intro h deployment hkept
    exact isNamed_essence.1 (h _ (congrArg (Option.map (essence deployments)) hkept))
  · intro h deployment hdeployment
    obtain ⟨kept, hkept, rfl⟩ := Option.map_eq_some_iff.1 hdeployment
    exact isNamed_essence.2 (h kept hkept)

/-- A deployment as it was told is named, if it was named at the start. -/
theorem Genuine.isNamed {before : Objects} {deployment : Deployment}
    (h : Genuine url dockerConfig before deployments deploymentName.name deployment)
    (hnamed : KeepsNamed before) :
    IsNamed deployment := by
  have hcases : some (essence deployments deployment) = keptDeployment before ∨
      some (essence deployments deployment) =
        keptDeployment (settled url dockerConfig before) := h
  rw [← isNamed_essence]
  rw [settled_deployment] at hcases
  split at hcases
  · exact hnamed _ (hcases.elim Eq.symm Eq.symm)
  · rcases hcases with hsame | hmade
    · exact hnamed _ hsame.symm
    · obtain ⟨kept, hkept, hscaled⟩ := Option.map_eq_some_iff.1 hmade.symm
      have hscaledNamed : IsNamed (scaledDown kept "") := hnamed kept hkept
      rwa [hscaled] at hscaledNamed

theorem absorbs_scaleDown {deployment : Deployment} (hurl : url ≠ "")
    (hconfigMap : keptConfigMap (essences initial.store.objects) ≠ none)
    (hnamed : IsNamed deployment)
    (h : Genuine url dockerConfig (essences initial.store.objects) deployments deploymentName.name
      deployment) :
    Absorbs leaves server url dockerConfig initial (fun _ => True) (scaleDown deployment) := by
  have hsettled : settled url dockerConfig (essences initial.store.objects) deployments
      deploymentName.name =
        (keptDeployment (essences initial.store.objects)).map (scaledDown · "") :=
    settled_deployment.trans (if_neg (not_or.2 ⟨hurl, hconfigMap⟩))
  have hclock : IsOffline .readClock := by rintro _ ⟨⟩
  unfold scaleDown
  refine Task.keeps_bind (absorbs_act hclock) fun now _ => ?_
  have hname : (scaledDown deployment now.rfc3339).metadata.name = some deploymentName.name :=
    hnamed.1
  have hnamespace :
      (scaledDown deployment now.rfc3339).metadata.namespaceName = some serviceNamespace :=
    hnamed.2
  simp only [hname, hnamespace, Option.getD_some]
  refine Task.keeps_bind (absorbs_replace deployments deploymentName.name _ ?_) fun _ _ =>
    Task.keeps_bind (absorbs_report _) fun _ _ => .done trivial
  rw [essence_scaledDown]
  exact eq_some_of_map (scaledDown_scaledDown "" "") hsettled h

theorem absorbs_steps {given : Option String}
    (hnamed : KeepsNamed initial.store.objects) :
    Absorbs leaves server (given.getD "") dockerConfig initial (fun _ => True) (steps given) := by
  rw [steps_eq_dated]
  unfold stepsDated
  generalize given.getD "" = url
  by_cases hurl : url = ""
  · simp only [hurl, if_true]
    exact .done trivial
  simp only [hurl, if_false]
  refine Task.keeps_bind (Task.keeps_mapFault (absorbs_patchConfigMap hurl))
    fun _ hconfigMap => ?_
  refine Task.keeps_bind (Task.keeps_mapFault (absorbs_get deployments deploymentName.name))
    fun deployment hgenuine => ?_
  have hscale : Absorbs leaves server url dockerConfig initial (fun _ => True)
      (scaleDown deployment) :=
    absorbs_scaleDown hurl hconfigMap (hgenuine.isNamed (keepsNamed_essences.2 hnamed)) hgenuine
  exact Task.keeps_bind (Task.keeps_mapFault hscale) fun _ _ => .done trivial

/-- A push is absorbed, and whatever fails in it is reported. -/
theorem absorbs_push {given : Option String}
    (hnamed : KeepsNamed initial.store.objects) :
    Keeps (Attempted leaves server) (Recoverable leaves (given.getD "") dockerConfig initial)
      (fun _ => True) (push given) := by
  refine (absorbs_steps hnamed).bind fun outcome _ => ?_
  cases outcome with
  | ok _ => exact .done trivial
  | error event =>
    exact .perform (fun _ _ _ hworld => hworld.of_offline (isOffline_report event))
      fun _ _ _ _ _ => .done trivial

theorem absorbs_ensureNamespace :
    Absorbs leaves server url dockerConfig initial (fun _ => True)
      (ensureNamespace secretNamespace) := by
  have hsettled : settled url dockerConfig (essences initial.store.objects) .namespaces
      secretNamespace =
        some ((keptNamespace (essences initial.store.objects)).getD freshNamespace) :=
    settled_namespace
  have hcreate : Absorbs leaves server url dockerConfig initial (fun _ => True)
      (create Namespace.codec .namespaces freshNamespace) := by
    refine absorbs_create .namespaces freshNamespace rfl ?_ fun hnone => ?_
    · rw [hsettled]
      exact Option.some_ne_none _
    · rw [hsettled, show keptNamespace (essences initial.store.objects) = none from hnone]
      rfl
  unfold ensureNamespace
  refine Task.keeps_bind (Task.keeps_outcome (absorbs_get .namespaces secretNamespace))
    fun found _ => ?_
  cases found with
  | ok _ => exact .done trivial
  | error fault =>
    dsimp only
    split
    · exact Task.keeps_bind (Task.keeps_mapFault hcreate) fun _ _ => absorbs_report _
    · exact .done trivial

/-- An update of the secret as it was told makes it what an installation makes it. -/
theorem settled_of_genuine {secret : Secret}
    (h : Genuine url dockerConfig (essences initial.store.objects) secrets secretName secret) :
    settled url dockerConfig (essences initial.store.objects) secrets secretName =
      some (essence secrets (updatedSecret secret dockerConfig)) := by
  have hupdated : essence secrets (updatedSecret secret dockerConfig) =
      provisionedSecret dockerConfig (some (essence secrets secret)) := rfl
  have hsettled : settled url dockerConfig (essences initial.store.objects) secrets secretName =
      some (provisionedSecret dockerConfig (keptSecret (essences initial.store.objects))) :=
    settled_secret
  rw [hupdated]
  rcases h with hsame | hmade
  · rw [hsettled, keptSecret, ← hsame]
  · rw [hmade, hsettled, provisionedSecret_provisionedSecret]

theorem absorbs_applySecret :
    Absorbs leaves server url dockerConfig initial (fun _ => True)
      (applySecret secretName secretNamespace dockerConfig) := by
  have hsettled : settled url dockerConfig (essences initial.store.objects) secrets secretName =
      some (provisionedSecret dockerConfig (keptSecret (essences initial.store.objects))) :=
    settled_secret
  have hcreate : Absorbs leaves server url dockerConfig initial (fun _ => True)
      (create Secret.codec secrets (createdSecret dockerConfig)) := by
    refine absorbs_create secrets (createdSecret dockerConfig) rfl ?_ fun hnone => ?_
    · rw [hsettled]
      exact Option.some_ne_none _
    · rw [hsettled, show keptSecret (essences initial.store.objects) = none from hnone]
      rfl
  unfold applySecret
  refine Task.keeps_bind (Task.keeps_outcome (absorbs_get secrets secretName))
    fun found hfound => ?_
  cases found with
  | ok secret =>
    have hreplace : Absorbs leaves server url dockerConfig initial (fun _ => True)
        (replace Secret.codec secrets secretName (updatedSecret secret dockerConfig)) :=
      absorbs_replace secrets secretName _ (settled_of_genuine hfound)
    exact Task.keeps_bind (Task.keeps_mapFault hreplace) fun _ _ =>
      Task.keeps_bind (absorbs_report _) fun _ _ => .done trivial
  | error fault =>
    dsimp only
    split
    · exact Task.keeps_bind (Task.keeps_mapFault hcreate) fun _ _ =>
        Task.keeps_bind (absorbs_report _) fun _ _ => .done trivial
    · exact .done trivial

theorem absorbs_provision {token : String} (htoken : decodeToken token = .ok dockerConfig) :
    Absorbs leaves server url dockerConfig initial (fun _ => True) (provision token) := by
  have hdecoded : Absorbs leaves server url dockerConfig initial (fun found => found = dockerConfig)
      (Task.orThrow id (decodeToken token)) := by
    rw [htoken]
    exact Task.keeps_orThrow id rfl
  unfold provision
  refine Task.keeps_bind hdecoded ?_
  rintro _ rfl
  exact Task.keeps_bind absorbs_ensureNamespace fun _ _ => absorbs_applySecret

/-! ## An attempt -/

theorem performs_prepare (checkout : Checkout) (config : Config) :
    Performs IsOffline (prepare checkout config).run := by
  refine Task.performs_bind ?_ fun _ => Task.performs_bind
    (Task.performs_report (isOffline_report _)) fun _ => ?_
  · refine (performs_sync checkout).mono fun action h request hsend => ?_
    subst hsend
    cases h
  · refine (performs_runPreview _ _).mono fun action h request hsend => ?_
    subst hsend
    cases h

/-- Whatever goes wrong in an installation, the world stays recoverable. -/
theorem keeps_runFrom {checkout : Checkout} {config : Config}
    (htoken : decodeToken config.quayToken = .ok dockerConfig)
    (hnamed : KeepsNamed initial.store.objects) :
    Keeps (Attempted leaves server)
      (Recoverable leaves (config.oauthRedirectProxyUrl.getD "") dockerConfig initial)
      (Task.OnOk fun _ => True) (runFrom checkout config).run := by
  rw [runFrom_eq]
  have hprepare : Absorbs leaves server (config.oauthRedirectProxyUrl.getD "") dockerConfig initial
      (fun _ => True) (prepare checkout config) :=
    (performs_prepare checkout config).keeps
      (fun _ _ _ _ haction hworld => hworld.of_offline haction) (by rintro (_ | _) <;> trivial)
  refine Task.keeps_bind hprepare fun _ _ => ?_
  refine Task.keeps_bind (Task.keeps_lift (absorbs_push hnamed)) fun _ _ => ?_
  exact Task.keeps_bind (absorbs_provision htoken) fun _ _ => absorbs_report _

/-- An installation that stops at any point leaves a recoverable world. -/
theorem recoverable_of_reaches {checkout : Checkout} {config : Config}
    (htoken : decodeToken config.quayToken = .ok dockerConfig)
    (hnamed : KeepsNamed initial.store.objects)
    (h : Reaches (Attempted leaves server) (runFrom checkout config).run initial world) :
    Recoverable leaves (config.oauthRedirectProxyUrl.getD "") dockerConfig initial world :=
  (keeps_runFrom htoken hnamed).of_reaches h ⟨.refl initial, .inl rfl, .refl _⟩

theorem Recoverable.keepsNamed (h : Recoverable leaves url dockerConfig initial world)
    (hnamed : KeepsNamed initial.store.objects) : KeepsNamed world.store.objects :=
  fun _ hkept => (h.objects.genuine hkept).isNamed (keepsNamed_essences.2 hnamed)

end PreviewInstaller.Install
