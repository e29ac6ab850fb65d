import PreviewInstaller.Proofs.Cluster.World
import PreviewInstaller.Proofs.QuaySecret.Move

set_option autoImplicit false

/-! # Convergence of provisions

A provision that has the server for itself succeeds, whatever the server keeps: the namespace exists
afterwards, the secret holds the docker configuration and is otherwise as it was, and nothing else
is touched. So of two provisions after each other only the second one is left to be seen. -/

namespace PreviewInstaller.QuaySecret

open Cluster

variable (server : Server) {dockerConfig : List UInt8}

/-! ## Runs of phases -/

theorem run_rest_of_request (phase : Phase) (request : Request)
    (h : phase.request? dockerConfig = some request) (world : World) :
    ∃ next store wrote, Move server dockerConfig world.store.served world.store.objects phase next
        store.objects wrote ∧
      World.run server (phase.rest dockerConfig) world =
        World.run server (next.rest dockerConfig) { world with store } := by
  have hmove := move_serve server world.store phase request h
  refine ⟨_, _, _, hmove, ?_⟩
  rw [Phase.rest_of_request phase request h]
  rfl

theorem run_rest_of_report (phase next : Phase) (event : Event)
    (h : phase.report? = some (event, next)) (world : World) :
    World.run server (phase.rest dockerConfig) world =
      World.run server (next.rest dockerConfig)
        { world with machine := world.machine.record [.reported event] } := by
  rw [Phase.rest_of_report phase next event h]
  rfl

/-- The secret that a provision wants to be kept, given the one that is. -/
def provisionedSecret (dockerConfig : List UInt8) : Option Secret → Secret
  | none => createdSecret dockerConfig
  | some old => updatedSecret old dockerConfig

/-- A phase that only has to report ends with what was stored. -/
theorem run_stored (phase : Phase) (event : Event) (stored : Secret)
    (h : phase.report? = some (event, .ended (.ok stored))) (world : World) :
    ∃ after, World.run server (phase.rest dockerConfig) world = (.ok stored, after) ∧
      after.store = world.store :=
  ⟨_, run_rest_of_report server phase _ event h world, rfl⟩

/-- Where the namespace exists, the secret is stored. -/
theorem run_findSecret (dockerConfig : List UInt8) (world : World)
    (h : (keptNamespace world.store.objects).isSome) :
    ∃ stored count after,
      World.run server (Phase.findSecret.rest dockerConfig) world = (.ok stored, after) ∧
      stored = server.fill count secrets (keptSecret world.store.objects)
        (provisionedSecret dockerConfig (keptSecret world.store.objects)) ∧
      after.store.objects = world.store.objects.put secrets secretName stored := by
  obtain ⟨next, store, _, hmove, hrun⟩ := run_rest_of_request server .findSecret _ rfl world
  rw [hrun]
  generalize hobjects : store.objects = objects at hmove
  cases hmove with
  | secretFound hfound =>
    obtain ⟨next, store', _, hmove, hrun⟩ :=
      run_rest_of_request server (.updateSecret _) _ rfl { world with store }
    rw [hrun]
    simp only [hobjects] at hmove
    generalize hobjects' : store'.objects = objects' at hmove
    cases hmove with
    | @secretUpdated _ old stored hold _ hstored =>
      obtain ⟨after, hafter, hstore⟩ :=
        run_stored server (.reportUpdated stored) _ stored rfl { world with store := store' }
      obtain rfl := Option.some.inj (hold.symm.trans hfound)
      refine ⟨stored, store.served, after, hafter, ?_, by rw [hstore, hobjects']⟩
      rw [hfound]
      exact hstored
    | secretStale fault hstale =>
      have hfresh := hstale _ hfound
      rw [isStale_updatedSecret] at hfresh
      cases hfresh
  | secretMissing hmissing =>
    obtain ⟨next, store', _, hmove, hrun⟩ :=
      run_rest_of_request server .createSecret _ rfl { world with store }
    rw [hrun]
    simp only [hobjects] at hmove
    generalize hobjects' : store'.objects = objects' at hmove
    cases hmove with
    | @secretCreated stored _ _ hstored =>
      obtain ⟨after, hafter, hstore⟩ :=
        run_stored server (.reportCreated stored) _ stored rfl { world with store := store' }
      refine ⟨stored, store.served, after, hafter, ?_, by rw [hstore, hobjects']⟩
      rw [hmissing]
      exact hstored
    | secretConflict fault hconflict =>
      have hsome := hconflict h
      rw [hmissing] at hsome
      cases hsome

/-- The objects with the namespace, which is only created where it is missing. -/
def withNamespace (count : Nat) (objects : Objects) : Objects :=
  match keptNamespace objects with
  | some _ => objects
  | none =>
    objects.put .namespaces secretNamespace (server.fill count .namespaces none freshNamespace)

theorem withNamespace_of_some {count : Nat} {objects : Objects} {kept : Namespace}
    (h : keptNamespace objects = some kept) : withNamespace server count objects = objects := by
  rw [withNamespace, h]

theorem withNamespace_of_none (count : Nat) {objects : Objects}
    (h : keptNamespace objects = none) :
    withNamespace server count objects = objects.put .namespaces secretNamespace
      (server.fill count .namespaces none freshNamespace) := by
  rw [withNamespace, h]

theorem isSome_keptNamespace_withNamespace (count : Nat) (objects : Objects) :
    (keptNamespace (withNamespace server count objects)).isSome := by
  cases h : keptNamespace objects with
  | some kept => rw [withNamespace_of_some server h, h]; rfl
  | none => rw [withNamespace_of_none server _ h, keptNamespace, Objects.put_self]; rfl

theorem withNamespace_of_ne {count : Nat} {objects : Objects} {collection : Collection}
    {name : String} (h : (collection, name) ≠ (.namespaces, secretNamespace)) :
    withNamespace server count objects collection name = objects collection name := by
  cases hkept : keptNamespace objects with
  | some kept => rw [withNamespace_of_some server hkept]
  | none => rw [withNamespace_of_none server _ hkept, Objects.put_of_ne h]

/-- A provision stores the secret beside the namespace. -/
theorem run_provision {token : String} (htoken : decodeToken token = .ok dockerConfig)
    (world : World) :
    ∃ stored count count' after,
      World.run server (provision token).run world = (.ok stored, after) ∧
      stored = server.fill count' secrets (keptSecret world.store.objects)
        (provisionedSecret dockerConfig (keptSecret world.store.objects)) ∧
      after.store.objects =
        (withNamespace server count world.store.objects).put secrets secretName stored := by
  rw [Phase.run_provision htoken]
  obtain ⟨next, store, _, hmove, hrun⟩ := run_rest_of_request server .findNamespace _ rfl world
  rw [hrun]
  generalize hobjects : store.objects = objects at hmove
  cases hmove with
  | namespaceFound hfound =>
    obtain ⟨kept, hkept⟩ := Option.isSome_iff_exists.1 hfound
    obtain ⟨stored, count, after, hafter, hstored, hput⟩ :=
      run_findSecret server dockerConfig { world with store }
        (by simpa only [hobjects] using hfound)
    refine ⟨stored, 0, count, after, hafter, ?_, ?_⟩
    · simpa only [hobjects] using hstored
    · rw [hput, withNamespace_of_some server hkept]
      simp only [hobjects]
  | namespaceMissing hmissing =>
    obtain ⟨next, store', _, hmove, hrun⟩ :=
      run_rest_of_request server .createNamespace _ rfl { world with store }
    rw [hrun]
    simp only [hobjects] at hmove
    generalize hobjects' : store'.objects = objects' at hmove
    cases hmove with
    | namespaceConflict hfound =>
      rw [hmissing] at hfound
      cases hfound
    | namespaceCreated _ =>
      rw [run_rest_of_report server .reportNamespace .findSecret _ rfl]
      have hwith := withNamespace_of_none server store.served hmissing
      obtain ⟨stored, count, after, hafter, hstored, hput⟩ :=
        run_findSecret server dockerConfig
          { machine := world.machine.record [.reported (.createdNamespace secretNamespace)]
            store := store' }
          (by
            simp only [hobjects', ← hwith]
            exact isSome_keptNamespace_withNamespace server _ _)
      refine ⟨stored, store.served, count, after, hafter, ?_, ?_⟩
      · simpa only [hobjects', keptSecret_put_namespace] using hstored
      · rw [hput, hwith]
        simp only [hobjects']

/-! ## Convergence -/

/-- What a provision makes of the objects that are kept. -/
structure Provisioned (dockerConfig : List UInt8) (before after : Objects) : Prop where
  namespace_exists : (keptNamespace after).isSome
  namespace_kept : ∀ kept, keptNamespace before = some kept → keptNamespace after = some kept
  data : ∃ secret, keptSecret after = some secret ∧
    secret.data = some (dockerConfigData dockerConfig) ∧ secret.stringData = none
  /-- A secret that was there keeps everything but its data, and gets another version. -/
  secret_kept : ∀ old, keptSecret before = some old → ∃ new version,
    keptSecret after = some new ∧ new.type = old.type ∧ new.immutable = old.immutable ∧
      new.metadata = { old.metadata with resourceVersion := version }
  others_kept : ∀ collection name, (collection, name) ≠ (.namespaces, secretNamespace) →
    (collection, name) ≠ (secrets, secretName) → after collection name = before collection name

variable {server}

/-- A namespace is created only once. -/
theorem sameUpToVersions_withNamespace (hserver : server.OnlyVersions) (count count' : Nat)
    (objects : Objects) :
    (withNamespace server count objects).SameUpToVersions
      (withNamespace server count' objects) := by
  cases hkept : keptNamespace objects with
  | some kept =>
    rw [withNamespace_of_some server hkept, withNamespace_of_some server hkept]
    exact .refl objects
  | none =>
    rw [withNamespace_of_none server count hkept, withNamespace_of_none server count' hkept]
    refine (Objects.SameUpToVersions.refl objects).put ?_
    rw [hserver.unversioned_fill, hserver.unversioned_fill]

/-- To provide a secret that was provided before is to provide the secret that was there first. -/
theorem unversioned_provisionedSecret (firstConfig secondConfig : List UInt8)
    (kept : Option Secret) (version : Option String) :
    secrets.unversioned (provisionedSecret secondConfig
        (some (secrets.withVersion (provisionedSecret firstConfig kept) version))) =
      secrets.unversioned (provisionedSecret secondConfig kept) := by
  cases kept <;> rfl

/-- A provision succeeds and changes no more than it has to. -/
theorem provisioned_run (hserver : server.OnlyVersions) {token : String}
    (htoken : decodeToken token = .ok dockerConfig) (world : World) :
    ∃ stored after, World.run server (provision token).run world = (.ok stored, after) ∧
      Provisioned dockerConfig world.store.objects after.store.objects := by
  obtain ⟨stored, count, count', after, hrun, hstored, hobjects⟩ :=
    run_provision server htoken world
  obtain ⟨version, hversion⟩ := hserver count' secrets (keptSecret world.store.objects)
    (provisionedSecret dockerConfig (keptSecret world.store.objects))
  have hkept : keptSecret after.store.objects = some stored := by
    rw [hobjects, keptSecret, Objects.put_self]
  have hnamespace : keptNamespace after.store.objects =
      keptNamespace (withNamespace server count world.store.objects) := by
    rw [hobjects, keptNamespace_put_secret]
  rw [hstored, hversion] at hkept
  refine ⟨stored, after, hrun, ?_, ?_, ⟨_, hkept, ?_⟩, ?_, ?_⟩
  · rw [hnamespace]
    exact isSome_keptNamespace_withNamespace server _ _
  · intro kept hbefore
    rw [hnamespace, withNamespace_of_some server hbefore]
    exact hbefore
  · cases keptSecret world.store.objects <;> exact ⟨rfl, rfl⟩
  · intro old hbefore
    rw [hbefore] at hkept
    exact ⟨_, version, hkept, rfl, rfl, rfl⟩
  · intro collection name hnamespace hsecret
    rw [hobjects, Objects.put_of_ne hsecret, withNamespace_of_ne server hnamespace]

/-- After a provision another one leaves what it would have left without the first. -/
theorem sameUpToVersions_run (hserver : server.OnlyVersions) {first second : String}
    {firstConfig secondConfig : List UInt8} (hfirst : decodeToken first = .ok firstConfig)
    (hsecond : decodeToken second = .ok secondConfig) (world : World) :
    (World.run server (provision second).run
        (World.run server (provision first).run world).2).2.store.objects.SameUpToVersions
      (World.run server (provision second).run world).2.store.objects := by
  obtain ⟨stored, count, count', between, hrun, hstored, hobjects⟩ :=
    run_provision server hfirst world
  obtain ⟨version, hversion⟩ := hserver count' secrets (keptSecret world.store.objects)
    (provisionedSecret firstConfig (keptSecret world.store.objects))
  rw [hversion] at hstored
  have hsecret : keptSecret between.store.objects = some stored := by
    rw [hobjects, keptSecret_put]
  obtain ⟨kept, hnamespace⟩ : ∃ kept, keptNamespace between.store.objects = some kept := by
    rw [hobjects, keptNamespace_put_secret]
    exact Option.isSome_iff_exists.1 (isSome_keptNamespace_withNamespace server _ _)
  obtain ⟨storedAfter, _, _, after, hrunAfter, hstoredAfter, hafter⟩ :=
    run_provision server hsecond between
  obtain ⟨storedAlone, _, _, alone, hrunAlone, hstoredAlone, halone⟩ :=
    run_provision server hsecond world
  -- the second provision finds the namespace, and its secret takes the place of the first one
  rw [withNamespace_of_some server hnamespace, hobjects, Objects.put_put] at hafter
  rw [hrun, hrunAfter, hrunAlone, hafter, halone]
  refine (sameUpToVersions_withNamespace hserver _ _ _).put ?_
  rw [hstoredAfter, hstoredAlone, hserver.unversioned_fill, hserver.unversioned_fill, hsecret,
    hstored, unversioned_provisionedSecret]

/-- A provision that is accepted succeeds, whatever the server keeps, and changes no more than it
has to; and nothing is left of it after another one. -/
theorem provision_converges (hserver : server.OnlyVersions) {first second : String}
    {firstConfig secondConfig : List UInt8} (hfirst : decodeToken first = .ok firstConfig)
    (hsecond : decodeToken second = .ok secondConfig) (world : World) :
    (∃ stored after, World.run server (provision first).run world = (.ok stored, after) ∧
        Provisioned firstConfig world.store.objects after.store.objects) ∧
      (World.run server (provision second).run
          (World.run server (provision first).run world).2).2.store.objects.SameUpToVersions
        (World.run server (provision second).run world).2.store.objects :=
  ⟨provisioned_run hserver hfirst world, sameUpToVersions_run hserver hfirst hsecond world⟩

/-- Two provisions with a server that keeps nothing before them. -/
theorem provision_converges_empty :
    decodeToken "YWJj" = .ok [97, 98, 99] ∧ decodeToken "ZGVm" = .ok [100, 101, 102] ∧
      (Server.numbering true).OnlyVersions ∧
      let world : World := ⟨bareMachine, Store.empty⟩
      (∃ stored after,
        World.run (.numbering true) (provision "YWJj").run world = (.ok stored, after) ∧
          Provisioned [97, 98, 99] world.store.objects after.store.objects) ∧
        (World.run (.numbering true) (provision "ZGVm").run
            (World.run (.numbering true) (provision "YWJj").run world).2).2.store.objects.SameUpToVersions
          (World.run (.numbering true) (provision "ZGVm").run world).2.store.objects := by
  have hfirst : decodeToken "YWJj" = .ok [97, 98, 99] := by decide
  have hsecond : decodeToken "ZGVm" = .ok [100, 101, 102] := by decide
  have hserver := Server.onlyVersions_numbering true
  exact ⟨hfirst, hsecond, hserver, provision_converges hserver hfirst hsecond _⟩

end PreviewInstaller.QuaySecret
