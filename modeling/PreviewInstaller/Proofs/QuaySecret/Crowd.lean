import PreviewInstaller.Proofs.Cluster.World
import PreviewInstaller.Proofs.QuaySecret.Move

set_option autoImplicit false

/-! # Provisions at the same time

Any number of provisions may run at the same time, each on a machine of its own, with their steps in
any order. None of them holds a lock: a namespace or a secret can come up between the look of one
provision and its write, and two provisions can set out from the same version of the secret.

A provision succeeds exactly if its write of the secret was accepted, and the secret holds what was
written last. To fail, a provision has to be beaten by another one, so not all of them fail. -/

namespace PreviewInstaller.QuaySecret

open Cluster

variable {ι : Type}

/-! ## Stored secrets -/

/-- The server stores the data that it is given, and nothing beside it. -/
theorem data_fill (server : Server) (count : Nat) (old : Option Secret) (secret : Secret) :
    (server.fill count secrets old secret).data = secret.data ∧
      (server.fill count secrets old secret).stringData = secret.stringData := by
  have hcontent := server.content_fill count secrets old secret
  have hdata := congrArg Secret.data hcontent
  have hstringData := congrArg Secret.stringData hcontent
  exact ⟨hdata, hstringData⟩

/-! ## Crowds -/

/-- Provisions that run at the same time, and what the server keeps that they all talk to. -/
structure Crowd (ι : Type) where
  store : Store
  machine : ι → Machine
  /-- What is left to do in each provision. -/
  rest : ι → Procedure (Except Error Secret)
  /-- The provisions whose writes of the secret were accepted, the latest first. -/
  writes : List ι

/-- Whether an action is a write of the secret that the server accepts. -/
def writesSecretBy (server : Server) (store : Store) : Action → Bool
  | .send request => writesSecret server store request
  | _ => false

namespace Crowd

/-- All provisions before their first step. -/
def start (token : ι → String) (machine : ι → Machine) (store : Store) : Crowd ι where
  store
  machine
  rest i := (provision (token i)).run
  writes := []

variable [DecidableEq ι] (server : Server)

/-- One provision takes a step, unless it has ended. -/
def advance (crowd : Crowd ι) (i : ι) : Crowd ι :=
  match crowd.rest i with
  | .done _ => crowd
  | .perform action resume =>
    let (answer, world) := World.answer server ⟨crowd.machine i, crowd.store⟩ action
    { store := world.store
      machine := Function.update crowd.machine i world.machine
      rest := Function.update crowd.rest i (resume answer)
      writes := if writesSecretBy server crowd.store action then i :: crowd.writes
        else crowd.writes }

/-- The provisions take steps in the order of a schedule. -/
def run (crowd : Crowd ι) (schedule : List ι) : Crowd ι :=
  schedule.foldl (advance server) crowd

end Crowd

/-! ## Phases -/

namespace Phase

/-- The write of the secret was accepted. -/
def HasWritten : Phase → Prop
  | reportUpdated _ | reportCreated _ | ended (.ok _) => True
  | _ => False

/-- The namespace was seen, or created. -/
def KnowsNamespace : Phase → Prop
  | reportNamespace | findSecret | updateSecret _ | reportUpdated _ | createSecret
  | reportCreated _ | ended (.ok _) | ended (.error (.secretCreation ..))
  | ended (.error (.secretUpdate ..)) => True
  | _ => False

end Phase

namespace Crowd

variable {config : ι → List UInt8} {crowd : Crowd ι} {phase : ι → Phase}

/-- A provision that failed was beaten by another one: to the namespace, or to the secret. -/
def Beaten (crowd : Crowd ι) (phase : ι → Phase) : Error → Prop
  | .namespaceCreation .. => ∃ i, (phase i).KnowsNamespace
  | .secretCreation .. | .secretUpdate .. => crowd.writes ≠ []
  | _ => False

/-- What holds of a crowd in every state. -/
structure Sound (config : ι → List UInt8) (crowd : Crowd ι) (phase : ι → Phase) : Prop where
  rest_eq : ∀ i, crowd.rest i = (phase i).rest (config i)
  mem_writes_iff : ∀ i, i ∈ crowd.writes ↔ (phase i).HasWritten
  namespace_exists : ∀ i, (phase i).KnowsNamespace → (keptNamespace crowd.store.objects).isSome
  namespace_known : ∀ i, phase i = .createNamespace →
    (keptNamespace crowd.store.objects).isSome → ∃ j, (phase j).KnowsNamespace
  last_write : ∀ i others, crowd.writes = i :: others → ∃ secret,
    keptSecret crowd.store.objects = some secret ∧
      secret.data = some (dockerConfigData (config i)) ∧ secret.stringData = none
  /-- Before the first write every provision still knows the secret as it is. -/
  found_kept : crowd.writes = [] → ∀ i found, phase i = .updateSecret found →
    keptSecret crowd.store.objects = some found
  missing_kept : crowd.writes = [] → ∀ i, phase i = .createSecret →
    keptSecret crowd.store.objects = none
  beaten : ∀ i error, phase i = .ended (.error error) → crowd.Beaten phase error

theorem sound_start {token : ι → String} (htoken : ∀ i, decodeToken (token i) = .ok (config i))
    (machine : ι → Machine) (store : Store) :
    Sound config (start token machine store) fun _ => .findNamespace where
  rest_eq i := Phase.run_provision (htoken i)
  mem_writes_iff _ := iff_of_false (List.not_mem_nil) id
  namespace_exists _ := False.elim
  namespace_known _ := nofun
  last_write _ _ := nofun
  found_kept _ _ _ := nofun
  missing_kept _ _ := nofun
  beaten _ _ := nofun

/-! ## Steps -/

variable [DecidableEq ι] {i : ι} {next : Phase}

theorem knowsNamespace_update (hnext : (phase i).KnowsNamespace → next.KnowsNamespace)
    (h : ∃ j, (phase j).KnowsNamespace) : ∃ j, (Function.update phase i next j).KnowsNamespace := by
  obtain ⟨j, hj⟩ := h
  refine ⟨j, ?_⟩
  by_cases hji : j = i
  · subst hji
    rw [Function.update_self]
    exact hnext hj
  · rwa [Function.update_of_ne hji]

theorem Beaten.update {crowd' : Crowd ι} {error : Error} (h : crowd.Beaten phase error)
    (hnext : (phase i).KnowsNamespace → next.KnowsNamespace)
    (hwrites : crowd.writes ≠ [] → crowd'.writes ≠ []) :
    crowd'.Beaten (Function.update phase i next) error := by
  cases error with
  | namespaceCreation name fault => exact knowsNamespace_update hnext h
  | secretCreation name fault => exact hwrites h
  | secretUpdate name fault => exact hwrites h
  | _ => exact h

theorem rest_update (h : ∀ j, crowd.rest j = (phase j).rest (config j)) (i : ι) (next : Phase)
    (j : ι) : Function.update crowd.rest i (next.rest (config i)) j =
      (Function.update phase i next j).rest (config j) := by
  by_cases hji : j = i
  · subst hji
    rw [Function.update_self, Function.update_self]
  · rw [Function.update_of_ne hji, Function.update_of_ne hji]
    exact h j

/-- What the next phase of a provision has to be like when its step changes nothing that is kept. -/
structure Quiet (crowd : Crowd ι) (phase : ι → Phase) (old next : Phase) : Prop where
  hasWritten_iff : next.HasWritten ↔ old.HasWritten := by exact Iff.rfl
  knowsNamespace : old.KnowsNamespace → next.KnowsNamespace
  namespace_exists : next.KnowsNamespace → (keptNamespace crowd.store.objects).isSome
  namespace_missing : next = .createNamespace →
    keptNamespace crowd.store.objects = none := by rintro ⟨⟩
  found_kept : crowd.writes = [] → ∀ found, next = .updateSecret found →
    keptSecret crowd.store.objects = some found := by rintro - _ ⟨⟩
  missing_kept : crowd.writes = [] → next = .createSecret →
    keptSecret crowd.store.objects = none := by rintro - ⟨⟩
  beaten : ∀ error, next = .ended (.error error) → crowd.Beaten phase error := by rintro _ ⟨⟩

theorem Sound.quiet (h : Sound config crowd phase) {crowd' : Crowd ι}
    (hrest : crowd'.rest = Function.update crowd.rest i (next.rest (config i)))
    (hobjects : crowd'.store.objects = crowd.store.objects)
    (hwrites : crowd'.writes = crowd.writes) (hnext : crowd.Quiet phase (phase i) next) :
    Sound config crowd' (Function.update phase i next) where
  rest_eq j := by rw [hrest, rest_update h.rest_eq]
  mem_writes_iff := by
    rw [hwrites, Function.forall_update_iff phase fun j p => j ∈ crowd.writes ↔ p.HasWritten]
    exact ⟨(h.mem_writes_iff i).trans hnext.hasWritten_iff.symm, fun j _ => h.mem_writes_iff j⟩
  namespace_exists := by
    rw [hobjects, Function.forall_update_iff phase fun _ p => p.KnowsNamespace → _]
    exact ⟨hnext.namespace_exists, fun j _ => h.namespace_exists j⟩
  namespace_known := by
    rw [hobjects, Function.forall_update_iff phase fun _ p => p = .createNamespace → _]
    refine ⟨fun hcreate hsome => ?_, fun j _ hcreate hsome => ?_⟩
    · rw [hnext.namespace_missing hcreate] at hsome
      cases hsome
    · exact knowsNamespace_update hnext.knowsNamespace (h.namespace_known j hcreate hsome)
  last_write := by
    rw [hwrites, hobjects]
    exact h.last_write
  found_kept hnone := by
    rw [hwrites] at hnone
    rw [hobjects, Function.forall_update_iff phase fun _ p => ∀ found,
      p = .updateSecret found → keptSecret crowd.store.objects = some found]
    exact ⟨hnext.found_kept hnone, fun j _ => h.found_kept hnone j⟩
  missing_kept hnone := by
    rw [hwrites] at hnone
    rw [hobjects, Function.forall_update_iff phase fun _ p => p = .createSecret → _]
    exact ⟨hnext.missing_kept hnone, fun j _ => h.missing_kept hnone j⟩
  beaten := by
    have hmono : ∀ error, crowd.Beaten phase error →
        crowd'.Beaten (Function.update phase i next) error :=
      fun _ hbeaten => hbeaten.update hnext.knowsNamespace (by rw [hwrites]; exact id)
    rw [Function.forall_update_iff phase fun _ p => ∀ error,
      p = .ended (.error error) → crowd'.Beaten (Function.update phase i next) error]
    exact ⟨fun error hended => hmono error (hnext.beaten error hended),
      fun j _ error hended => hmono error (h.beaten j error hended)⟩

/-- The namespace is created by one provision, and known to all that look for it from then on. -/
theorem Sound.created (h : Sound config crowd phase) {crowd' : Crowd ι} {stored : Namespace}
    (hphase : phase i = .createNamespace)
    (hrest : crowd'.rest = Function.update crowd.rest i (Phase.reportNamespace.rest (config i)))
    (hobjects : crowd'.store.objects =
      crowd.store.objects.put .namespaces secretNamespace stored)
    (hwrites : crowd'.writes = crowd.writes) :
    Sound config crowd' (Function.update phase i .reportNamespace) where
  rest_eq j := by rw [hrest, rest_update h.rest_eq]
  mem_writes_iff := by
    rw [hwrites, Function.forall_update_iff phase fun j p => j ∈ crowd.writes ↔ p.HasWritten]
    refine ⟨(h.mem_writes_iff i).trans ?_, fun j _ => h.mem_writes_iff j⟩
    rw [hphase]
    exact Iff.rfl
  namespace_exists j _ := by
    rw [hobjects, keptNamespace_put]
    rfl
  namespace_known j _ _ := ⟨i, by rw [Function.update_self]; trivial⟩
  last_write := by
    rw [hwrites, hobjects, keptSecret_put_namespace]
    exact h.last_write
  found_kept hnone := by
    rw [hwrites] at hnone
    rw [hobjects, keptSecret_put_namespace, Function.forall_update_iff phase fun _ p => ∀ found,
      p = .updateSecret found → keptSecret crowd.store.objects = some found]
    exact ⟨fun _ hfound => (by cases hfound), fun j _ => h.found_kept hnone j⟩
  missing_kept hnone := by
    rw [hwrites] at hnone
    rw [hobjects, keptSecret_put_namespace,
      Function.forall_update_iff phase fun _ p => p = .createSecret → _]
    exact ⟨nofun, fun j _ => h.missing_kept hnone j⟩
  beaten := by
    rw [Function.forall_update_iff phase fun _ p => ∀ error,
      p = .ended (.error error) → crowd'.Beaten (Function.update phase i .reportNamespace) error]
    refine ⟨fun _ hended => ?_, fun j _ error hended => ?_⟩
    · cases hended
    · exact (h.beaten j error hended).update (fun _ => trivial) (by rw [hwrites]; exact id)

/-- The secret is written by one provision, which is the last one from then on. -/
theorem Sound.written (h : Sound config crowd phase) {crowd' : Crowd ι} {stored : Secret}
    (hwritten : next.HasWritten) (hknows : next.KnowsNamespace)
    (hnamespace : (keptNamespace crowd.store.objects).isSome)
    (hdata : stored.data = some (dockerConfigData (config i)) ∧ stored.stringData = none)
    (hrest : crowd'.rest = Function.update crowd.rest i (next.rest (config i)))
    (hobjects : crowd'.store.objects = crowd.store.objects.put secrets secretName stored)
    (hwrites : crowd'.writes = i :: crowd.writes) :
    Sound config crowd' (Function.update phase i next) where
  rest_eq j := by rw [hrest, rest_update h.rest_eq]
  mem_writes_iff := by
    rw [hwrites, Function.forall_update_iff phase fun j p => j ∈ i :: crowd.writes ↔ p.HasWritten]
    refine ⟨iff_of_true (List.mem_cons_self ..) hwritten, fun j hji => ?_⟩
    rw [List.mem_cons, or_iff_right hji]
    exact h.mem_writes_iff j
  namespace_exists j _ := by
    rw [hobjects, keptNamespace_put_secret]
    exact hnamespace
  namespace_known j _ _ := ⟨i, by rwa [Function.update_self]⟩
  last_write j others hj := by
    rw [hwrites] at hj
    cases hj
    exact ⟨stored, by rw [hobjects, keptSecret_put], hdata⟩
  found_kept hnone := by
    rw [hwrites] at hnone
    cases hnone
  missing_kept hnone := by
    rw [hwrites] at hnone
    cases hnone
  beaten := by
    rw [Function.forall_update_iff phase fun _ p => ∀ error,
      p = .ended (.error error) → crowd'.Beaten (Function.update phase i next) error]
    refine ⟨fun error hended => ?_, fun j _ error hended => ?_⟩
    · rw [hended] at hwritten
      cases hwritten
    · exact (h.beaten j error hended).update (fun _ => hknows) fun _ => by simp [hwrites]

variable (server : Server)

theorem advance_of_ended {result : Except Error Secret} (hrest : crowd.rest i = .done result) :
    crowd.advance server i = crowd := by
  rw [advance, hrest]

theorem advance_of_report {phase next : Phase} {event : Event}
    (hrest : crowd.rest i = phase.rest (config i)) (h : phase.report? = some (event, next)) :
    (crowd.advance server i).rest = Function.update crowd.rest i (next.rest (config i)) ∧
      (crowd.advance server i).store = crowd.store ∧
      (crowd.advance server i).writes = crowd.writes := by
  rw [advance, hrest, Phase.rest_of_report phase next event h]
  exact ⟨rfl, rfl, rfl⟩

theorem advance_of_request {phase : Phase} {request : Request}
    (hrest : crowd.rest i = phase.rest (config i)) (h : phase.request? (config i) = some request) :
    ∃ next store wrote,
      Move server (config i) crowd.store.served crowd.store.objects phase next store.objects wrote ∧
      (crowd.advance server i).rest = Function.update crowd.rest i (next.rest (config i)) ∧
      (crowd.advance server i).store = store ∧
      (crowd.advance server i).writes = if wrote then i :: crowd.writes else crowd.writes := by
  refine ⟨_, _, _, move_serve server crowd.store phase request h, ?_⟩
  rw [advance, hrest, Phase.rest_of_request phase request h]
  exact ⟨rfl, rfl, rfl⟩

/-- A reply leaves the crowd sound. -/
theorem Sound.move (h : Sound config crowd phase) {count : Nat} {objects : Objects} {wrote : Bool}
    (hmove : Move server (config i) count crowd.store.objects (phase i) next objects wrote)
    {crowd' : Crowd ι}
    (hrest : crowd'.rest = Function.update crowd.rest i (next.rest (config i)))
    (hobjects : crowd'.store.objects = objects)
    (hwrites : crowd'.writes = if wrote then i :: crowd.writes else crowd.writes) :
    Sound config crowd' (Function.update phase i next) := by
  have hexists := h.namespace_exists i
  have hknown := h.namespace_known i
  have hfoundKept := fun hnone => h.found_kept hnone i
  have hmissingKept := fun hnone => h.missing_kept hnone i
  generalize hphase : phase i = old at hmove hexists hknown hfoundKept hmissingKept
  cases hmove with
  | namespaceFound hfound =>
    refine h.quiet hrest hobjects hwrites ?_
    rw [hphase]
    exact { knowsNamespace := False.elim, namespace_exists := fun _ => hfound }
  | namespaceMissing hmissing =>
    refine h.quiet hrest hobjects hwrites ?_
    rw [hphase]
    exact
      { knowsNamespace := id
        namespace_exists := False.elim
        namespace_missing := fun _ => hmissing }
  | namespaceCreated _ => exact h.created hphase hrest hobjects hwrites
  | namespaceConflict hfound fault =>
    refine h.quiet hrest hobjects hwrites ?_
    rw [hphase]
    exact
      { knowsNamespace := id
        namespace_exists := False.elim
        beaten := by
          rintro _ ⟨⟩
          exact hknown rfl hfound }
  | secretFound hfound =>
    refine h.quiet hrest hobjects hwrites ?_
    rw [hphase]
    exact
      { knowsNamespace := id
        namespace_exists := hexists
        found_kept := by
          rintro - _ ⟨⟩
          exact hfound }
  | secretMissing hmissing =>
    refine h.quiet hrest hobjects hwrites ?_
    rw [hphase]
    exact
      { knowsNamespace := id
        namespace_exists := hexists
        missing_kept := fun _ _ => hmissing }
  | secretUpdated hold hstale hstored =>
    refine h.written trivial trivial (hexists trivial) ?_ hrest hobjects hwrites
    exact hstored ▸ data_fill ..
  | secretStale fault hstale =>
    refine h.quiet hrest hobjects hwrites ?_
    rw [hphase]
    exact
      { knowsNamespace := id
        namespace_exists := hexists
        beaten := by
          rintro _ ⟨⟩ hnone
          have hfresh := hstale _ (hfoundKept hnone _ rfl)
          rw [isStale_updatedSecret] at hfresh
          cases hfresh }
  | secretCreated hnamespace hmissing hstored =>
    refine h.written trivial trivial hnamespace ?_ hrest hobjects hwrites
    exact hstored ▸ data_fill ..
  | secretConflict fault hconflict =>
    refine h.quiet hrest hobjects hwrites ?_
    rw [hphase]
    exact
      { knowsNamespace := id
        namespace_exists := hexists
        beaten := by
          rintro _ ⟨⟩ hnone
          have hsome := hconflict (hexists trivial)
          rw [hmissingKept hnone rfl] at hsome
          cases hsome }

/-- Every step leaves the crowd sound. -/
theorem Sound.advance (h : Sound config crowd phase) (i : ι) :
    ∃ phase', Sound config (crowd.advance server i) phase' := by
  have hrest := h.rest_eq i
  have hreport : ∀ event next, (phase i).report? = some (event, next) →
      crowd.Quiet phase (phase i) next →
        ∃ phase', Sound config (crowd.advance server i) phase' := by
    intro event next hreport hnext
    obtain ⟨hrest', hstore, hwrites⟩ := advance_of_report server hrest hreport
    exact ⟨_, h.quiet hrest' (congrArg Store.objects hstore) hwrites hnext⟩
  have hrequest : ∀ request, (phase i).request? (config i) = some request →
      ∃ phase', Sound config (crowd.advance server i) phase' := by
    intro request hrequest
    obtain ⟨next, store, wrote, hmove, hrest', hstore, hwrites⟩ :=
      advance_of_request server hrest hrequest
    exact ⟨_, h.move server hmove hrest' (congrArg Store.objects hstore) hwrites⟩
  have hexists := h.namespace_exists i
  cases hphase : phase i with
  | ended result =>
    rw [hphase] at hrest
    rw [advance_of_ended server hrest]
    exact ⟨phase, h⟩
  | reportNamespace =>
    rw [hphase] at hreport hexists
    exact hreport _ _ rfl { knowsNamespace := id, namespace_exists := hexists }
  | reportUpdated stored =>
    rw [hphase] at hreport hexists
    exact hreport _ _ rfl { knowsNamespace := id, namespace_exists := hexists }
  | reportCreated stored =>
    rw [hphase] at hreport hexists
    exact hreport _ _ rfl { knowsNamespace := id, namespace_exists := hexists }
  | _ =>
    rw [hphase] at hrequest
    exact hrequest _ rfl

/-- A crowd is sound after every schedule. -/
theorem Sound.run (h : Sound config crowd phase) (schedule : List ι) :
    ∃ phase', Sound config (crowd.run server schedule) phase' := by
  induction schedule generalizing crowd phase with
  | nil => exact ⟨phase, h⟩
  | cons i schedule ih =>
    obtain ⟨phase', hadvance⟩ := h.advance server i
    exact ih hadvance

/-! ## Outcomes -/

/-- Whether an error says that a write was refused. -/
def isWriteFailure : Error → Bool
  | .namespaceCreation .. | .secretCreation .. | .secretUpdate .. => true
  | _ => false

omit [DecidableEq ι] in
theorem Beaten.isWriteFailure {error : Error} (h : crowd.Beaten phase error) :
    isWriteFailure error = true := by
  cases error with
  | namespaceCreation name fault => rfl
  | secretCreation name fault => rfl
  | secretUpdate name fault => rfl
  | _ => exact h.elim

/-- What is seen of a crowd. -/
structure Outcome (config : ι → List UInt8) (crowd : Crowd ι) : Prop where
  /-- A provision that has ended succeeded exactly if its write of the secret was accepted. -/
  ok_iff : ∀ i result, crowd.rest i = .done result → (result.isOk = true ↔ i ∈ crowd.writes)
  /-- A provision whose write was accepted has nothing left to do, unless to report it. -/
  succeeds : ∀ i ∈ crowd.writes, ∃ stored, crowd.rest i = .done (.ok stored) ∨
    ∃ event, crowd.rest i = .perform (.report event) fun _ => .done (.ok stored)
  /-- The secret holds what was written last, and nothing else. -/
  last_write : ∀ i others, crowd.writes = i :: others → ∃ secret,
    keptSecret crowd.store.objects = some secret ∧
      secret.data = some (dockerConfigData (config i)) ∧ secret.stringData = none
  /-- A provision that failed wrote nothing, and a write is what it failed with. -/
  failed : ∀ i error, crowd.rest i = .done (.error error) →
    i ∉ crowd.writes ∧ isWriteFailure error = true
  /-- Not all provisions fail. -/
  some_ok : Nonempty ι → (∀ i, ∃ result, crowd.rest i = .done result) →
    ∃ i stored, crowd.rest i = .done (.ok stored)

omit [DecidableEq ι] in
theorem Sound.ended (h : Sound config crowd phase) {i : ι} {result : Except Error Secret}
    (hdone : crowd.rest i = .done result) : phase i = .ended result :=
  Phase.eq_ended ((h.rest_eq i).symm.trans hdone)

omit [DecidableEq ι] in
/-- Where all provisions have ended, the last one that knows the namespace has seen a write. -/
theorem Sound.some_ok (h : Sound config crowd phase) [Nonempty ι]
    (hdone : ∀ i, ∃ result, crowd.rest i = .done result) :
    ∃ i stored, crowd.rest i = .done (.ok stored) := by
  -- a write that was accepted belongs to a provision that succeeded
  have hwritten : crowd.writes ≠ [] → ∃ i stored, crowd.rest i = .done (.ok stored) := by
    intro hne
    obtain ⟨i, hi⟩ := List.exists_mem_of_ne_nil _ hne
    obtain ⟨result, hresult⟩ := hdone i
    rw [h.mem_writes_iff, h.ended hresult] at hi
    cases result with
    | ok stored => exact ⟨i, stored, hresult⟩
    | error error => cases hi
  -- so did one that knows the namespace, or else it was beaten to the secret
  have hknows : ∀ i, (phase i).KnowsNamespace → ∃ i stored, crowd.rest i = .done (.ok stored) := by
    intro i hi
    obtain ⟨result, hresult⟩ := hdone i
    rw [h.ended hresult] at hi
    cases result with
    | ok stored => exact ⟨i, stored, hresult⟩
    | error error =>
      have hbeaten := h.beaten i error (h.ended hresult)
      cases error with
      | secretCreation name fault => exact hwritten hbeaten
      | secretUpdate name fault => exact hwritten hbeaten
      | _ => cases hi
  obtain ⟨i⟩ := ‹Nonempty ι›
  obtain ⟨result, hresult⟩ := hdone i
  cases result with
  | ok stored => exact ⟨i, stored, hresult⟩
  | error error =>
    have hbeaten := h.beaten i error (h.ended hresult)
    cases error with
    | namespaceCreation name fault =>
      obtain ⟨j, hj⟩ := hbeaten
      exact hknows j hj
    | secretCreation name fault => exact hwritten hbeaten
    | secretUpdate name fault => exact hwritten hbeaten
    | _ => exact hbeaten.elim

omit [DecidableEq ι] in
theorem Sound.outcome (h : Sound config crowd phase) : Outcome config crowd where
  ok_iff i result hdone := by
    rw [h.mem_writes_iff, h.ended hdone]
    cases result with
    | ok stored => exact iff_of_true rfl trivial
    | error error => exact iff_of_false nofun id
  succeeds i hi := by
    have hrest := h.rest_eq i
    have hwritten := (h.mem_writes_iff i).1 hi
    cases hphase : phase i with
    | reportUpdated stored =>
      rw [hphase, Phase.rest_of_report (.reportUpdated stored) _ _ rfl] at hrest
      exact ⟨stored, .inr ⟨_, hrest⟩⟩
    | reportCreated stored =>
      rw [hphase, Phase.rest_of_report (.reportCreated stored) _ _ rfl] at hrest
      exact ⟨stored, .inr ⟨_, hrest⟩⟩
    | ended result =>
      rw [hphase] at hrest hwritten
      cases result with
      | ok stored => exact ⟨stored, .inl hrest⟩
      | error error => cases hwritten
    | _ =>
      rw [hphase] at hwritten
      cases hwritten
  last_write := h.last_write
  failed i error hdone := by
    have hended := h.ended hdone
    refine ⟨?_, (h.beaten i error hended).isWriteFailure⟩
    rw [h.mem_writes_iff, hended]
    exact id
  some_ok _ := h.some_ok

/-- Whatever the order of their steps, provisions at the same time end as they should. -/
theorem outcome_run {token : ι → String} (htoken : ∀ i, decodeToken (token i) = .ok (config i))
    (machine : ι → Machine) (store : Store) (schedule : List ι) :
    Outcome config ((start token machine store).run server schedule) := by
  obtain ⟨phase, hsound⟩ := (sound_start htoken machine store).run server schedule
  exact hsound.outcome

/-- Two provisions that take turns on a server that keeps nothing before them. -/
theorem outcome_run_turns :
    let token := fun first : Bool => if first then "YWJj" else "ZGVm"
    let config := fun first : Bool => if first then [97, 98, 99] else [100, 101, 102]
    (∀ first, decodeToken (token first) = .ok (config first)) ∧
      Outcome config ((start token (fun _ => bareMachine) .empty).run (.numbering true)
        [true, false, true, false, true, false, true, false, true, false, true, false]) := by
  have htoken : ∀ first : Bool, decodeToken (if first then "YWJj" else "ZGVm") =
      .ok (if first then [97, 98, 99] else [100, 101, 102]) := by
    decide
  exact ⟨htoken, outcome_run _ htoken _ _ _⟩

end Crowd

end PreviewInstaller.QuaySecret
