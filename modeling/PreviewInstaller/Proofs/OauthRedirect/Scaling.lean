import PreviewInstaller.Proofs.OauthRedirect.Account
import PreviewInstaller.Proofs.OauthRedirect.Effect

set_option autoImplicit false

/-! # The scaled down copy

What the scaling writes into a deployment and what it leaves, for every deployment that a reply can
hold: annotations and a specification are there or not, and the rest is arbitrary. The copy is sent
as bytes. Main statement: the copy differs from the deployment in the mark and the replicas alone,
only the last of several scalings counts, and the bytes that are sent are read as the very copy of
the deployment that was found, if that has no times but whole seconds. Other times are rounded down
to the second. -/

namespace PreviewInstaller.OauthRedirect

open Cluster
open Procedure (Step Yields exchanges)

/-! ## The copy -/

/-- A deployment has no replicas and a mark, and all else as another one has it. Where the other one
has no specification, all else of the specification is its default. -/
structure IsScaledCopy (restartedAt : String) (before after : Deployment PointInTime) : Prop where
  annotations :
    SetsText restartedAtKey restartedAt before.metadata.annotations after.metadata.annotations
  metadata : { after.metadata with annotations := none } =
    { before.metadata with annotations := none }
  spec : ∃ spec, after.spec = some spec ∧ spec.replicas = some 0 ∧
    { spec with replicas := none } = { before.spec.getD {} with replicas := none }
  status : after.status = before.status

theorem isScaledCopy_scaledDown (restartedAt : String) (deployment : Deployment PointInTime) :
    IsScaledCopy restartedAt deployment (scaledDown deployment restartedAt) where
  annotations := setsText_insert restartedAtKey restartedAt deployment.metadata.annotations
  metadata := rfl
  spec := ⟨_, rfl, rfl, rfl⟩
  status := rfl

/-- What is read of a copy that was written: it has its times rounded down to the second, so it is
the copy where the deployment had whole seconds only. -/
structure ReadsCopy (restartedAt : String) (before : Deployment PointInTime)
    (read : Option (Deployment PointInTime)) : Prop where
  floors : read = some ((scaledDown before restartedAt).map PointInTime.floor)
  whole : before.IsWhole → read = some (scaledDown before restartedAt)

theorem readsCopy_of_floors {restartedAt : String} {before : Deployment PointInTime}
    {read : Option (Deployment PointInTime)}
    (h : read = some ((scaledDown before restartedAt).map PointInTime.floor)) :
    ReadsCopy restartedAt before read := by
  refine ⟨h, fun hwhole => ?_⟩
  rw [h, ← scaledDown_map, hwhole]

theorem read_write_deployment (deployment : Deployment PointInTime) :
    Deployment.codec.read (Deployment.codec.write deployment) =
      some (deployment.map PointInTime.floor) :=
  (Deployment.settles_codec Codec.settles_pointInTime).read_write deployment

/-- The deployment that a server reads from the bytes of a body. -/
def received? (body : Json) : Option (Deployment PointInTime) :=
  (jsonOfBytes? (bodyOf body)).bind Deployment.codec.read

theorem received?_write (deployment : Deployment PointInTime) :
    received? (Deployment.codec.write deployment) = some (deployment.map PointInTime.floor) := by
  have hreadable := (Deployment.settles_codec Codec.settles_pointInTime).write_readable deployment
  rw [received?, jsonOfBytes?_bodyOf hreadable, Option.bind_some, read_write_deployment]

/-! ## The replacement -/

/-- A request that replaces a deployment by its scaled copy, as a server reads it. -/
def Replaces (found : Deployment PointInTime) (now : Instant) (request : Request) : Prop :=
  let name := ownName found
  ∃ body, request = .replace (.deployments name.namespaceName) name.name body ∧
    ReadsCopy now.rfc3339 found (received? body)

theorem replaces_scaleRequest (found : Deployment PointInTime) (now : Instant) :
    Replaces found now (scaleRequest found now) :=
  ⟨_, rfl, readsCopy_of_floors (received?_write _)⟩

theorem scaleDown_eq (found : Deployment PointInTime) :
    scaleDown found = (do
      let now ← Task.readClock
      let stored ← call Deployment.codec (scaleRequest found now)
      Task.report (.scaledDown (ownName found))
      return stored : Task ClientFault (Deployment PointInTime)) := rfl

/-- A call whose success is reported sends its request and ends in what the reply is read as, or
cannot send it. -/
theorem exchanges_of_call {α : Type} {codec : Codec α} {request : Request} {event : Event}
    {taken : List Step} {result : Except ClientFault α}
    (h : Yields (call codec request >>= fun stored => do
      Task.report event
      return stored).run taken result) :
    exchanges taken = [] ∧ result = .error .unbuildable ∨
      ∃ reply : Reply, exchanges taken = [⟨request, reply⟩] ∧ result = reply.decode codec := by
  by_cases huri : request.uri?.isSome = true
  · right
    rw [Task.run_bind, run_call huri] at h
    obtain ⟨reply, rest, rfl, htold⟩ := Procedure.yields_perform_iff.1 h
    refine ⟨reply, ?_⟩
    rcases hreply : reply.decode codec with fault | stored
    · simp only [hreply] at htold
      obtain ⟨rfl, rfl⟩ := Procedure.yields_done_iff.1 htold
      exact ⟨rfl, rfl⟩
    · simp only [hreply] at htold
      obtain ⟨rest, rfl, hdone⟩ := Task.yields_report_bind_iff.1 htold
      obtain ⟨rfl, rfl⟩ := Procedure.yields_done_iff.1 hdone
      exact ⟨rfl, rfl⟩
  · left
    unfold call at h
    rw [Option.not_isSome_iff_eq_none.1 huri] at h
    obtain ⟨rfl, rfl⟩ := Procedure.yields_done_iff.1 h
    exact ⟨rfl, rfl⟩

/-- A scaling reads the clock and sends one replacement at most, and it does not succeed unless it
sends it. -/
theorem exchanges_of_scaleDown {found : Deployment PointInTime} {taken : List Step}
    {result : Except ClientFault (Deployment PointInTime)}
    (h : Yields (scaleDown found).run taken result) :
    ∃ now, ⟨.readClock, now⟩ ∈ taken ∧
      (exchanges taken = [] ∧ result = .error .unbuildable ∨
        ∃ reply : Reply, exchanges taken = [⟨scaleRequest found now, reply⟩] ∧
          result = reply.decode Deployment.codec) := by
  rw [scaleDown_eq] at h
  obtain ⟨now, rest, rfl, hcall⟩ := Task.yields_act_bind_iff.1 h
  have hsent := exchanges_of_call hcall
  exact ⟨now, List.mem_cons_self, hsent⟩

/-- The replacement is the same, whether the deployment was read with points in time or with
instants. -/
theorem scaleRequest_map (found : Deployment PointInTime) (now : Instant) :
    scaleRequest (found.map PointInTime.instant) now = scaleRequest found now := by
  have hcodec := Deployment.refines_codec Codec.refines_pointInTime
  simp only [scaleRequest, scaledDown_map, hcodec.write_eq]
  rfl

/-- What a push replaces is the deployment that it found, at the time that the clock showed. -/
theorem replaces_of_push {url : Option String} {taken : List Step}
    (h : Yields (push url) taken ()) {exchange : Exchange} (hmem : exchange ∈ exchanges taken)
    (hput : exchange.request.method = "PUT") :
    ∃ (search : Reply) (found : Deployment PointInTime) (now : Instant),
      ⟨searchRequest, search⟩ ∈ exchanges taken ∧ search.decode Deployment.codec = .ok found ∧
        ⟨.readClock, now⟩ ∈ taken ∧ Replaces found now exchange.request := by
  obtain ⟨before, outcome, rfl, hcourse⟩ := yields_push_iff.1 h
  have hclosing : exchanges (closing outcome) = [] := by cases outcome <;> rfl
  rw [Procedure.exchanges_append, hclosing, List.append_nil] at hmem ⊢
  -- of the three requests only the last one replaces anything
  have hearly : ∀ {patch search : Reply},
      exchange ∉ [⟨patchRequest (url.getD ""), patch⟩, ⟨searchRequest, search⟩] := by
    simp only [List.mem_cons, List.not_mem_nil, or_false]
    rintro _ _ (rfl | rfl) <;> simp at hput
  have hlast : ∀ {patch search scale : Reply} {found : Deployment} {now : Instant},
      search.decode Deployment.codec = .ok found →
      exchange ∈ [⟨patchRequest (url.getD ""), patch⟩, ⟨searchRequest, search⟩,
        ⟨scaleRequest found now, scale⟩] →
      ∃ fine : Deployment PointInTime, search.decode Deployment.codec = .ok fine ∧
        Replaces fine now exchange.request := by
    intro patch search scale found now hsearch hmem
    obtain ⟨fine, hfine, rfl⟩ :=
      Reply.exists_decode_of_change (Deployment.refines_codec Codec.refines_pointInTime) hsearch
    refine ⟨fine, hfine, ?_⟩
    rcases List.mem_append.1 (show _ ∈ [_, _] ++ [_] from hmem) with hfront | hscale
    · exact absurd hfront hearly
    · rw [List.mem_singleton.1 hscale, scaleRequest_map]
      exact replaces_scaleRequest fine now
  cases hcourse with
  | unset => simp at hmem
  | patchFailed => simp_all
  | searchFailed => exact absurd hmem hearly
  | scaleUnbuildable => exact absurd hmem hearly
  | scaleFailed _ _ hsearch =>
    obtain ⟨fine, hfine, hreplaces⟩ := hlast hsearch hmem
    exact ⟨_, fine, _, by simp, hfine, by simp, hreplaces⟩
  | scaled _ _ hsearch =>
    obtain ⟨fine, hfine, hreplaces⟩ := hlast hsearch hmem
    exact ⟨_, fine, _, by simp, hfine, by simp, hreplaces⟩

/-! ## The laws -/

/-- What scaling does to deployments, and what is sent of it. -/
structure ScalingLaws : Prop where
  copies : ∀ (deployment : Deployment PointInTime) restartedAt,
    IsScaledCopy restartedAt deployment (scaledDown deployment restartedAt)
  /-- Only the last of several scalings counts. -/
  overwrites : ∀ (deployment : Deployment PointInTime) first second,
    scaledDown (scaledDown deployment first) second = scaledDown deployment second
  /-- Writing the copy of a deployment with whole seconds and reading it back gives the copy. -/
  reads : ∀ (deployment : Deployment PointInTime) restartedAt,
    ReadsCopy restartedAt deployment
      (Deployment.codec.read (Deployment.codec.write (scaledDown deployment restartedAt)))
  /-- A scaling sends the copy of its deployment at the time that the clock shows, or nothing, and
  then it fails. -/
  sends : ∀ (found : Deployment PointInTime) taken result,
    Yields (scaleDown found).run taken result → ∃ now,
      ⟨.readClock, now⟩ ∈ taken ∧ (exchanges taken = [] ∧ result = .error .unbuildable ∨
        ∃ exchange, exchanges taken = [exchange] ∧ Replaces found now exchange.request)
  /-- All that a push replaces is the deployment that it found. -/
  pushes : ∀ url taken, Yields (push url) taken () → ∀ exchange ∈ exchanges taken,
    exchange.request.method = "PUT" →
      ∃ (search : Reply) (found : Deployment PointInTime) (now : Instant),
        ⟨searchRequest, search⟩ ∈ exchanges taken ∧ search.decode Deployment.codec = .ok found ∧
          ⟨.readClock, now⟩ ∈ taken ∧ Replaces found now exchange.request

end PreviewInstaller.OauthRedirect
