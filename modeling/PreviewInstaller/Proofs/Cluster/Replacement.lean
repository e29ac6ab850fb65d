import PreviewInstaller.Proofs.Cluster.Timeline

set_option autoImplicit false

/-! # Replacements

A run that finds an object, changes a copy of it and sends this back replaces what it has found or
nothing at all: the copy carries the version that was found, and only the object that was found has
that. `Supersedes` says what can become of such a request, whatever other clients do in the
meantime. -/

namespace PreviewInstaller.Cluster

open Procedure (exchanges)

variable {server : Server} {collection : Collection} {name : String}

/-- An object is found under a name at one of these moments, and between that and the last one the
run says nothing more to the server. -/
def Finds (moments : List Moment) (collection : Collection) (name : String)
    (found : collection.Object) (between : List Moment) : Prop :=
  ∃ front before reply after,
    moments = front ++ Moment.exchange before (.get collection name) reply after :: between ∧
      reply.decode collection.codec = .ok found ∧ exchanges (ownSteps between) = []

/-- What becomes of a request to keep another object in the place of one that was found, when the
moments `between` have passed. How the objects may differ is said by `Differs`. -/
structure Supersedes (server : Server) (between : List Moment) (before after : Store)
    (exchange : Exchange) (collection : Collection) (name : String)
    (Differs : collection.Object → collection.Object → Prop) (found : collection.Object) :
    Prop where
  /-- If the request is accepted, the object that was found is still there just before, and what is
  kept from then on differs from it as it should, but for what the server fills in, and has a
  version of its own. -/
  accepted : server.Accepts before exchange.request →
    before.objects collection name = some found ∧ ∃ sent stored,
      exchange.request = .replace collection name (collection.codec.write sent) ∧
        Differs found sent ∧
        stored = server.fill before.served collection (some found) sent ∧
        (server.OnlyVersions → Differs found stored) ∧
        after.objects = before.objects.put collection name stored ∧
        (collection.metadata stored).resourceVersion ≠
          (collection.metadata found).resourceVersion
  /-- If not, the request fails, and everything stays as it is. -/
  refused : ¬ server.Accepts before exchange.request →
    after.objects = before.objects ∧ ∃ fault, exchange.fault? = some fault
  /-- The request is not accepted if anything has happened to the object. -/
  touched : ∀ moment ∈ between,
    moment.after.objects collection name ≠ moment.before.objects collection name →
      ¬ server.Accepts before exchange.request

/-- What the last request of the run has found is found at one of the moments. -/
theorem exists_finds {moments : List Moment} {talk : List Exchange} {search : Reply}
    {found : collection.Object}
    (htalk : exchanges (ownSteps moments) = talk ++ [⟨.get collection name, search⟩])
    (hsearch : search.decode collection.codec = .ok found) :
    ∃ between, Finds moments collection name found between := by
  rw [exchanges, ownSteps, List.filterMap_filterMap] at htalk
  -- the moments split at the one that the search comes from, and no exchange is left behind it
  obtain ⟨front, back, rfl, -, hback⟩ := List.filterMap_eq_append_iff.1 htalk
  obtain ⟨silent, ⟨before, deed, after⟩, between, rfl, -, hmoment, hbetween⟩ :=
    List.filterMap_eq_cons_iff.1 hback
  obtain ⟨step, hstep, hexchange⟩ := Option.bind_eq_some_iff.1 hmoment
  have hdeed : deed = .own step := by
    cases deed with
    | own step' => rw [Option.some.inj hstep]
    | foreign interference => cases hstep
  refine ⟨between, front ++ silent, before, search, after, ?_, hsearch, ?_⟩
  · rw [hdeed, Procedure.Step.eq_of_exchange? hexchange, List.append_assoc]
  · rw [exchanges, ownSteps, List.filterMap_filterMap]
    exact hbetween

theorem Server.decode_get (server : Server) {store : Store} {object : collection.Object}
    (h : store.objects collection name = some object) :
    (server.serve store (.get collection name)).1.decode collection.codec = .ok object ∧
      (server.serve store (.get collection name)).2.objects = store.objects := by
  obtain ⟨hdecode, hobjects, -⟩ := serve_read (judge_get_some server h)
  exact ⟨hdecode, hobjects⟩

/-- An object that was searched and found is there. -/
theorem Server.found_of_serve {store : Store} {found : collection.Object}
    (h : (server.serve store (.get collection name)).1.decode collection.codec = .ok found) :
    store.objects collection name = some found ∧
      (server.serve store (.get collection name)).2.objects = store.objects := by
  cases hkept : store.objects collection name with
  | none =>
    obtain ⟨⟨fault, hdecode, -⟩, -⟩ := serve_refused collection.codec (judge_get_none server hkept)
    rw [hdecode] at h
    cases h
  | some object =>
    obtain ⟨hdecode, hobjects⟩ := server.decode_get hkept
    exact ⟨congrArg some (Except.ok.inj (hdecode.symm.trans h)), hobjects⟩

/-- What has been deleted cannot be replaced. -/
theorem Server.decode_deleted (server : Server) (store : Store) (collection : Collection)
    (name : String) (object : collection.Object) :
    ∃ fault, (server.serve (store.delete collection name)
      (.replace collection name (collection.codec.write object))).1.decode collection.codec =
        .error fault := by
  have hgone : (store.delete collection name).objects collection name = none :=
    Objects.erase_self
  obtain ⟨⟨fault, hdecode, -⟩, -⟩ :=
    serve_refused collection.codec (judge_replace_missing server hgone object)
  exact ⟨fault, hdecode⟩

/-- A replacement that is not accepted is refused. -/
theorem Server.judge_of_not_accepts {store : Store} {body : Json}
    (h : ¬ server.Accepts store (.replace collection name body)) :
    ∃ code, server.judge store (.replace collection name body) = .error code := by
  cases hjudge : server.judge store (.replace collection name body) with
  | error code => exact ⟨code, rfl⟩
  | ok verdict =>
    obtain ⟨stored, written⟩ := verdict
    cases written with
    | some name' => simp [Accepts, written?, hjudge] at h
    | none =>
      simp only [judge] at hjudge
      split at hjudge
      · cases hjudge
      · cases hjudge
      split at hjudge <;> cases hjudge

/-- A replacement is accepted only if what it replaces has the version that it was made from. -/
theorem Server.version?_of_accepts {store : Store} {object : collection.Object} {version : String}
    (hchecks : server.checksVersions = true)
    (hversion : (collection.metadata object).resourceVersion = some version)
    (h : server.Accepts store (.replace collection name (collection.codec.write object))) :
    store.objects.version? collection name = some version := by
  cases hkept : store.objects collection name with
  | none => simp [Accepts, written?, judge_replace_missing server hkept] at h
  | some old =>
    rw [Objects.version?_of_some hkept]
    by_contra hne
    have hstale : server.isStale collection old object = true := by
      simp [isStale, hchecks, hversion, hne]
    simp [Accepts, written?, judge_replace_stale server hkept hstale] at h

/-- What is found is there behind the search, among objects that all have versions. -/
theorem Finds.exists_start (hserver : server.Versioning) {store last : Store}
    (hstore : store.Versioned server) {moments between : List Moment}
    (htimeline : Timeline server store moments last) {found : collection.Object}
    (h : Finds moments collection name found between) :
    ∃ start : Store, start.Versioned server ∧ start.objects collection name = some found ∧
      Timeline server start between last := by
  obtain ⟨front, before, reply, after, rfl, hreply, -⟩ := h
  obtain ⟨_, hfront, hbehind⟩ := Timeline.append_iff.1 htimeline
  cases hbehind with
  | cons hsearch hbetween =>
    have hafter : after.Versioned server :=
      (hserver.effect_of_allows hsearch).versioned hserver (hfront.versioned hserver hstore)
    obtain ⟨rfl, rfl⟩ := Server.serve_of_allows hsearch
    obtain ⟨hfound, hobjects⟩ := Server.found_of_serve hreply
    exact ⟨_, hafter, hobjects ▸ hfound, hbetween⟩

/-- A replacement that carries a version which was kept under a name is accepted only there, and
only if nothing has happened since. -/
theorem Timeline.untouched_of_accepts (hserver : server.Versioning) {start before : Store}
    (hstart : start.Versioned server) {between : List Moment}
    (h : Timeline server start between before) {version : String}
    (hversion : start.objects.version? collection name = some version)
    {collection' : Collection} {name' : String} {object : collection'.Object}
    (hobject : (collection'.metadata object).resourceVersion = some version)
    (haccepts : server.Accepts before
      (.replace collection' name' (collection'.codec.write object))) :
    (collection', name') = (collection, name) ∧
      before.objects collection name = start.objects collection name ∧
      ∀ moment ∈ between,
        moment.after.objects collection name = moment.before.objects collection name := by
  have hkept := Server.version?_of_accepts hserver.checks hobject haccepts
  rcases h.same_or_lacks hserver hstart hversion with ⟨hsame, hall⟩ | hlacks
  · have hbefore := (Objects.version?_congr hsame).trans hversion
    exact ⟨(h.versioned hserver hstart).distinct hkept hbefore, hsame, hall⟩
  · exact absurd hkept (hlacks.ne collection' name')

/-- Whatever other clients do, a copy of an object that was found, under whatever name, takes the
place of nothing but this object. -/
theorem supersedes_of_finds (hserver : server.Versioning) {store before after : Store}
    (hstore : store.Versioned server) {earlier between : List Moment}
    (htimeline : Timeline server store earlier before) {request : Request} {reply : Reply}
    (hallows : server.Allows (.exchange before request reply after))
    {found sent : collection.Object} (hfinds : Finds earlier collection name found between)
    {collection' : Collection} {name' : String} {object : collection'.Object}
    (hrequest : request = .replace collection' name' (collection'.codec.write object))
    (hobject : (collection'.metadata object).resourceVersion =
      (collection.metadata found).resourceVersion)
    (hsame : (collection', name') = (collection, name) →
      request = .replace collection name (collection.codec.write sent))
    (hsent : (collection.metadata sent).resourceVersion =
      (collection.metadata found).resourceVersion)
    {Differs : collection.Object → collection.Object → Prop}
    (hdiffers : ∀ version, Differs found (collection.withVersion sent version)) :
    Supersedes server between before after ⟨request, reply⟩ collection name Differs found := by
  obtain ⟨start, hstart, hfound, hbetween⟩ := hfinds.exists_start hserver hstore htimeline
  obtain ⟨version, hversion⟩ := hstart.version hfound
  have hgiven : (collection.metadata found).resourceVersion = some version :=
    (Objects.version?_of_some hfound).symm.trans hversion
  -- both ways, the version that was found tells whether the object is still there
  have huntouched : server.Accepts before request → _ := fun haccepts =>
    hbetween.untouched_of_accepts hserver hstart hversion (hobject.trans hgiven)
      (hrequest ▸ haccepts)
  obtain ⟨rfl, rfl⟩ := Server.serve_of_allows hallows
  refine ⟨?_, ?_, ?_⟩
  · intro haccepts
    obtain ⟨hname, hkept, -⟩ := huntouched haccepts
    have hput := hsame hname
    have hold : before.objects collection name = some found := hkept.trans hfound
    have hjudge := Server.judge_replace server hold (Server.isStale_eq_false server hsent)
    obtain ⟨-, hobjects, -⟩ := Server.serve_write hjudge
    refine ⟨hold, sent, _, hput, ?_, rfl, ?_, ?_, ?_⟩
    · rw [← collection.withVersion_self sent]
      exact hdiffers _
    · intro honly
      obtain ⟨version', hfill⟩ := honly before.served collection (some found) sent
      rw [hfill]
      exact hdiffers version'
    · rw [hput]
      exact hobjects
    · -- the version that was found cannot be given again
      intro heq
      have hspent := (hbetween.versioned hserver hstart).spent
        ((Objects.version?_of_some hold).trans hgiven)
      exact hspent _ (Nat.le_refl _) ⟨_, _, _, heq.trans hgiven⟩
  · intro hnot
    subst hrequest
    obtain ⟨code, hjudge⟩ := Server.judge_of_not_accepts hnot
    obtain ⟨⟨fault, hdecode, -⟩, hobjects, -⟩ :=
      Server.serve_refused collection'.codec hjudge
    exact ⟨hobjects, fault, Exchange.fault?_of_error hdecode⟩
  · intro moment hmem htouched haccepts
    exact htouched ((huntouched haccepts).2.2 moment hmem)

end PreviewInstaller.Cluster
