import PreviewInstaller.Proofs.Cluster.Exchange
import PreviewInstaller.Proofs.Cluster.World

set_option autoImplicit false

/-! # Timelines of a server

A run shares the server with other clients, which create, replace and delete objects whenever they
like. A timeline is one order in which all of this happens, with what the server keeps before and
after each moment of it.

A server that versions its objects gives every object that it comes to keep a version that it gives
to no other one. So as long as a version is kept under a name, nothing has touched the object there,
and once it is gone it never comes back: `Timeline.same_or_lacks`. `Effect` says what a moment can
make of the store, and everything about timelines is derived from it by induction on the moments. -/

namespace PreviewInstaller.Cluster

open Procedure (Step exchanges)

/-! ## Versions -/

/-- The objects without the one under a name. -/
def Objects.erase (objects : Objects) (collection : Collection) (name : String) : Objects :=
  Function.update objects collection (Function.update (objects collection) name none)

/-- The version of the object under a name, if there is one. -/
def Objects.version? (objects : Objects) (collection : Collection) (name : String) :
    Option String :=
  (objects collection name).bind fun object => (collection.metadata object).resourceVersion

theorem Collection.withVersion_self (collection : Collection) (object : collection.Object) :
    collection.withVersion object (collection.metadata object).resourceVersion = object := by
  cases collection <;> rfl

namespace Objects

variable {objects : Objects} {collection other : Collection} {name name' : String}
  {object : collection.Object}

@[simp]
theorem erase_self : objects.erase collection name collection name = none := by
  simp [erase]

/-- What is kept under any other name stays. -/
theorem erase_of_ne (h : (other, name') ≠ (collection, name)) :
    objects.erase collection name other name' = objects other name' :=
  updated_of_ne h

theorem version?_of_some (h : objects collection name = some object) :
    objects.version? collection name = (collection.metadata object).resourceVersion := by
  simp [version?, h]

theorem version?_congr {objects' : Objects}
    (h : objects collection name = objects' collection name) :
    objects.version? collection name = objects'.version? collection name := by
  simp [version?, h]

end Objects

namespace Server

variable (server : Server)

/-- The server can give the version to an object when it has answered so many requests. -/
def Assigns (count : Nat) (version : String) : Prop :=
  ∃ (collection : Collection) (old : Option collection.Object) (object : collection.Object),
    (collection.metadata (server.fill count collection old object)).resourceVersion = some version

/-- A server that refuses objects made from another version, and that gives every object which it
comes to keep a version of its own. -/
structure Versioning : Prop where
  checks : server.checksVersions = true
  assigns : ∀ count (collection : Collection) old object, ∃ version,
    (collection.metadata (server.fill count collection old object)).resourceVersion = some version
  fresh : ∀ {count count' version}, server.Assigns count version →
    server.Assigns count' version → count = count'

/-- The server never gives the version once it has answered so many requests. -/
def Spent (count : Nat) (version : String) : Prop :=
  ∀ later, count ≤ later → ¬ server.Assigns later version

/-- The server comes to keep another object because of a request. -/
def Accepts (store : Store) (request : Request) : Prop :=
  (server.written? store request).isSome = true

variable {server} {count count' : Nat} {version : String}

theorem Spent.mono (h : server.Spent count version) (hle : count ≤ count') :
    server.Spent count' version :=
  fun later hlater => h later (Nat.le_trans hle hlater)

theorem Versioning.spent (hserver : server.Versioning) (h : server.Assigns count version) :
    server.Spent (count + 1) version := by
  intro later hlater hassigns
  have := hserver.fresh h hassigns
  omega

end Server

theorem Server.versioning_numbering : (numbering true).Versioning where
  checks := rfl
  assigns count collection _ object := ⟨toString count, by cases collection <;> rfl⟩
  fresh := by
    rintro count count' version ⟨collection, old, object, h⟩ ⟨collection', old', object', h'⟩
    have hversion : toString count = version := by cases collection <;> exact Option.some.inj h
    have hversion' : toString count' = version := by
      cases collection' <;> exact Option.some.inj h'
    have hdecimal := congrArg (Text.decimal 0 ·.toList) (hversion.trans hversion'.symm)
    simpa using hdecimal

/-- Every object has a version that no other one has and that the server does not give again. -/
structure Store.Versioned (server : Server) (store : Store) : Prop where
  version : ∀ {collection name object}, store.objects collection name = some object →
    ∃ version, store.objects.version? collection name = some version
  spent : ∀ {collection name version}, store.objects.version? collection name = some version →
    server.Spent store.served version
  distinct : ∀ {collection name collection' name' version},
    store.objects.version? collection name = some version →
      store.objects.version? collection' name' = some version →
        (collection, name) = (collection', name')

/-- No object has the version, and the server does not give it again. -/
structure Store.Lacks (server : Server) (version : String) (store : Store) : Prop where
  spent : server.Spent store.served version
  ne : ∀ collection name, store.objects.version? collection name ≠ some version

theorem Store.versioned_empty (server : Server) : Store.empty.Versioned server where
  version := nofun
  spent := nofun
  distinct := nofun

/-! ## Effects -/

/-- The objects are the same but for the one under a name, which has a version that the server can
give, if there is one. -/
structure Objects.Touched (server : Server) (count : Nat) (objects : Objects)
    (collection : Collection) (name : String) (after : Objects) : Prop where
  other : ∀ {collection' name'}, (collection', name') ≠ (collection, name) →
    after collection' name' = objects collection' name'
  version : ∀ {object}, after collection name = some object → ∃ version,
    after.version? collection name = some version ∧ server.Assigns count version

/-- What a single request or deletion can make of a store. -/
inductive Effect (server : Server) (store : Store) : Store → Prop where
  | same {served : Nat} (h : store.served ≤ served) :
      Effect server store ⟨store.objects, served⟩
  | touch (collection : Collection) (name : String) {objects : Objects}
      (h : store.objects.Touched server store.served collection name objects) :
      Effect server store ⟨objects, store.served + 1⟩

/-- A version is an old one somewhere else, or it is given to what is kept here now. -/
theorem Objects.Touched.version_cases {server : Server} {count : Nat} {objects after : Objects}
    {collection other : Collection} {name name' version : String}
    (h : objects.Touched server count collection name after)
    (hversion : after.version? other name' = some version) :
    ((other, name') ≠ (collection, name) ∧ objects.version? other name' = some version) ∨
      ((other, name') = (collection, name) ∧ server.Assigns count version) := by
  by_cases hname : (other, name') = (collection, name)
  · right
    cases hname
    obtain ⟨object, hobject, -⟩ := Option.bind_eq_some_iff.1 hversion
    obtain ⟨version', hversion', hassigns⟩ := h.version hobject
    obtain rfl : version' = version := Option.some.inj (hversion'.symm.trans hversion)
    exact ⟨rfl, hassigns⟩
  · left
    rw [version?_congr (h.other hname)] at hversion
    exact ⟨hname, hversion⟩

theorem Objects.touched_put {server : Server} (hserver : server.Versioning) (count : Nat)
    (objects : Objects) (collection : Collection) (name : String)
    (old : Option collection.Object) (object : collection.Object) :
    objects.Touched server count collection name
      (objects.put collection name (server.fill count collection old object)) where
  other := put_of_ne
  version _ := by
    obtain ⟨version, hversion⟩ := hserver.assigns count collection old object
    exact ⟨version, (version?_of_some put_self).trans hversion, _, _, _, hversion⟩

theorem Objects.touched_erase (server : Server) (count : Nat) (objects : Objects)
    (collection : Collection) (name : String) :
    objects.Touched server count collection name (objects.erase collection name) where
  other := erase_of_ne
  version h := by
    rw [erase_self] at h
    cases h

/-- What a request makes the server keep is filled in by it. -/
theorem Server.fill_of_judge {server : Server} {store : Store} {request : Request}
    {stored : request.collection.Object} {name : String}
    (h : server.judge store request = .ok (stored, some name)) :
    ∃ old object, stored = server.fill store.served request.collection old object := by
  cases request with
  | get collection name' =>
    simp only [judge] at h
    split at h <;> cases h
  | create collection body =>
    simp only [judge] at h
    split at h
    · cases h
    split at h
    · cases h
    split at h
    · cases h
    split at h
    · cases h
    · cases h
      exact ⟨_, _, rfl⟩
  | replace collection name' body =>
    simp only [judge] at h
    split at h
    · cases h
    · cases h
    split at h
    · cases h
    · cases h
      exact ⟨_, _, rfl⟩
  | mergePatch collection name' patch =>
    obtain ⟨-, old, object, -, -, hstored⟩ := judge_mergePatch_ok server h
    exact ⟨_, _, hstored⟩

theorem Server.Versioning.effect_serve {server : Server} (hserver : server.Versioning)
    (store : Store) (request : Request) :
    Effect server store (server.serve store request).2 := by
  unfold serve
  cases hjudge : server.judge store request with
  | error code => exact .same (Nat.le_succ _)
  | ok verdict =>
    obtain ⟨stored, written⟩ := verdict
    cases written with
    | none => exact .same (Nat.le_succ _)
    | some name =>
      obtain ⟨old, object, rfl⟩ := fill_of_judge hjudge
      exact .touch _ _ (Objects.touched_put hserver _ _ _ _ old object)

namespace Effect

variable {server : Server} {store after : Store} {version : String}

/-- A version that is gone stays away. -/
theorem lacks (h : Effect server store after) (hlacks : store.Lacks server version) :
    after.Lacks server version := by
  cases h with
  | same hle => exact ⟨hlacks.spent.mono hle, hlacks.ne⟩
  | touch collection name htouched =>
    refine ⟨hlacks.spent.mono (Nat.le_succ _), ?_⟩
    intro other name' hversion
    rcases htouched.version_cases hversion with ⟨-, hold⟩ | ⟨-, hnew⟩
    · exact hlacks.ne other name' hold
    · exact hlacks.spent _ (Nat.le_refl _) hnew

theorem versioned (hserver : server.Versioning) (h : Effect server store after)
    (hstore : store.Versioned server) : after.Versioned server := by
  cases h with
  | same hle => exact ⟨hstore.version, fun h => (hstore.spent h).mono hle, hstore.distinct⟩
  | touch collection name htouched =>
    refine ⟨?_, ?_, ?_⟩
    · intro other name' object hobject
      by_cases hname : (other, name') = (collection, name)
      · cases hname
        obtain ⟨version, hversion, -⟩ := htouched.version hobject
        exact ⟨version, hversion⟩
      · have hsame := htouched.other hname
        obtain ⟨version, hversion⟩ := hstore.version (hsame.symm.trans hobject)
        exact ⟨version, (Objects.version?_congr hsame).trans hversion⟩
    · intro other name' version hversion
      rcases htouched.version_cases hversion with ⟨-, hold⟩ | ⟨-, hnew⟩
      · exact (hstore.spent hold).mono (Nat.le_succ _)
      · exact hserver.spent hnew
    · intro other name' other' name'' version hversion hversion'
      -- an old version cannot be given now
      rcases htouched.version_cases hversion with ⟨-, hold⟩ | ⟨hname, hnew⟩ <;>
        rcases htouched.version_cases hversion' with ⟨-, hold'⟩ | ⟨hname', hnew'⟩
      · exact hstore.distinct hold hold'
      · exact absurd hnew' (hstore.spent hold _ (Nat.le_refl _))
      · exact absurd hnew (hstore.spent hold' _ (Nat.le_refl _))
      · exact hname.trans hname'.symm

/-- What is kept under a name stays, or its version is gone. -/
theorem same_or_lacks (h : Effect server store after) (hstore : store.Versioned server)
    {collection : Collection} {name : String}
    (hversion : store.objects.version? collection name = some version) :
    after.objects collection name = store.objects collection name ∨
      after.Lacks server version := by
  cases h with
  | same hle => exact .inl rfl
  | touch collection' name' htouched =>
    by_cases hname : (collection, name) = (collection', name')
    · right
      refine ⟨(hstore.spent hversion).mono (Nat.le_succ _), ?_⟩
      intro other name'' hafter
      rcases htouched.version_cases hafter with ⟨hne, hold⟩ | ⟨-, hnew⟩
      · exact hne ((hstore.distinct hold hversion).trans hname)
      · exact hstore.spent hversion _ (Nat.le_refl _) hnew
    · exact .inl (htouched.other hname)

end Effect

/-! ## Moments -/

/-- What another client does: it sends a request or deletes an object. -/
inductive Interference where
  | request (request : Request)
  | deletion (collection : Collection) (name : String)

/-- What happens at a moment: a step of the run, or something that another client does. -/
inductive Deed where
  | own (step : Step)
  | foreign (interference : Interference)

/-- A deed, and what the server keeps before and after it. -/
structure Moment where
  before : Store
  deed : Deed
  after : Store

/-- The moment at which the run sends a request and gets a reply. -/
abbrev Moment.exchange (before : Store) (request : Request) (reply : Reply) (after : Store) :
    Moment :=
  ⟨before, .own ⟨.send request, reply⟩, after⟩

/-- What is kept after an object was deleted. -/
def Store.delete (store : Store) (collection : Collection) (name : String) : Store :=
  ⟨store.objects.erase collection name, store.served + 1⟩

/-- The moments that a server allows for: it answers all requests from what it keeps. -/
inductive Server.Allows (server : Server) : Moment → Prop where
  | exchange (before : Store) (request : Request) : server.Allows
      ⟨before, .own ⟨.send request, (server.serve before request).1⟩,
        (server.serve before request).2⟩
  /-- The step has nothing to do with the server. -/
  | elsewhere {step : Step} (before : Store) (h : step.exchange? = none) :
      server.Allows ⟨before, .own step, before⟩
  | request (before : Store) (request : Request) : server.Allows
      ⟨before, .foreign (.request request), (server.serve before request).2⟩
  | deletion (before : Store) (collection : Collection) (name : String) : server.Allows
      ⟨before, .foreign (.deletion collection name), before.delete collection name⟩

theorem Server.serve_of_allows {server : Server} {before after : Store} {request : Request}
    {reply : Reply} (h : server.Allows (.exchange before request reply after)) :
    reply = (server.serve before request).1 ∧ after = (server.serve before request).2 := by
  cases h with
  | exchange => exact ⟨rfl, rfl⟩
  | elsewhere _ hno => cases hno

/-- The moments between two states of the store, one after the other. -/
inductive Timeline (server : Server) : Store → List Moment → Store → Prop where
  | nil (store : Store) : Timeline server store [] store
  | cons {moment : Moment} {rest : List Moment} {last : Store} (h : server.Allows moment)
      (hrest : Timeline server moment.after rest last) :
      Timeline server moment.before (moment :: rest) last

/-- The step of the run that a moment is, if it is one. -/
def Moment.step? (moment : Moment) : Option Step :=
  match moment.deed with
  | .own step => some step
  | .foreign _ => none

/-- The steps of the run among moments, in order. -/
def ownSteps (moments : List Moment) : List Step :=
  moments.filterMap Moment.step?

theorem exchanges_ownSteps {front rest : List Moment} {before after : Store} {request : Request}
    {reply : Reply} :
    exchanges (ownSteps (front ++ .exchange before request reply after :: rest)) =
      exchanges (ownSteps front) ++ ⟨request, reply⟩ :: exchanges (ownSteps rest) := by
  simp [ownSteps, exchanges, Moment.step?, Procedure.Step.exchange?]

theorem Server.Versioning.effect_of_allows {server : Server} (hserver : server.Versioning)
    {moment : Moment} (h : server.Allows moment) :
    Effect server moment.before moment.after := by
  cases h with
  | exchange before request => exact hserver.effect_serve before request
  | elsewhere before _ => exact .same (Nat.le_refl _)
  | request before request => exact hserver.effect_serve before request
  | deletion before collection name =>
    exact .touch _ _ (Objects.touched_erase server _ _ collection name)

namespace Timeline

variable {server : Server} {first last : Store} {moments : List Moment} {version : String}

theorem append_iff {front back : List Moment} :
    Timeline server first (front ++ back) last ↔
      ∃ middle, Timeline server first front middle ∧ Timeline server middle back last := by
  constructor
  · intro h
    induction front generalizing first with
    | nil => exact ⟨first, .nil first, h⟩
    | cons moment front ih =>
      cases h with
      | cons hallows hrest =>
        obtain ⟨middle, hfront, hback⟩ := ih hrest
        exact ⟨middle, .cons hallows hfront, hback⟩
  · rintro ⟨middle, hfront, hback⟩
    induction hfront with
    | nil store => exact hback
    | cons hallows _ ih => exact .cons hallows (ih hback)

theorem versioned (hserver : server.Versioning) (h : Timeline server first moments last)
    (hfirst : first.Versioned server) : last.Versioned server := by
  induction h with
  | nil store => exact hfirst
  | cons hallows _ ih => exact ih ((hserver.effect_of_allows hallows).versioned hserver hfirst)

theorem lacks (hserver : server.Versioning) (h : Timeline server first moments last)
    (hfirst : first.Lacks server version) : last.Lacks server version := by
  induction h with
  | nil store => exact hfirst
  | cons hallows _ ih => exact ih ((hserver.effect_of_allows hallows).lacks hfirst)

/-- Either nothing ever happens to what is kept under a name, or its version is gone for good. -/
theorem same_or_lacks (hserver : server.Versioning) (h : Timeline server first moments last)
    (hfirst : first.Versioned server) {collection : Collection} {name : String}
    (hversion : first.objects.version? collection name = some version) :
    (last.objects collection name = first.objects collection name ∧ ∀ moment ∈ moments,
      moment.after.objects collection name = moment.before.objects collection name) ∨
      last.Lacks server version := by
  induction h with
  | nil store => exact .inl ⟨rfl, by simp⟩
  | @cons moment rest last hallows hrest ih =>
    have heffect := hserver.effect_of_allows hallows
    rcases heffect.same_or_lacks hfirst hversion with hsame | hlacks
    · -- the object is the same, so it still has the version
      have hkept := (Objects.version?_congr hsame).trans hversion
      rcases ih (heffect.versioned hserver hfirst) hkept with ⟨hlast, hall⟩ | hlacks
      · left
        refine ⟨hlast.trans hsame, ?_⟩
        intro other hmem
        rcases List.mem_cons.1 hmem with rfl | hmem
        · exact hsame
        · exact hall other hmem
      · exact .inr hlacks
    · exact .inr (hrest.lacks hserver hlacks)

end Timeline

end PreviewInstaller.Cluster
