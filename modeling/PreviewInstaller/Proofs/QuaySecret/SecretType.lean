import PreviewInstaller.Proofs.QuaySecret.Payload

set_option autoImplicit false

/-! # The type of the secret

A secret serves as a pull secret only where its type says that it holds a docker configuration. A
creation gives that type, and an update gives the type that was found. Main statement: when a
provision succeeds, the body that it wrote last has the type of docker configurations exactly if it
created the secret, or found one that had the type already. -/

namespace PreviewInstaller.QuaySecret

open Cluster Codec
open Procedure (Step Yields exchanges)

variable {dockerConfig : List UInt8}

/-! ## Types in bodies -/

/-- The body is that of a pull secret. -/
def IsPullSecret (body : Json) : Prop :=
  body.get "type" = .text dockerConfigType

/-- A body gives the type that the secret has, if it has one. -/
theorem get_type_write (secret : Secret) :
    (Secret.codec.write secret).get "type" = (secret.type.map Json.text).getD .null := by
  obtain ⟨data, immutable, metadata, stringData, type⟩ := secret
  cases data <;> cases immutable <;> cases stringData <;> cases type <;> rfl

theorem isPullSecret_write_iff {secret : Secret} :
    IsPullSecret (Secret.codec.write secret) ↔ secret.type = some dockerConfigType := by
  rw [IsPullSecret, get_type_write]
  cases secret.type with
  | none => simp
  | some type => simp

/-- A creation gives the type of docker configurations. -/
theorem isPullSecret_createdSecret (dockerConfig : List UInt8) :
    IsPullSecret (Secret.codec.write (createdSecret dockerConfig)) :=
  isPullSecret_write_iff.2 rfl

/-- An update gives the type of docker configurations only to a secret that has it. -/
theorem isPullSecret_updatedSecret_iff {found : Secret} :
    IsPullSecret (Secret.codec.write (updatedSecret found dockerConfig)) ↔
      found.type = some dockerConfigType :=
  isPullSecret_write_iff

/-! ## Successful provisions -/

/-- The search at the end of these exchanges found a secret with this type. -/
def FoundTyped (type : String) (front : List Exchange) : Prop :=
  ∃ before search found, front = before ++ [⟨secretSearch, search⟩] ∧
    search.decode Secret.codec = .ok found ∧ found.type = some type

/-- A provision that succeeds has written the secret last, and what it wrote is a pull secret
exactly if it was created, or was one before. -/
theorem provision_types_secret {token : String} {steps : List Step} {stored : Secret}
    (h : Yields (provision token).run steps (.ok stored)) :
    ∃ front last body, exchanges steps = front ++ [last] ∧ last.request.collection = secrets ∧
      last.request.body? = some body ∧
      (last.request.method = "POST" ∨ last.request.method = "PUT") ∧
      (IsPullSecret body ↔
        last.request.method = "POST" ∨ FoundTyped dockerConfigType front) := by
  cases htoken : decodeToken token with
  | error error =>
    rw [run_provision_rejected htoken] at h
    cases (Procedure.yields_done_iff.1 h).2
  | ok dockerConfig =>
    obtain ⟨hdialogue, front, last, htalk, hlast⟩ := concludes_of_yields htoken h
    cases hlast with
    | stored hwrite hreply =>
      rcases hwrite with rfl | ⟨found, rfl⟩
      · exact ⟨front, _, _, htalk, rfl, rfl, .inl rfl,
          iff_of_true (isPullSecret_createdSecret dockerConfig) (.inl rfl)⟩
      · obtain ⟨before, search, found', hfront, hfound, hupdate⟩ :=
          (htalk ▸ hdialogue).search_of_replace
        refine ⟨front, _, _, htalk, rfl, rfl, .inr rfl, ?_⟩
        -- the body is made from the secret that the last search found
        have hbody : Secret.codec.write (updatedSecret found dockerConfig) =
            Secret.codec.write (updatedSecret found' dockerConfig) := by
          injection hupdate
        rw [hbody, isPullSecret_updatedSecret_iff]
        refine ⟨fun htype => .inr ⟨before, search, found', hfront, hfound, htype⟩, ?_⟩
        rintro (hpost | ⟨before', search', found'', hfront', hfound', htype⟩)
        · simp [secretUpdate, Request.method] at hpost
        · obtain ⟨-, hsearch⟩ := List.append_inj' (hfront.symm.trans hfront') rfl
          cases hsearch
          rwa [Except.ok.inj (hfound.symm.trans hfound')]

/-! ## Secrets of another type -/

/-- A secret that was made for anything. -/
def opaqueSecret : Secret where
  metadata := { name := some secretName, namespaceName := some secretNamespace }
  type := some "Opaque"

/-- The exchanges of a provision before it updates such a secret. -/
def beforeUpdate : List Exchange :=
  [⟨namespaceSearch, tellingReply Namespace.codec freshNamespace⟩,
   ⟨secretSearch, tellingReply Secret.codec opaqueSecret⟩]

/-- The update of such a secret. -/
def opaqueUpdate : Exchange where
  request := secretUpdate [97, 98, 99] opaqueSecret
  reply := tellingReply Secret.codec (updatedSecret opaqueSecret [97, 98, 99])

/-- The steps of a provision that finds such a secret. -/
def updatingOpaque : List Step :=
  (beforeUpdate ++ [opaqueUpdate]).map (fun exchange => ⟨.send exchange.request, exchange.reply⟩) ++
    [⟨.report (.updatedSecret ⟨secretNamespace, secretName⟩), ()⟩]

theorem yields_updatingOpaque : Yields (provision "YWJj").run updatingOpaque
    (.ok (updatedSecret opaqueSecret [97, 98, 99])) :=
  yields_updated (by decide) (decode_tellingReply Namespace.lawful_codec _)
    (decode_tellingReply Secret.lawful_codec _) (decode_tellingReply Secret.lawful_codec _)

theorem not_isPullSecret_opaqueUpdate {body : Json} (h : opaqueUpdate.request.body? = some body) :
    ¬ IsPullSecret body := by
  obtain rfl := Option.some.inj h
  rw [isPullSecret_updatedSecret_iff]
  decide

/-- A provision that updates such a secret succeeds, and what it writes is no pull secret. -/
theorem provision_types_secret_opaque :
    Yields (provision "YWJj").run updatingOpaque (.ok (updatedSecret opaqueSecret [97, 98, 99])) ∧
      ∃ body, opaqueUpdate.request.body? = some body ∧ ¬ IsPullSecret body ∧
        ¬ FoundTyped dockerConfigType beforeUpdate := by
  obtain ⟨front, last, body, htalk, -, hbody, -, hiff⟩ :=
    provision_types_secret yields_updatingOpaque
  have hsplit : exchanges updatingOpaque = beforeUpdate ++ [opaqueUpdate] := rfl
  obtain ⟨rfl, hlast⟩ := List.append_inj' (hsplit.symm.trans htalk) rfl
  cases hlast
  have hother := not_isPullSecret_opaqueUpdate hbody
  exact ⟨yields_updatingOpaque, body, hbody, hother, fun hfound => hother (hiff.2 (.inr hfound))⟩

/-- Not every provision that succeeds writes a pull secret last. -/
theorem provision_not_always_pull_secret :
    ¬ ∀ token steps stored, Yields (provision token).run steps (.ok stored) →
      ∀ front last body, exchanges steps = front ++ [last] → last.request.body? = some body →
        IsPullSecret body := fun h =>
  not_isPullSecret_opaqueUpdate rfl
    (h _ _ _ yields_updatingOpaque beforeUpdate opaqueUpdate _ rfl rfl)

end PreviewInstaller.QuaySecret
