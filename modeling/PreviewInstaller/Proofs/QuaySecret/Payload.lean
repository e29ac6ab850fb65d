import PreviewInstaller.Proofs.Cluster.Object
import PreviewInstaller.Proofs.Cluster.Reply
import PreviewInstaller.Proofs.QuaySecret.Dialogue
import PreviewInstaller.Proofs.QuaySecret.Token

set_option autoImplicit false

/-! # Payloads

What a provision writes into the secret. Main statement: whatever the cluster answers, each body
holds the token as it was given, without its line breaks, as the one entry of the data; a creation
says nothing more than it has to, and an update says of everything else what the search told. -/

namespace PreviewInstaller.QuaySecret

open Cluster Codec
open Procedure (Step Yields exchanges)

variable {dockerConfig : List UInt8}

/-! ## Members -/

/-- The members with the keys that are picked. -/
def pick (picks : String → Bool) (members : List (String × Json)) : List (String × Json) :=
  members.filter fun member => picks member.1

@[simp]
theorem pick_nil (picks : String → Bool) : pick picks [] = [] := rfl

@[simp]
theorem pick_cons (picks : String → Bool) (member : String × Json)
    (members : List (String × Json)) : pick picks (member :: members) =
      if picks member.1 then member :: pick picks members else pick picks members :=
  List.filter_cons

@[simp]
theorem pick_append (picks : String → Bool) (front back : List (String × Json)) :
    pick picks (front ++ back) = pick picks front ++ pick picks back :=
  List.filter_append ..

@[simp]
theorem write_optional_none {α : Type} (key : String) (codec : Codec α) :
    (Fields.optional key codec).write none = [] := rfl

@[simp]
theorem write_optional_some {α : Type} (key : String) (codec : Codec α) (value : α) :
    (Fields.optional key codec).write (some value) = [(key, codec.write value)] := rfl

/-- A field is picked with its key, whether it is set or not. -/
@[simp]
theorem pick_optional {α : Type} (picks : String → Bool) (key : String) (codec : Codec α)
    (value : Option α) : pick picks ((Fields.optional key codec).write value) =
      if picks key then (Fields.optional key codec).write value else [] := by
  cases value <;> simp

/-- The members that a secret is written as. -/
def members (secret : Secret) : List (String × Json) :=
  [("apiVersion", .text "v1"), ("kind", .text "Secret")] ++
    ((Fields.optional "data" (map bytes)).write secret.data ++
      ((Fields.optional "immutable" bool).write secret.immutable ++
        (("metadata", Metadata.codec.write secret.metadata) ::
          ((Fields.optional "stringData" (map text)).write secret.stringData ++
            (Fields.optional "type" text).write secret.type))))

theorem write_eq (secret : Secret) : Secret.codec.write secret = .object (members secret) := rfl

/-- Whether a key belongs neither to the data of a secret nor to its texts. -/
def isOther (key : String) : Bool :=
  key ≠ "data" && key ≠ "stringData"

/-- The data of a secret and its texts are members of their own. -/
theorem pick_isOther_members (secret : Secret) (data : Option (TextMap (List UInt8)))
    (stringData : Option Texts) :
    pick isOther (members { secret with data, stringData }) = pick isOther (members secret) := by
  simp [members, isOther]

/-! ## Bodies with a token -/

/-- The data that hold a token. -/
def tokenData (token : String) : Json :=
  .object [(dockerConfigKey, .text (String.ofList (unwrapped token)))]

/-- The data among the members are a token without its line breaks, and nothing else; and there are
no texts beside them. -/
structure CarryToken (token : String) (members : List (String × Json)) : Prop where
  data : pick (· = "data") members = [("data", tokenData token)]
  stringData : pick (· = "stringData") members = []

/-- The data that are written for an accepted token are the token. -/
theorem write_dockerConfigData {token : String} (h : decodeToken token = .ok dockerConfig) :
    (map bytes).write (dockerConfigData dockerConfig) = tokenData token := by
  rw [tokenData, (decodeToken_eq_ok_iff.1 h).2, String.ofList_toList]
  rfl

theorem carryToken_members {token : String} (h : decodeToken token = .ok dockerConfig)
    (secret : Secret) (hdata : secret.data = some (dockerConfigData dockerConfig))
    (hstringData : secret.stringData = none) : CarryToken token (members secret) := by
  constructor
  · simp [members, hdata, hstringData, write_dockerConfigData h]
  · simp [members, hdata, hstringData]

/-! ## Writes of the secret -/

/-- A write of the secret that carries a token, sent after these exchanges. -/
inductive WritesToken (token : String) (front : List Exchange) : Request → Prop where
  /-- A creation says the names, the type and the token. -/
  | creation {members : List (String × Json)} (hcarry : CarryToken token members)
      (hmembers : members = [("apiVersion", .text "v1"), ("kind", .text "Secret"),
        ("data", tokenData token),
        ("metadata", .object [("name", .text secretName), ("namespace", .text secretNamespace)]),
        ("type", .text dockerConfigType)]) :
      WritesToken token front (.create secrets (.object members))
  /-- An update comes right behind the search that found the secret. It differs from what was found
  in the data and the texts alone, both as it is written and as it is read. -/
  | update {before : List Exchange} {search : Reply} {found sent : Secret}
      {members kept : List (String × Json)} (hfront : front = before ++ [⟨secretSearch, search⟩])
      (hfound : search.decode Secret.codec = .ok found) (hcarry : CarryToken token members)
      (hkept : Secret.codec.write found = .object kept)
      (hmembers : pick isOther members = pick isOther kept)
      (hsent : Secret.codec.read (.object members) = some sent)
      (hfields : sent.metadata = found.metadata ∧ sent.type = found.type ∧
        sent.immutable = found.immutable) :
      WritesToken token front (.replace secrets secretName (.object members))

theorem writesToken_creation {token : String} (h : decodeToken token = .ok dockerConfig)
    (front : List Exchange) : WritesToken token front (secretCreation dockerConfig) := by
  refine .creation (carryToken_members h (createdSecret dockerConfig) rfl rfl) ?_
  rw [← write_dockerConfigData h]
  rfl

theorem writesToken_update {token : String} (h : decodeToken token = .ok dockerConfig)
    {before : List Exchange} {search : Reply} {found : Secret}
    (hfound : search.decode Secret.codec = .ok found) :
    WritesToken token (before ++ [⟨secretSearch, search⟩]) (secretUpdate dockerConfig found) :=
  .update rfl hfound (carryToken_members h (updatedSecret found dockerConfig) rfl rfl)
    (write_eq found) (pick_isOther_members found _ _)
    (Secret.lawful_codec.read_write (updatedSecret found dockerConfig)) ⟨rfl, rfl, rfl⟩

/-- Whatever the cluster answers, every write of a secret carries the token. -/
theorem provision_writes_token {token : String} {steps : List Step} {result : Except Error Secret}
    (h : Yields (provision token).run steps result) {front rest : List Exchange}
    {exchange : Exchange} (htalk : exchanges steps = front ++ exchange :: rest)
    {namespaceName : String} (hsecret : exchange.request.collection = .secrets namespaceName)
    (hmethod : exchange.request.method = "POST" ∨ exchange.request.method = "PUT") :
    WritesToken token front exchange.request := by
  cases htoken : decodeToken token with
  | error error =>
    rw [run_provision_rejected htoken] at h
    obtain ⟨rfl, -⟩ := Procedure.yields_done_iff.1 h
    simp at htalk
  | ok dockerConfig =>
    have hdialogue := (concludes_of_yields htoken h).1
    rw [htalk] at hdialogue
    obtain ⟨request, reply⟩ := exchange
    -- the searches are no writes, and the namespace is no secret
    have hwrite : IsSecretWrite dockerConfig request := by
      rcases hdialogue.request_of_mem ⟨request, reply⟩ (by simp) with hfirst | ⟨other, hother⟩
      · cases hfirst
        cases hsecret
      · rcases request_of_next? hother with hsearch | hcreation | hwrite
        · cases hsearch
          simp [Request.method] at hmethod
        · cases hcreation
          cases hsecret
        · exact hwrite
    rcases hwrite with rfl | ⟨found, rfl⟩
    · exact writesToken_creation htoken front
    · obtain ⟨before, search, found', rfl, hfound, hupdate⟩ := hdialogue.search_of_replace
      rw [show secretUpdate dockerConfig found = secretUpdate dockerConfig found' from hupdate]
      exact writesToken_update htoken hfound

/-- A secret that has other data, and texts and a label of its own. -/
def labelledSecret : Secret where
  data := some (TextMap.singleton "old" [1, 2, 3])
  metadata := { labels := some (TextMap.singleton "team" "qe"), resourceVersion := some "7" }
  stringData := some (TextMap.singleton "note" "text")

/-- The update of such a secret carries a token that is wrapped into lines. -/
theorem provision_writes_token_wrapped :
    let searched := tellingReply Namespace.codec freshNamespace
    let read := tellingReply Secret.codec labelledSecret
    let refused := Reply.response 409 []
    let update := secretUpdate [97, 98, 99] labelledSecret
    let steps : List Step :=
      [⟨.send namespaceSearch, searched⟩, ⟨.send secretSearch, read⟩, ⟨.send update, refused⟩]
    let front : List Exchange := [⟨namespaceSearch, searched⟩, ⟨secretSearch, read⟩]
    (∃ result, Yields (provision "YW\nJj").run steps result) ∧
      exchanges steps = front ++ [⟨update, refused⟩] ∧ update.collection = secrets ∧
      update.method = "PUT" ∧ WritesToken "YW\nJj" front update := by
  intro searched read refused update steps front
  have htoken : decodeToken "YW\nJj" = .ok [97, 98, 99] := by decide
  have hyields := yields_failed_update htoken
    (decode_tellingReply Namespace.lawful_codec freshNamespace)
    (decode_tellingReply Secret.lawful_codec labelledSecret)
    (show refused.decode Secret.codec = .error (.refused (.undescribed 409 "")) from rfl)
  have hwrites := provision_writes_token hyields
    (show exchanges steps = front ++ [⟨update, refused⟩] from rfl) rfl (.inr rfl)
  exact ⟨⟨_, hyields⟩, rfl, rfl, rfl, hwrites⟩

end PreviewInstaller.QuaySecret
