import PreviewInstaller.Codec
import PreviewInstaller.Json.Reader
import PreviewInstaller.Text.Quoted

set_option autoImplicit false

/-! # Replies of the cluster

A request is answered with a status and bytes, or its transport fails. A status from 400 on is a
refusal, whose reasons the body gives; under any other status the body has to be the object that
was asked for. -/

namespace PreviewInstaller.Cluster

/-- What a request is answered with. -/
inductive Reply where
  | response (status : Nat) (body : List UInt8)
  /-- The service that carries requests failed. -/
  | serviceFailure (text : String)
  /-- No connection was made. -/
  | connectionFailure (text : String)
deriving DecidableEq, Repr

/-! ## Refusals -/

/-- Why the cluster refuses a request. -/
structure Refusal where
  status : String
  message : String
  reason : String
  code : UInt16
deriving DecidableEq, Repr

/-- The text of a refusal: its message and reason, and then all of it. -/
def Refusal.text (refusal : Refusal) : String :=
  refusal.message ++ ": " ++ refusal.reason ++ " (ErrorResponse \x7b status: " ++
    Text.quoted refusal.status ++ ", message: " ++ Text.quoted refusal.message ++
    ", reason: " ++ Text.quoted refusal.reason ++ ", code: " ++
    toString refusal.code.toNat ++ " \x7d)"

/-- The code of a refusal, an integer of 16 bits. -/
def codeOf? (json : Json) : Option UInt16 := do
  let value ← json.integer?
  if 0 ≤ value ∧ value.toNat < UInt16.size then some (UInt16.ofNat value.toNat) else none

/-- The value of the only member with a key; `none` if there is none. Two such members have no
reading. -/
def only? (key : String) (members : List (String × Json)) : Option (Option Json) :=
  match members.filter (·.1 = key) with
  | [] => some none
  | [(_, value)] => some (some value)
  | _ => none

/-- The text under a key, and the empty text where there is none. -/
def optionalText? (key : String) (members : List (String × Json)) : Option String := do
  match ← only? key members with
  | none => some ""
  | some value => value.text?

/-- The refusal that a body describes: an object with status and code, or an array of the four
parts in order. -/
def Refusal.ofJson? : Json → Option Refusal
  | .object members => do
    let status ← (← (← only? "status" members)).text?
    let message ← optionalText? "message" members
    let reason ← optionalText? "reason" members
    let code ← codeOf? (← (← only? "code" members))
    return ⟨status, message, reason, code⟩
  | .array [status, message, reason, code] => do
    return ⟨← status.text?, ← message.text?, ← reason.text?, ← codeOf? code⟩
  | _ => none

/-- The reason phrases of the statuses that refuse. -/
def reasonPhrases : List (Nat × String) :=
  [(400, "Bad Request"), (401, "Unauthorized"), (402, "Payment Required"), (403, "Forbidden"),
   (404, "Not Found"), (405, "Method Not Allowed"), (406, "Not Acceptable"),
   (407, "Proxy Authentication Required"), (408, "Request Timeout"), (409, "Conflict"),
   (410, "Gone"), (411, "Length Required"), (412, "Precondition Failed"),
   (413, "Payload Too Large"), (414, "URI Too Long"), (415, "Unsupported Media Type"),
   (416, "Range Not Satisfiable"), (417, "Expectation Failed"), (418, "I'm a teapot"),
   (421, "Misdirected Request"), (422, "Unprocessable Entity"), (423, "Locked"),
   (424, "Failed Dependency"), (426, "Upgrade Required"), (428, "Precondition Required"),
   (429, "Too Many Requests"), (431, "Request Header Fields Too Large"),
   (451, "Unavailable For Legal Reasons"), (500, "Internal Server Error"),
   (501, "Not Implemented"), (502, "Bad Gateway"), (503, "Service Unavailable"),
   (504, "Gateway Timeout"), (505, "HTTP Version Not Supported"),
   (506, "Variant Also Negotiates"), (507, "Insufficient Storage"), (508, "Loop Detected"),
   (510, "Not Extended"), (511, "Network Authentication Required")]

/-- A status with its reason phrase. -/
def statusText (status : Nat) : String :=
  toString status ++ " " ++ (reasonPhrases.lookup status).getD "<unknown status code>"

/-- The refusal under a status whose body does not describe one. -/
def Refusal.undescribed (status : Nat) (body : String) : Refusal where
  status := statusText status
  message := Text.quoted body
  reason := "Failed to parse error data"
  code := UInt16.ofNat status

/-! ## Faults -/

/-- Why a request did not yield what was asked for. -/
inductive ClientFault where
  | refused (refusal : Refusal)
  | service (text : String)
  | connection (text : String)
  | notUtf8 (fault : Text.Utf8Fault)
  /-- The body is not the object that was asked for. -/
  | undecodable
  /-- The uri of the request would hold a byte that it cannot. -/
  | unbuildable
  /-- There is no cluster to talk to. -/
  | noConfiguration (text : String)
deriving DecidableEq, Repr

namespace ClientFault

/-- The text of a fault. -/
def message : ClientFault → String
  | .refused refusal => "ApiError: " ++ refusal.text
  | .service text => "ServiceError: " ++ text
  | .connection text => "HyperError: " ++ text
  | .notUtf8 fault => "UTF-8 Error: " ++ fault.message
  | .undecodable => "Error deserializing response"
  | .unbuildable =>
    "Failed to build request: failed to build request: invalid uri character"
  | .noConfiguration text => "Failed to infer configuration: " ++ text

/-- The fault of a program that runs outside of any cluster and finds no file at the path where a
configuration would be. -/
def missingKubeconfig (path : String) : ClientFault :=
  .noConfiguration ("failed to infer config: in-cluster: (failed to read an incluster " ++
    "environment variable: environment variable not found), kubeconfig: (failed to read " ++
    "kubeconfig from '" ++ Text.quoted path ++ "': No such file or directory (os error 2))")

/-- Whether a fault says that the object does not exist. -/
def isNotFound : ClientFault → Bool
  | .refused refusal => refusal.code = 404
  | _ => false

end ClientFault

/-! ## Reading replies -/

/-- Whether a status refuses. -/
def isRefusal (status : Nat) : Bool :=
  400 ≤ status && status < 600

/-- The object that a text holds. -/
def decodeText {α : Type} (codec : Codec α) (text : List Char) : Except ClientFault α :=
  match (Json.parse? text).bind codec.read with
  | some value => .ok value
  | none => .error .undecodable

/-- The object that a reply carries. -/
def Reply.decode {α : Type} (codec : Codec α) : Reply → Except ClientFault α
  | .serviceFailure text => .error (.service text)
  | .connectionFailure text => .error (.connection text)
  | .response status body =>
    match Text.decodeUtf8 body with
    | .error fault => .error (.notUtf8 fault)
    | .ok text =>
      if isRefusal status then
        .error (.refused (((Json.parse? text).bind Refusal.ofJson?).getD
          (.undescribed status (String.ofList text))))
      else decodeText codec text

end PreviewInstaller.Cluster
