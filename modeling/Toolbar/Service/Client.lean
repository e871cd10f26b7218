/-
# `Toolbar.Service.Client` — records from a web service

A record is asked for by the plural name of its entity and its id, a collection by the plural name
and a query.  A reply with a status from 400 on is refused with the message that its body holds, or
else its text, or else the phrase of the status.  Below 400 the body must be a value of the record
format; one that is none is a fault of its own, not of the service.
-/
import Toolbar.Service.Body
import Toolbar.Store.Fault
import Toolbar.Text.Blank
import Toolbar.Text.Search
import Toolbar.Value.Display

namespace Toolbar.Service

open Text

/-- The plural name of an entity: given, or made by the rules for `y` and for sibilants. -/
def entitySet (overrides : List (String × String)) (entity : String) : String :=
  match overrides.lookup entity with
  | some name => name
  | none =>
      let cs := entity.toList
      match cs.reverse with
      | 'y' :: c :: _ =>
          if "aeiou".toList.contains c then entity ++ "s"
          else String.ofList cs.dropLast ++ "ies"
      | _ =>
          if ["s", "x", "z", "ch", "sh"].any fun e => endsWith e.toList cs then entity ++ "es"
          else entity ++ "s"

/-- A service with its address and what is sent along with each request. -/
structure Client where
  baseUrl : String
  token : Option String := none
  entitySets : List (String × String) := []

/-- A client for an address; slashes at its end are left out. -/
def Client.connect (url : String) (token : Option String) (entitySets : List (String × String)) :
    Client :=
  ⟨String.ofList (stripEndBy (· == '/') url.toList), token.filter (!·.isEmpty), entitySets⟩

/-- The headers of a request. -/
def Client.headers (c : Client) : List (String × String) :=
  [("Accept", "application/json"), ("OData-Version", "4.0"), ("OData-MaxVersion", "4.0"),
    ("Prefer", "odata.include-annotations=\"*\"")]
    ++ (match c.token with
        | some t => [("Authorization", "Bearer " ++ t)]
        | none => [])

/-- The address of a record; braces around its id are left out. -/
def Client.recordUrl (c : Client) (entity id : String) : String :=
  let plainId := String.ofList (stripBy (fun ch => ch == '\x7b' || ch == '\x7d') id.toList)
  c.baseUrl ++ "/" ++ entitySet c.entitySets entity ++ "(" ++ plainId ++ ")"

/-- The address of a collection; a query is led in by a question mark. -/
def Client.collectionUrl (c : Client) (entity query : String) : String :=
  let query := if query.isEmpty || query.toList.head? == some '?' then query else "?" ++ query
  c.baseUrl ++ "/" ++ entitySet c.entitySets entity ++ query

/-- What is sent to a service. -/
structure Request where
  url : String
  headers : List (String × String)
deriving DecidableEq, Repr

def Client.recordRequest (c : Client) (entity id : String) : Request :=
  ⟨c.recordUrl entity id, c.headers⟩

def Client.collectionRequest (c : Client) (entity query : String) : Request :=
  ⟨c.collectionUrl entity query, c.headers⟩

/-- The phrases of the statuses from 400 on. -/
def phrases : List (Nat × String) :=
  [(400, "Bad Request"), (401, "Unauthorized"), (402, "Payment Required"), (403, "Forbidden"),
    (404, "Not Found"), (405, "Method Not Allowed"), (406, "Not Acceptable"),
    (407, "Proxy Authentication Required"), (408, "Request Timeout"), (409, "Conflict"),
    (410, "Gone"), (411, "Length Required"), (412, "Precondition Failed"),
    (413, "Request Entity Too Large"), (414, "Request-URI Too Long"),
    (415, "Unsupported Media Type"), (416, "Requested Range Not Satisfiable"),
    (417, "Expectation Failed"), (418, "I'm a teapot"), (421, "Misdirected Request"),
    (422, "Unprocessable Entity"), (423, "Locked"), (424, "Failed Dependency"),
    (425, "Too Early"), (426, "Upgrade Required"), (428, "Precondition Required"),
    (429, "Too Many Requests"), (431, "Request Header Fields Too Large"),
    (451, "Unavailable For Legal Reasons"), (500, "Internal Server Error"),
    (501, "Not Implemented"), (502, "Bad Gateway"), (503, "Service Unavailable"),
    (504, "Gateway Timeout"), (505, "HTTP Version Not Supported"),
    (506, "Variant Also Negotiates"), (507, "Insufficient Storage"), (508, "Loop Detected"),
    (510, "Not Extended"), (511, "Network Authentication Required")]

/-- The phrase of a status, empty for one without. -/
def phrase (status : Nat) : String :=
  (phrases.lookup status).getD ""

/-- A response: its status, the phrase that stands for it, its body, and the text that is shown for
the body when it is no value. -/
structure Response where
  status : Nat
  phrase : String
  body : List UInt8
  text : String
deriving DecidableEq, Repr

/-- A response with a text in UTF-8. -/
def Response.ofText (status : Nat) (text : String) : Response :=
  ⟨status, Service.phrase status, Body.utf8 text, text⟩

/-- What comes back for a request. -/
inductive Reply where
  | response (r : Response)
  /-- The request did not get through, for a reason of some kind. -/
  | lost (kind message : String)
deriving DecidableEq, Repr

/-- Why a request has no result. -/
inductive Failure where
  | store (fault : StoreFault)
  | unreadable (reason : Body.Unreadable)
  /-- The message in a response has no text. -/
  | textless (fault : Fault)
deriving DecidableEq, Repr

/-- The message of a response that tells of a fault. -/
def Response.message (r : Response) : Except Fault String :=
  match Body.read r.body with
  | .error _ => .ok (if r.text.isEmpty then r.phrase else r.text)
  | .ok v =>
      match v.field "error" with
      | .map e =>
          let m := (Fields.get? "message" e).getD .null
          if m.isVacant then .ok r.phrase else m.plainText
      | _ => .ok r.phrase

/-- The refusal of a response that tells of a fault. -/
def Response.refusal (r : Response) (code : String) : Failure :=
  match r.message with
  | .ok message => .store (.refused code message (some r.status))
  | .error f => .textless f

/-- The value in a reply. -/
def Reply.value : Reply → Except Failure Value
  | .lost kind message =>
      .error (.store (.refused StoreFault.unavailableCode
        (if message.isEmpty then kind else message) none))
  | .response r =>
      if r.status = 404 then .error (r.refusal StoreFault.notFoundCode)
      else if 400 ≤ r.status then .error (r.refusal StoreFault.statusCode)
      else (Body.read r.body).mapError .unreadable

/-- What is made of the value of a body; a value of the wrong shape is refused. -/
def fit (use? : Value → Option Value) (complaint : String) (body : Value) : Except Failure Value :=
  match use? body with
  | some v => .ok v
  | none => .error (.store (.refused StoreFault.badAnswerCode complaint none))

/-- What is made of a reply. -/
def Reply.answer (use? : Value → Option Value) (complaint : String) (reply : Reply) :
    Except Failure Value := do
  fit use? complaint (← reply.value)

/-- A record is a map. -/
def record? : Value → Option Value
  | .map fields => some (.map fields)
  | _ => none

/-- A collection is a list in a map, with the link to its continuation. -/
def collection? (body : Value) : Option Value :=
  match body.field "value" with
  | .list items =>
      some (.map [("entities", .list items), ("next_link", body.field "@odata.nextLink")])
  | _ => none

/-- A record, over a network that answers requests. -/
def Client.retrieveRecord (c : Client) (send : Request → Reply) (entity id : String) :
    Except Failure Value :=
  (send (c.recordRequest entity id)).answer record? "record body must be object"

/-- The records that a query selects, over a network that answers requests. -/
def Client.retrieveCollection (c : Client) (send : Request → Reply) (entity query : String) :
    Except Failure Value :=
  (send (c.collectionRequest entity query)).answer collection?
    "collection body must contain value list"

end Toolbar.Service
