/-
# `Toolbar.Event.Basic` — what an event must look like

An event is a map with a name, a payload and meta data.  The payload must have a canonical text, and
for the two events of the host it names the record or the control.  The meta data hold an id, the
instant in universal time, an optional source and the version of this layout.  The first thing that
is wrong, in the order of the definitions, is the one that is reported.
-/
import Toolbar.Calendar.Iso
import Toolbar.Value.Canonical

namespace Toolbar.Event

/-- The event that a record was saved. -/
def recordSaved : String := "record.saved"

/-- The event that a control was taken down. -/
def controlDestroyed : String := "control.destroyed"

/-- The version of the layout. -/
def layoutVersion : String := "1"

/-- What is wrong with an event. -/
inductive Invalid where
  | event
  | name
  | payload
  | payloadText (fault : Fault)
  | payloadField (key : String)
  | metaMap
  | eventId
  | occurredAt
  | source
  | version
deriving DecidableEq, Repr

namespace Invalid

/-- The code that callers see. -/
def code : Invalid → String
  | event => "EVENT_INVALID"
  | name => "EVENT_NAME_INVALID"
  | payload | payloadText _ => "PAYLOAD_INVALID"
  | payloadField _ => "PAYLOAD_FIELD_INVALID"
  | metaMap => "META_INVALID"
  | eventId => "META_EVENT_ID_INVALID"
  | occurredAt => "META_OCCURRED_AT_INVALID"
  | source => "META_SOURCE_INVALID"
  | version => "META_SCHEMA_VERSION_INVALID"

/-- The wording. -/
def message : Invalid → String
  | event => "event must be object"
  | name => "name must be non-empty string"
  | payload => "payload must be an object"
  | payloadText fault => fault.message
  | payloadField key => key ++ " must be string"
  | metaMap => "meta must be object"
  | eventId => "event_id must be string"
  | occurredAt => "occurred_at must be an ISO8601 UTC stamp ending in 'Z'"
  | source => "source must be string or null"
  | version => "schema_version must be '" ++ layoutVersion ++ "'"

/-- Where it is wrong; the event itself has no path. -/
def path? : Invalid → Option String
  | event => none
  | name => some "name"
  | payload | payloadText _ => some "payload"
  | payloadField key => some ("payload." ++ key)
  | metaMap => some "meta"
  | eventId => some "meta.event_id"
  | occurredAt => some "meta.occurred_at"
  | source => some "meta.source"
  | version => some "meta.schema_version"

end Invalid

/-- The keys of a payload that must hold texts, by the name of the event. -/
def payloadKeys (name : String) : List String :=
  if name == recordSaved then ["entity", "record_id"]
  else if name == controlDestroyed then ["control_id"]
  else []

/-- Whether a text is an instant in universal time: it ends in `Z`, and what stands before it is a
stamp when an offset of zero follows. -/
def isUniversal (s : String) : Bool :=
  match s.toList.reverse with
  | 'Z' :: rest =>
      (Calendar.Iso.readStamp? (String.ofList (rest.reverse ++ "+00:00".toList))).isSome
  | _ => false

/-- Fails unless a condition holds. -/
def require (condition : Bool) (otherwise : Invalid) : Except Invalid Unit :=
  if condition then .ok () else .error otherwise

def isText (v : Value) : Bool :=
  v.text?.isSome

/-- The first of the keys whose field is no text. -/
def missingText? (fields : Value) (keys : List String) : Option String :=
  keys.find? fun k => !isText (fields.field k)

def checkPayload (name : String) (payload : Value) : Except Invalid Unit := do
  require payload.fields?.isSome .payload
  match payload.canonical with
  | .error fault => .error (.payloadText fault)
  | .ok _ => pure ()
  match missingText? payload (payloadKeys name) with
  | some key => .error (.payloadField key)
  | none => pure ()

def checkMeta (metaData : Value) : Except Invalid Unit := do
  require metaData.fields?.isSome .metaMap
  require (isText (metaData.field "event_id")) .eventId
  require ((metaData.field "occurred_at").text?.any isUniversal) .occurredAt
  let source := metaData.field "source"
  require (source.isNull || isText source) .source
  require ((metaData.field "schema_version").text? == some layoutVersion) .version

/-- The name of a valid event. -/
def validate (event : Value) : Except Invalid String := do
  require event.fields?.isSome .event
  match event.field "name" with
  | .text name =>
      require (!name.isEmpty) .name
      checkPayload name (event.field "payload")
      checkMeta (event.field "meta")
      return name
  | _ => .error .name

/-- A valid event has the name that it is published under. -/
theorem field_of_validate {event : Value} {name : String} (valid : validate event = .ok name) :
    event.field "name" = .text name := by
  obtain ⟨-, -, named⟩ := bind_eq_ok.mp valid
  split at named
  next name' hname =>
    -- the checks behind the name do not change it
    obtain ⟨-, -, checked⟩ := bind_eq_ok.mp named
    obtain ⟨-, -, checked⟩ := bind_eq_ok.mp checked
    obtain ⟨-, -, checked⟩ := bind_eq_ok.mp checked
    cases checked
    exact hname
  next => cases named

/-- The meta data of a new event before what the caller gives is set. -/
def freshMeta (id now : String) : Fields :=
  [("event_id", .text id), ("occurred_at", .text now), ("source", .null),
    ("schema_version", .text layoutVersion)]

/-- A new event with an id and an instant, valid; the given meta data win over the fresh ones. -/
def make (id now : String) (name payload : Value) (metaData : Value) : Except Invalid Value := do
  let given ← match metaData with
    | .null => pure []
    | .map fields => pure fields
    | _ => .error .metaMap
  let event := Value.map [("name", name), ("payload", payload),
    ("meta", .map (Fields.update (freshMeta id now) given))]
  let _ ← validate event
  return event

end Toolbar.Event
