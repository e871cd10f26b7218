/-
# `Toolbar.Proofs.Service.Replies` — what becomes of a reply

A request has one of six courses.  It is lost; or the response has a status from 400 on, which is
404 or another one; or its body denotes no value, or a value of the wrong shape, or a value that is
what was asked for:

    reply                            result
    lost                             refused, DATASTORE_UNAVAILABLE
    status 404                       refused, DATASTORE_NOT_FOUND
    another status from 400 on       refused, DATASTORE_HTTP_ERROR
    below 400, the wrong shape       refused, DATASTORE_BAD_RESPONSE
    below 400, the right shape       answered
    below 400, no value              a fault of the reader

The message of a refusal may be any value that the body holds, and it always has a text, because
what is read has one (`exists_message`).  How deep a body is nested is bounded by the memory alone.

    Comes       which result comes of which reply
    Garbled     a response below 400 whose body denotes no value
    Escaped     a result that is a fault of the reader
-/
import Toolbar.Proofs.Service.Body
import Toolbar.Proofs.Value.Worded
import Toolbar.Service.Client

namespace Toolbar.Service

/-! ## Messages -/

/-- What a body denotes has a text. -/
theorem Body.worded_of_read {bytes : List UInt8} {v : Value} (h : Body.read bytes = .ok v) :
    v.Worded := by
  unfold Body.read at h
  split at h
  next => cases h
  next s _ =>
    cases hs : Value.Reader.read s with
    | error reason =>
        rw [hs] at h
        cases h
    | ok w =>
        rw [hs] at h
        cases h
        exact Value.Reader.worded_of_read hs

/-- A response always has a message. -/
theorem exists_message (r : Response) : ∃ message, r.message = .ok message := by
  unfold Response.message
  split
  next => exact ⟨_, rfl⟩
  next v hv =>
    split
    next e he =>
      have fault : (Value.map e).Worded := he ▸ (Body.worded_of_read hv).field "error"
      dsimp only
      split
      next => exact ⟨_, rfl⟩
      next => exact (fault.field "message").plainText
    next => exact ⟨_, rfl⟩

/-! ## Replies and results -/

variable {Answer : Value → Value → Prop} {use? : Value → Option Value}
  {complaint : String} {reply : Reply} {result : Except Failure Value}

/-- The six courses of a request, where `Answer body v` says that `v` is what was asked for when a
body denotes `body`, and `complaint` what is said of a body without an answer. -/
inductive Comes (Answer : Value → Value → Prop) (complaint : String) :
    Reply → Except Failure Value → Prop
  | lost {kind message : String} :
      Comes Answer complaint (.lost kind message) (.error (.store
        (.refused "DATASTORE_UNAVAILABLE" (if message.isEmpty then kind else message) none)))
  | missing {r : Response} {message : String} : r.status = 404 → r.message = .ok message →
      Comes Answer complaint (.response r) (.error (.store
        (.refused "DATASTORE_NOT_FOUND" message (some r.status))))
  | refused {r : Response} {message : String} : 400 ≤ r.status → r.status ≠ 404 →
      r.message = .ok message →
      Comes Answer complaint (.response r) (.error (.store
        (.refused "DATASTORE_HTTP_ERROR" message (some r.status))))
  | misshapen {r : Response} {body : Value} : r.status < 400 → Body.read r.body = .ok body →
      (¬ ∃ v, Answer body v) →
      Comes Answer complaint (.response r) (.error (.store
        (.refused "DATASTORE_BAD_RESPONSE" complaint none)))
  | answered {r : Response} {body v : Value} : r.status < 400 → Body.read r.body = .ok body →
      Answer body v → Comes Answer complaint (.response r) (.ok v)
  | garbled {r : Response} {reason : Body.Unreadable} : r.status < 400 →
      Body.read r.body = .error reason →
      Comes Answer complaint (.response r) (.error (.unreadable reason))

/-- A response below 400 with a body that denotes no value. -/
def Garbled (reply : Reply) : Prop :=
  ∃ r reason, reply = .response r ∧ r.status < 400 ∧ Body.read r.body = .error reason

/-- The result is a fault of the reader, and none of the service. -/
def Escaped (result : Except Failure Value) : Prop :=
  ∃ reason, result = .error (.unreadable reason)

/-- A body that denotes a value is answered or has the wrong shape. -/
theorem comes_fit (shape : ∀ body v, use? body = some v ↔ Answer body v) (complaint : String)
    {r : Response} {body : Value} (low : r.status < 400) (read : Body.read r.body = .ok body) :
    Comes Answer complaint (.response r) (fit use? complaint body) := by
  unfold fit
  cases huse : use? body with
  | some v => exact .answered low read ((shape body v).mp huse)
  | none =>
      refine .misshapen low read ?_
      rintro ⟨v, answer⟩
      rw [(shape body v).mpr answer] at huse
      cases huse

/-- Every reply takes its course. -/
theorem comes_answer (shape : ∀ body v, use? body = some v ↔ Answer body v) (complaint : String)
    (reply : Reply) : Comes Answer complaint reply (reply.answer use? complaint) := by
  cases reply with
  | lost kind message => exact .lost
  | response r =>
      obtain ⟨message, hmessage⟩ := exists_message r
      have refusal : ∀ code, r.refusal code = .store (.refused code message (some r.status)) := by
        intro code
        rw [Response.refusal, hmessage]
      unfold Reply.answer Reply.value
      dsimp only
      rw [refusal, refusal]
      split
      next missing => exact .missing missing hmessage
      next other =>
        split
        next high => exact .refused high other hmessage
        next low =>
          have below : r.status < 400 := Nat.lt_of_not_le low
          cases hread : Body.read r.body with
          | error reason => exact .garbled below hread
          | ok body => exact comes_fit shape complaint below hread

/-- The one course that leads to a fault of the reader. -/
theorem Comes.escaped_iff (h : Comes Answer complaint reply result) :
    Escaped result ↔ Garbled reply := by
  constructor
  · rintro ⟨reason, rfl⟩
    cases h with
    | garbled low read => exact ⟨_, reason, rfl, low, read⟩
  · rintro ⟨r, reason, rfl, low, read⟩
    cases h with
    | missing missing => omega
    | refused high => omega
    | misshapen _ read' | answered _ read' =>
        rw [read] at read'
        cases read'
    | garbled => exact ⟨_, rfl⟩

/-! ## Records and collections -/

/-- The record in a body: the map that it is. -/
def IsRecord (body v : Value) : Prop :=
  ∃ fields, body = .map fields ∧ v = .map fields

/-- The collection in a body: the list under `value`, with the link to its continuation. -/
def IsCollection (body v : Value) : Prop :=
  ∃ items, body.field "value" = .list items ∧
    v = .map [("entities", .list items), ("next_link", body.field "@odata.nextLink")]

theorem record?_eq_some_iff (body v : Value) : record? body = some v ↔ IsRecord body v := by
  constructor
  · intro h
    cases body with
    | map fields =>
        cases h
        exact ⟨fields, rfl, rfl⟩
    | _ => cases h
  · rintro ⟨fields, rfl, rfl⟩
    rfl

theorem collection?_eq_some_iff (body v : Value) :
    collection? body = some v ↔ IsCollection body v := by
  unfold collection? IsCollection
  constructor
  · intro h
    split at h
    next items list =>
      cases h
      exact ⟨items, list, rfl⟩
    next => cases h
  · rintro ⟨items, list, rfl⟩
    rw [list]

/-! ## Garbled replies -/

/-- An empty body and a page of markup denote no value, in whatever encoding. -/
theorem garbled_page {r : Response} (low : r.status < 400)
    (page : r.body = [] ∨ ∃ bs, r.body = 0x3C :: bs) : Garbled (.response r) := by
  have unread : ∃ reason, Body.read r.body = .error reason := by
    rcases page with empty | ⟨bs, opens⟩
    · rw [empty]
      exact ⟨.noValue .malformed, rfl⟩
    · rw [opens]
      exact Body.read_markup bs
  obtain ⟨reason, hread⟩ := unread
  exact ⟨r, reason, rfl, low, hread⟩

/-- A text in UTF-8 is garbled when it is no value of the record format. -/
theorem garbled_ofText_iff {status : Nat} {s : String} (noZero : '\x00' ∉ s.toList)
    (noMark : s.toList.head? ≠ some (Char.ofNat 0xFEFF)) :
    Garbled (.response (.ofText status s)) ↔
      status < 400 ∧ ∃ reason, Value.Reader.read s = .error reason := by
  have read : Body.read (Body.utf8 s) = (Value.Reader.read s).mapError .noValue := by
    rw [Body.read, Body.text?_utf8 noZero noMark]
  constructor
  · rintro ⟨_, reason, ⟨⟩, low, unread⟩
    change Body.read (Body.utf8 s) = _ at unread
    rw [read] at unread
    cases hs : Value.Reader.read s with
    | error why => exact ⟨low, why, rfl⟩
    | ok v =>
        rw [hs] at unread
        cases unread
  · rintro ⟨low, why, unread⟩
    refine ⟨_, .noValue why, rfl, low, ?_⟩
    change Body.read (Body.utf8 s) = _
    rw [read, unread]
    rfl

/-! ## Requests -/

/-- **Every reply is accounted for.**  For every record and every query, and whatever comes back, the
request is lost, refused or answered, or its answer has the wrong shape, and each of these has its
result; unless a response below 400 has a body that denotes no value, and then, and only then, the
result is a fault that is none of the service. -/
theorem replies_accounted (c : Client) (send : Request → Reply) (entity id query : String) :
    (Comes IsRecord "record body must be object" (send (c.recordRequest entity id))
        (c.retrieveRecord send entity id) ∧
      (Escaped (c.retrieveRecord send entity id) ↔ Garbled (send (c.recordRequest entity id)))) ∧
    Comes IsCollection "collection body must contain value list"
        (send (c.collectionRequest entity query)) (c.retrieveCollection send entity query) ∧
      (Escaped (c.retrieveCollection send entity query) ↔
        Garbled (send (c.collectionRequest entity query))) := by
  have record : Comes IsRecord _ (send (c.recordRequest entity id))
      (c.retrieveRecord send entity id) := comes_answer record?_eq_some_iff _ _
  have collection : Comes IsCollection _ (send (c.collectionRequest entity query))
      (c.retrieveCollection send entity query) := comes_answer collection?_eq_some_iff _ _
  exact ⟨⟨record, record.escaped_iff⟩, collection, collection.escaped_iff⟩

/-- A service without overrides. -/
def org : Client :=
  .connect "https://org.example.com/api/data/v9.2" none []

/-- It answers with a page to sign in on. -/
def signIn (_ : Request) : Reply :=
  .response (.ofText 200 "<html>Sign in</html>")

/-- It answers with a record that is cut off. -/
def cutOff (_ : Request) : Reply :=
  .response (.ofText 200 "\x7b\"name\": \"Ac")

/-- Out of both requests gets a fault of the reader. -/
theorem signIn_escapes :
    Escaped (org.retrieveRecord signIn "account" "a1") ∧
    Escaped (org.retrieveCollection signIn "account" "") ∧
    Escaped (org.retrieveRecord cutOff "account" "a1") := by
  obtain ⟨⟨-, record⟩, -, collection⟩ := replies_accounted org signIn "account" "a1" ""
  obtain ⟨⟨-, cut⟩, -⟩ := replies_accounted org cutOff "account" "a1" ""
  have page : Garbled (signIn (org.recordRequest "account" "a1")) :=
    garbled_page (by decide) (.inr ⟨_, rfl⟩)
  have unread : (Value.Reader.read "\x7b\"name\": \"Ac").toOption.isNone = true := by
    decide +kernel
  have half : Garbled (cutOff (org.recordRequest "account" "a1")) := by
    refine (garbled_ofText_iff (by decide +kernel) (by decide +kernel)).mpr ⟨by decide, ?_⟩
    cases h : Value.Reader.read "\x7b\"name\": \"Ac" with
    | error reason => exact ⟨reason, rfl⟩
    | ok v =>
        rw [h] at unread
        cases unread
  exact ⟨record.mpr page, collection.mpr page, cut.mpr half⟩

end Toolbar.Service
