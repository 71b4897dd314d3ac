/-
OpenSsp/Webhooks/Machine.lean

Wallets register and delete webhooks, and a worker delivers events to them (`webhooks.rs`).

A statement of the database takes effect whole or not at all.  Requests change while programs run,
and so do the tables of the other modules; the replies of wallets and of the name service are
arbitrary.
-/
import OpenSsp.Deployment
import OpenSsp.Lib.Calls
import OpenSsp.Lib.Machine
import OpenSsp.Webhooks.Db

namespace OpenSsp.Webhooks

open Interleave

/-! ### Inputs and calls -/

/-- A parsed URL. -/
structure Url where
  text : String
  scheme : String
  host : Option String
  username : String
  password : Option String
  fragment : Option String

structure WebhookInput where
  url : Option String
  secret : Option String
  /-- The entries of the array that are strings, and the others. -/
  eventTypes : Option (List (Option String))

/-- The third-party code that is used, and whether local addresses are allowed. -/
structure Service where
  allowLocal : Bool
  parse : String → Option Url
  /-- HMAC-SHA256 of the body, in hexadecimal. -/
  signature : String → Payload → String

inductive Query where
  | registerWebhook (w : Webhook)
  | listWebhooks (owner : String)
  | deleteWebhook (owner id : String)
  | due
  | updateDelivery (event webhook : String) (delay : Nat) (delivered : Bool)
      (error : Option String)

@[reducible] def Query.Out : Query → Type
  | listWebhooks _ => List (String × String × List EventType)
  | deleteWebhook .. => Bool
  | due => List Db.Due
  | _ => Unit

/-- What the webhooks ask of the outside. -/
inductive Call where
  | newUuid
  | db (q : Query)
  /-- `client_for`: look up the host, and refuse addresses that are not public. -/
  | clientFor (url : Url)
  /-- Post the body; the reply is the status. -/
  | post (url : Url) (signature event : String) (body : Payload)

@[reducible] def Call.Reply : Call → Type
  | newUuid => Uuid
  | db q => Except String q.Out
  | clientFor _ => Except String Unit
  | post .. => Except String Nat

@[reducible] def Api : Interface := ⟨Call, Call.Reply⟩

/-- A function of the source: it can call, and fail with a text. -/
abbrev Ssp (α : Type) := Act Api String α

def tell (c : Call) : Ssp c.Reply := Act.tell (I := Api) c

def db (q : Query) : Ssp q.Out := Act.ask (I := Api) (.db q) id

/-- The host of the URL is looked up, and its addresses are judged. -/
def clientFor (url : Url) : Ssp Unit := Act.ask (I := Api) (.clientFor url) id

/-- A post of a payload, answered with its status. -/
def post (url : Url) (signature event : String) (body : Payload) : Ssp Nat :=
  Act.ask (I := Api) (.post url signature event body) fun r =>
    r.mapError fun _ => "webhook transport failed"

/-! ### Webhooks of a wallet -/

variable (C : Service)

/-- A URL that a webhook may have. -/
def parseUrl (raw : String) : Except String Url := do
  if 2048 < raw.utf8ByteSize then throw "webhook URL is too long"
  let url ← okOr "invalid webhook URL" (C.parse raw)
  if ¬ (url.scheme = "https" ∨ C.allowLocal ∧ url.scheme = "http") ∨ url.host.isNone ∨
      url.username ≠ "" ∨ url.password.isSome ∨ url.fragment.isSome then
    throw "webhook needs an HTTPS URL without credentials or a fragment"
  return url

/-- The events a webhook can be registered for. -/
def EventType.all : List EventType :=
  [lightningReceiveFinished, lightningSendFinished, coopExitFinished, staticDepositFinished]

/-- The type with this text. -/
def EventType.parse (text : String) : Option EventType := EventType.all.find? (·.text == text)

/-- The events of a registration: some, each known. -/
def eventTypes (input : Option (List (Option String))) : Except String (List EventType) := do
  let events ← okOr "webhook event_types required"
    (input.filter fun events => !events.isEmpty && events.length ≤ EventType.all.length)
  events.mapM fun text => okOr "unsupported webhook event type" (text.bind EventType.parse)

/-- A webhook is stored with its secret after its URL has been judged. -/
def registerWebhook (owner : String) (input : WebhookInput) : Ssp String := do
  let raw ← Act.ofExcept (okOr "webhook URL required" input.url)
  let url ← Act.ofExcept (parseUrl C raw)
  clientFor url
  let secret ← Act.ofExcept (okOr "webhook secret must contain 1 to 4096 bytes"
    (input.secret.filter fun s => s ≠ "" ∧ s.utf8ByteSize ≤ 4096))
  let events ← Act.ofExcept (eventTypes input.eventTypes)
  let id ← tell .newUuid
  db (.registerWebhook ⟨id.print, owner, url.text, secret, events⟩)
  return id.print

/-! ### Delivery -/

/-- One attempt. -/
def send (d : Db.Due) : Ssp Unit := do
  let url ← Act.ofExcept (parseUrl C d.url)
  clientFor url
  let status ← post url (C.signature d.secret d.payload) d.eventId d.payload
  if ¬ (200 ≤ status ∧ status < 300) then throw s!"webhook HTTP {status}"

/-- The seconds until the next attempt. -/
def delay (attempts : Nat) : Nat := min (5 * 2 ^ min attempts 14) 86400

/-- One attempt of a delivery; its outcome is stored whatever it is. -/
def deliver (d : Db.Due) : Ssp Unit := do
  let result ← Act.attempt (send C d)
  db (.updateDelivery d.eventId d.webhookId (delay d.attempts) result.isOk
    (match result with
      | .ok _ => none
      | .error e => some e))

/-- A pass of the worker. -/
def deliverWebhooks : Ssp Unit := do
  let due ← db .due
  Act.forEach (deliver C) due

/-- The requests of wallets, and the rounds of the two workers. -/
inductive Request where
  | register (owner : String) (input : WebhookInput)
  | list (owner : String)
  | delete (owner id : String)
  | deliver

/-- The program of a request; its answer is not looked at. -/
def Request.handler : Request → Prog Api Unit
  | register owner input => discard (registerWebhook C owner input).run
  | list owner => discard (db (.listWebhooks owner)).run
  | delete owner id => discard (db (.deleteWebhook owner id)).run
  | deliver => discard (deliverWebhooks C).run

/-! ### The machine -/

structure World where
  db : Db
  now : Nat

inductive Choice where
  /-- As asked; a capture takes the ids of its events from here. -/
  | done (ids : Nat → Uuid)
  | fail (e : String)
  | uuid (id : Uuid)
  | status (n : Nat)

/-- A statement that writes all or nothing. -/
def transact {α : Type} (r : Except String (α × Db)) (db : Db) : Except String α × Db :=
  match r with
  | .ok (a, db) => (.ok a, db)
  | .error e => (.error e, db)

def Query.run (ids : Nat → Uuid) (now : Nat) (db : Db) : (q : Query) → Except String q.Out × Db
  | registerWebhook w => transact ((db.registerWebhook w ids).map fun db => ((), db)) db
  | listWebhooks owner => (.ok (db.listWebhooks owner), db)
  | deleteWebhook owner id =>
      (.ok (db.webhooks.any fun w => w.id == id && w.owner == owner), db.deleteWebhook owner id)
  | due => transact ((db.capture ids).map fun db => (db.due now, db)) db
  | updateDelivery event webhook delay delivered error =>
      (.ok (), db.updateDelivery event webhook (now + delay) delivered error)

section run

variable {ids : Nat → Uuid} {now : Nat} {db db' : Db} {e : String}

theorem run_due (h : db.capture ids = .ok db') :
    Query.run ids now db .due = (.ok (db'.due now), db') := by
  show transact ((db.capture ids).map _) db = _
  rw [h]
  rfl

theorem run_due_error (h : db.capture ids = .error e) :
    Query.run ids now db .due = (.error e, db) := by
  show transact ((db.capture ids).map _) db = _
  rw [h]
  rfl

theorem run_registerWebhook {w : Webhook} (h : db.registerWebhook w ids = .ok db') :
    Query.run ids now db (.registerWebhook w) = (.ok (), db') := by
  show transact ((db.registerWebhook w ids).map _) db = _
  rw [h]
  rfl

theorem run_registerWebhook_error {w : Webhook} (h : db.registerWebhook w ids = .error e) :
    Query.run ids now db (.registerWebhook w) = (.error e, db) := by
  show transact ((db.registerWebhook w ids).map _) db = _
  rw [h]
  rfl

end run

def perform (c : Call) (ch : Choice) (w : World) : Option (c.Reply × World) :=
  match c, ch with
  | .newUuid, .uuid id => some (id, w)
  | .db q, .done ids =>
      let (r, db) := q.run ids w.now w.db
      some (r, { w with db })
  | .db _, .fail e => some (.error e, w)
  | .clientFor _, .done _ => some (.ok (), w)
  | .clientFor _, .fail e => some (.error e, w)
  | .post .., .status n => some (.ok n, w)
  | .post .., .fail e => some (.error e, w)
  | _, _ => none

inductive Outside where
  /-- Time passes. -/
  | tick (n : Nat)
  /-- Requests change. -/
  | change (tables : Tables)

def outside : Outside → World → World
  | .tick n, w => { w with now := w.now + n }
  | .change tables, w => { w with db := { w.db with tables } }

def machine (tables : Tables) : Machine Api where
  World := World
  Choice := Choice
  Outside := Outside
  Request := Request
  init := ⟨⟨tables, [], [], [], by simp, by simp, by simp, by simp, by simp, by simp⟩, 0⟩
  handler := Request.handler C
  perform _ := perform
  outside o w := some (outside o w)
  cancel _ w := w
  crash w := w

end OpenSsp.Webhooks
