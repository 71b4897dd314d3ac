/-
OpenSsp/Webhooks/Db.lean

The tables of wallet notifications (`webhooks.rs`): the webhooks of wallets, one event for each
request that is finished, and the deliveries of events to webhooks.

`capture` makes an event of every finished request that has none, and a delivery of it to every
webhook that its owner has for it.  It runs inside the transaction that registers a webhook and
inside the one that looks for due deliveries.  A delivery goes when its webhook is deleted.

Main results: what the statements do to the tables (`Db.capture_ok`, `Db.registerWebhook_ok` and
`Db.deleteWebhook_rows`).
-/
import Mathlib.Data.List.Sort
import OpenSsp.Lib.Uuid
import OpenSsp.RequestHistory

namespace OpenSsp.Webhooks

open Interleave RequestHistory

/-! ### Rows -/

/-- `EVENTS` -/
inductive EventType where
  | lightningReceiveFinished
  | lightningSendFinished
  | coopExitFinished
  | staticDepositFinished
deriving DecidableEq

def EventType.text : EventType → String
  | lightningReceiveFinished => "SPARK_LIGHTNING_RECEIVE_FINISHED"
  | lightningSendFinished => "SPARK_LIGHTNING_SEND_FINISHED"
  | coopExitFinished => "SPARK_COOP_EXIT_FINISHED"
  | staticDepositFinished => "SPARK_STATIC_DEPOSIT_FINISHED"

/-- The event for the end of a request. -/
def EventType.of (requestType : String) : EventType :=
  if requestType = "LIGHTNING_RECEIVE" then lightningReceiveFinished
  else if requestType = "LIGHTNING_SEND" then lightningSendFinished
  else if requestType = "COOP_EXIT" then coopExitFinished
  else staticDepositFinished

/-- A row of `wallet_webhooks`. -/
structure Webhook where
  id : String
  owner : String
  url : String
  secret : String
  events : List EventType

/-- The body of a notification; `htlcAmount` is in satoshi. -/
structure Payload where
  eventId : String
  type : EventType
  requestId : String
  status : String
  receiverIdentityPublicKey : Option String
  paymentPreimage : Option String
  htlcAmount : Option Nat
  network : Option String

/-- A row of `webhook_events`. -/
structure EventRow where
  id : String
  requestId : String
  owner : String
  eventType : EventType
  payload : Payload

/-- A row of `webhook_deliveries`. -/
structure Delivery where
  eventId : String
  webhookId : String
  attempts : Nat
  nextAttempt : Nat
  delivered : Bool
  lastError : Option String

namespace Delivery

def key (d : Delivery) : String × String := (d.eventId, d.webhookId)

/-- A delivery that has not been tried. -/
def new (event : EventRow) (w : Webhook) : Delivery := ⟨event.id, w.id, 0, 0, false, none⟩

end Delivery

/-- The webhook is one of the owner, for events of this type. -/
def EventRow.subscribed (event : EventRow) (w : Webhook) : Bool :=
  w.owner == event.owner && w.events.contains event.eventType

/-- The deliveries of a new event. -/
def EventRow.deliveries (event : EventRow) (webhooks : List Webhook) : List Delivery :=
  (webhooks.filter event.subscribed).map (.new event)

/-! ### Tables -/

/-- The tables of the other modules: what the view reads, and by hash the columns of a receive and
of its payment that it does not read. -/
structure Tables extends RequestHistory.Db where
  receiver : String → String
  amountSats : String → Nat
  preimage : String → Option String

structure Db where
  tables : Tables
  webhooks : List Webhook
  events : List EventRow
  deliveries : List Delivery
  webhookIds : (webhooks.map Webhook.id).Nodup
  eventIds : (events.map EventRow.id).Nodup
  /-- `webhook_events.request_id` is unique, too. -/
  eventRequests : (events.map EventRow.requestId).Nodup
  deliveryKeys : (deliveries.map Delivery.key).Nodup
  ofEvent : ∀ d ∈ deliveries, d.eventId ∈ events.map EventRow.id
  ofWebhook : ∀ d ∈ deliveries, d.webhookId ∈ webhooks.map Webhook.id

/-! ### Capture -/

/-- Why an event is made: a request in its final status. -/
structure Candidate where
  request : HistoryRow
  receiver : Option String
  amount : Option Nat
  preimage : Option String

/-- The statuses a request ends with, as the history names them. -/
def finishedStatuses : List String := ["SUCCEEDED", "FAILED", "CANCELED"]

/-- The kinds of request that have an event. -/
def eventRequestTypes : List String :=
  ["LIGHTNING_SEND", "LIGHTNING_RECEIVE", "COOP_EXIT", "CLAIM_STATIC_DEPOSIT"]

/-- The request is one for an event. -/
def finished (h : HistoryRow) : Bool :=
  finishedStatuses.contains h.requestStatus && eventRequestTypes.contains h.requestType

/-- A row of the history as the capture looks at it. -/
def Tables.candidate (t : Tables) (h : HistoryRow) : Candidate :=
  let receive := t.receives.rows.find? (·.requestId == h.id)
  { request := h,
    receiver := receive.map fun l => t.receiver l.hash,
    amount := receive.map fun l => t.amountSats l.hash,
    preimage := (t.receivePaymentOf h.id).bind fun p => t.preimage p.hash }

/-- The event of a finished request. -/
def Candidate.event (c : Candidate) (id : Uuid) : EventRow :=
  let type := EventType.of c.request.requestType
  { id := id.print, requestId := c.request.id, owner := c.request.owner, eventType := type,
    payload :=
      { eventId := id.print, type, requestId := c.request.id, status := c.request.requestStatus,
        receiverIdentityPublicKey := c.receiver, paymentPreimage := c.preimage,
        htlcAmount := c.amount, network := c.request.payload.network } }

namespace Db

variable {db db' : Db}

/-- `SELECT … FROM request_history h … WHERE … NOT EXISTS(SELECT 1 FROM webhook_events …)` -/
def candidates (db : Db) : List Candidate :=
  let captured := db.events.map EventRow.requestId
  (db.tables.requestHistoryView.filter fun h => finished h && !captured.contains h.id).map
    db.tables.candidate

/-- The event and its deliveries. -/
def enqueue (event : EventRow) (db : Db) (hid : event.id ∉ db.events.map EventRow.id)
    (hrequest : event.requestId ∉ db.events.map EventRow.requestId) : Db where
  tables := db.tables
  webhooks := db.webhooks
  events := event :: db.events
  deliveries := db.deliveries ++ event.deliveries db.webhooks
  webhookIds := db.webhookIds
  eventIds := List.nodup_cons.mpr ⟨hid, db.eventIds⟩
  eventRequests := List.nodup_cons.mpr ⟨hrequest, db.eventRequests⟩
  deliveryKeys := by
    rw [List.map_append, List.nodup_append]
    refine ⟨db.deliveryKeys, ?_, ?_⟩
    · have hids : ((db.webhooks.filter event.subscribed).map Webhook.id).Nodup :=
        db.webhookIds.sublist (List.filter_sublist.map _)
      rw [EventRow.deliveries, List.map_map]
      apply List.Nodup.of_map Prod.snd
      rw [List.map_map]
      exact hids
    · -- the event is new, so it has no deliveries yet
      rintro k hk k' hk' rfl
      obtain ⟨d, hd, rfl⟩ := List.mem_map.mp hk
      obtain ⟨d', hd', hkey⟩ := List.mem_map.mp hk'
      obtain ⟨w, -, rfl⟩ := List.mem_map.mp hd'
      have hevent : event.id = d.eventId := congrArg Prod.fst hkey
      exact hid (hevent ▸ db.ofEvent d hd)
  ofEvent := by
    intro d hd
    rcases List.mem_append.mp hd with hd | hd
    · exact List.mem_cons_of_mem _ (db.ofEvent d hd)
    · obtain ⟨w, -, rfl⟩ := List.mem_map.mp hd
      exact List.mem_cons_self
  ofWebhook := by
    intro d hd
    rcases List.mem_append.mp hd with hd | hd
    · exact db.ofWebhook d hd
    · obtain ⟨w, hw, rfl⟩ := List.mem_map.mp hd
      exact List.mem_map_of_mem (List.mem_filter.mp hw).1

def insertEvent (event : EventRow) (db : Db) : Except String Db :=
  if hid : event.id ∈ db.events.map EventRow.id then
    .error "UNIQUE constraint failed: webhook_events.id"
  else if hrequest : event.requestId ∈ db.events.map EventRow.requestId then
    .error "UNIQUE constraint failed: webhook_events.request_id"
  else .ok (db.enqueue event hid hrequest)

/-- Every request gets the next one of the new ids. -/
def captureAll : (ids : Nat → Uuid) → List Candidate → Db → Except String Db
  | _, [], db => .ok db
  | ids, c :: cs, db => do
      let db ← db.insertEvent (c.event (ids 0))
      captureAll (fun n => ids (n + 1)) cs db

/-- Every candidate of the history gets its event and its deliveries. -/
def capture (ids : Nat → Uuid) (db : Db) : Except String Db := captureAll ids db.candidates db

/-! ### Statements -/

def insertWebhook (w : Webhook) (db : Db) : Except String Db :=
  if hid : w.id ∈ db.webhooks.map Webhook.id then
    .error "UNIQUE constraint failed: wallet_webhooks.id"
  else .ok
    { db with
      webhooks := w :: db.webhooks
      webhookIds := List.nodup_cons.mpr ⟨hid, db.webhookIds⟩
      ofWebhook := fun d hd => List.mem_cons_of_mem _ (db.ofWebhook d hd) }

/-- `register_webhook`: what happened before is captured for the webhooks there were. -/
def registerWebhook (w : Webhook) (ids : Nat → Uuid) (db : Db) : Except String Db :=
  if 10 ≤ db.webhooks.countP (·.owner == w.owner) then .error "wallet webhook limit reached"
  else do
    -- what is finished by now is captured without the new webhook
    let db ← db.capture ids
    db.insertWebhook w

/-- The webhooks that a `DELETE` leaves. -/
def left (owner id : String) (db : Db) : List Webhook :=
  db.webhooks.filter fun w => !(w.id == id && w.owner == owner)

/-- `ON DELETE CASCADE` -/
def deleteWebhook (owner id : String) (db : Db) : Db :=
  { db with
    webhooks := db.left owner id
    deliveries := db.deliveries.filter fun d =>
      ((db.left owner id).map Webhook.id).contains d.webhookId
    webhookIds := db.webhookIds.sublist (List.filter_sublist.map _)
    deliveryKeys := db.deliveryKeys.sublist (List.filter_sublist.map _)
    ofEvent := fun d hd => db.ofEvent d (List.mem_filter.mp hd).1
    ofWebhook := fun _ hd => List.contains_iff_mem.mp (List.mem_filter.mp hd).2 }

def listWebhooks (owner : String) (db : Db) : List (String × String × List EventType) :=
  ((db.webhooks.filter (·.owner == owner)).insertionSort fun a b => a.id ≤ b.id).map fun w =>
    (w.id, w.url, w.events)

/-- What an attempt needs. -/
structure Due where
  eventId : String
  webhookId : String
  url : String
  secret : String
  payload : Payload
  attempts : Nat

/-- Rows are kept in the order of their ids, and rows that are due since the same time stay so. -/
def due (now : Nat) (db : Db) : List Due :=
  let waiting := db.deliveries.filter fun d => !d.delivered && d.nextAttempt ≤ now
  let first := (waiting.insertionSort fun a b => a.nextAttempt ≤ b.nextAttempt).take 20
  first.filterMap fun d => do
    let w ← db.webhooks.find? (·.id == d.webhookId)
    let e ← db.events.find? (·.id == d.eventId)
    return ⟨d.eventId, d.webhookId, w.url, w.secret, e.payload, d.attempts⟩

/-- A delivery after an attempt. -/
def attempted (nextAttempt : Nat) (delivered : Bool) (error : Option String) (d : Delivery) :
    Delivery :=
  { d with attempts := d.attempts + 1, nextAttempt, delivered, lastError := error }

/-- `UPDATE webhook_deliveries SET … WHERE event_id=?1 AND webhook_id=?2` -/
def updateDelivery (event webhook : String) (nextAttempt : Nat) (delivered : Bool)
    (error : Option String) (db : Db) : Db :=
  let update := fun d : Delivery =>
    if d.key = (event, webhook) then attempted nextAttempt delivered error d else d
  have hkey : ∀ d, (update d).key = d.key := fun d => by
    show (if d.key = (event, webhook) then _ else d).key = d.key
    split
    · rfl
    · rfl
  { db with
    deliveries := db.deliveries.map update
    deliveryKeys := by
      rw [List.map_map, show Delivery.key ∘ update = Delivery.key from funext hkey]
      exact db.deliveryKeys
    ofEvent := by
      intro d hd
      obtain ⟨old, hold, rfl⟩ := List.mem_map.mp hd
      rw [show (update old).eventId = old.eventId from congrArg Prod.fst (hkey old)]
      exact db.ofEvent old hold
    ofWebhook := by
      intro d hd
      obtain ⟨old, hold, rfl⟩ := List.mem_map.mp hd
      rw [show (update old).webhookId = old.webhookId from congrArg Prod.snd (hkey old)]
      exact db.ofWebhook old hold }

/-! ### What the statements do -/

theorem insertEvent_ok {event : EventRow} (h : db.insertEvent event = .ok db') :
    db'.tables = db.tables ∧ db'.webhooks = db.webhooks ∧ db'.events = event :: db.events ∧
      db'.deliveries = db.deliveries ++ event.deliveries db.webhooks := by
  unfold insertEvent at h
  split at h
  · cases h
  · split at h
    · cases h
    · obtain rfl := Except.ok.inj h
      exact ⟨rfl, rfl, rfl, rfl⟩

/-- The tables after new events, newest first, and their deliveries. -/
structure Captures (db db' : Db) (new : List EventRow) : Prop where
  tables : db'.tables = db.tables
  webhooks : db'.webhooks = db.webhooks
  events : db'.events = new ++ db.events
  deliveries : ∀ d, d ∈ db'.deliveries ↔
    d ∈ db.deliveries ∨ ∃ event ∈ new, d ∈ event.deliveries db.webhooks

theorem captureAll_ok {ids : Nat → Uuid} {cs : List Candidate}
    (h : captureAll ids cs db = .ok db') : ∃ new, Captures db db' new ∧
      (∀ event ∈ new, ∃ c ∈ cs, ∃ id, event = c.event id) ∧
      ∀ c ∈ cs, ∃ event ∈ new, event.requestId = c.request.id := by
  -- one candidate after the other, each with the next id
  induction cs generalizing ids db with
  | nil =>
      obtain rfl := Except.ok.inj h
      exact ⟨[], ⟨rfl, rfl, rfl, by simp⟩, by simp, by simp⟩
  | cons c cs ih =>
      obtain ⟨db₁, h₁, h⟩ := bind_ok h
      obtain ⟨htables, hwebhooks, hevents, hdeliveries⟩ := insertEvent_ok h₁
      -- the events of the rest come before it in the table
      obtain ⟨events, hcap, hfrom, hall⟩ := ih h
      refine ⟨events ++ [c.event (ids 0)], ⟨?_, ?_, ?_, ?_⟩, ?_, ?_⟩
      · rw [hcap.tables, htables]
      · rw [hcap.webhooks, hwebhooks]
      · rw [hcap.events, hevents, List.append_assoc]
        rfl
      · intro d
        rw [hcap.deliveries, hdeliveries, hwebhooks]
        simp only [List.mem_append, List.mem_singleton]
        constructor
        · rintro ((hold | hnew) | ⟨event, hevent, hd⟩)
          · exact .inl hold
          · exact .inr ⟨_, .inr rfl, hnew⟩
          · exact .inr ⟨event, .inl hevent, hd⟩
        · rintro (hold | ⟨event, hevent | rfl, hd⟩)
          · exact .inl (.inl hold)
          · exact .inr ⟨event, hevent, hd⟩
          · exact .inl (.inr hd)
      · intro event hevent
        rcases List.mem_append.mp hevent with hevent | hevent
        · obtain ⟨c', hc', id, rfl⟩ := hfrom event hevent
          exact ⟨c', List.mem_cons_of_mem _ hc', id, rfl⟩
        · exact ⟨c, List.mem_cons_self, ids 0, List.mem_singleton.mp hevent⟩
      · intro c' hc'
        rcases List.mem_cons.mp hc' with rfl | hc'
        · exact ⟨c'.event (ids 0), List.mem_append_right _ List.mem_cons_self, rfl⟩
        · obtain ⟨event, hevent, hid⟩ := hall c' hc'
          exact ⟨event, List.mem_append_left _ hevent, hid⟩

theorem mem_candidates {c : Candidate} : c ∈ db.candidates ↔
    ∃ h ∈ db.tables.requestHistoryView, finished h = true ∧
      h.id ∉ db.events.map EventRow.requestId ∧ c = db.tables.candidate h := by
  simp only [candidates, List.mem_map, List.mem_filter, Bool.and_eq_true, Bool.not_eq_true',
    List.contains_eq_mem, decide_eq_false_iff_not]
  constructor
  · rintro ⟨h, ⟨hmem, hfin, hnew⟩, rfl⟩
    exact ⟨h, hmem, hfin, by simpa using hnew, rfl⟩
  · rintro ⟨h, hmem, hfin, hnew, rfl⟩
    exact ⟨h, ⟨hmem, hfin, by simpa using hnew⟩, rfl⟩

/-- The event is that of a finished request. -/
def Source (db : Db) (event : EventRow) : Prop :=
  ∃ h ∈ db.tables.requestHistoryView, finished h = true ∧
    ∃ id, event = (db.tables.candidate h).event id

/-- The request is finished. -/
def Terminal (db : Db) (id : String) : Prop :=
  ∃ h ∈ db.tables.requestHistoryView, h.id = id ∧ finished h = true

/-- Every finished request has an event after it, and the new events are those of finished requests
that had none. -/
theorem capture_ok {ids : Nat → Uuid} (h : db.capture ids = .ok db') :
    ∃ new, Captures db db' new ∧ (∀ event ∈ new, db.Source event) ∧
      ∀ id, db.Terminal id → id ∈ db'.events.map EventRow.requestId := by
  obtain ⟨events, hcap, hfrom, hall⟩ := captureAll_ok h
  refine ⟨events, hcap, ?_, ?_⟩
  · intro event hevent
    obtain ⟨c, hc, id, rfl⟩ := hfrom event hevent
    obtain ⟨h, hmem, hfin, -, rfl⟩ := mem_candidates.mp hc
    exact ⟨h, hmem, hfin, id, rfl⟩
  · rintro id ⟨h, hmem, rfl, hfin⟩
    rw [hcap.events, List.map_append, List.mem_append]
    by_cases hold : h.id ∈ db.events.map EventRow.requestId
    · exact .inr hold
    · obtain ⟨event, hevent, hid⟩ := hall _ (mem_candidates.mpr ⟨h, hmem, hfin, hold, rfl⟩)
      exact .inl (List.mem_map.mpr ⟨event, hevent, hid⟩)

theorem insertWebhook_ok {w : Webhook} (h : db.insertWebhook w = .ok db') :
    db'.tables = db.tables ∧ db'.webhooks = w :: db.webhooks ∧ db'.events = db.events ∧
      db'.deliveries = db.deliveries := by
  unfold insertWebhook at h
  split at h
  · cases h
  · obtain rfl := Except.ok.inj h
    exact ⟨rfl, rfl, rfl, rfl⟩

theorem registerWebhook_ok {w : Webhook} {ids : Nat → Uuid}
    (h : db.registerWebhook w ids = .ok db') :
    ∃ db₁, db.capture ids = .ok db₁ ∧ db'.tables = db₁.tables ∧
      db'.webhooks = w :: db₁.webhooks ∧ db'.events = db₁.events ∧
      db'.deliveries = db₁.deliveries := by
  unfold registerWebhook at h
  split at h
  · cases h
  · obtain ⟨db₁, h₁, h⟩ := bind_ok h
    exact ⟨db₁, h₁, insertWebhook_ok h⟩

theorem mem_left {owner id : String} {w : Webhook} (h : w ∈ db.left owner id) : w ∈ db.webhooks :=
  (List.mem_filter.mp h).1

/-- A waiting delivery is among those of a pass at its time, unless twenty others have waited as
long. -/
theorem due_or_twenty {now : Nat} {d : Delivery} (hd : d ∈ db.deliveries)
    (hwait : d.delivered = false) (hdue : d.nextAttempt ≤ now) :
    (∃ row ∈ db.due now, row.eventId = d.eventId ∧ row.webhookId = d.webhookId) ∨
    20 ≤ (db.deliveries.filter fun o =>
      !o.delivered && decide (o.nextAttempt ≤ d.nextAttempt) && o.key != d.key).length := by
  set waiting := db.deliveries.filter fun d => !d.delivered && d.nextAttempt ≤ now with hwaiting
  set sorted := waiting.insertionSort fun a b => a.nextAttempt ≤ b.nextAttempt with hsorted
  have hperm : sorted.Perm waiting := List.perm_insertionSort _ _
  have hmem : d ∈ sorted := hperm.mem_iff.mpr (List.mem_filter.mpr ⟨hd, by simp [hwait, hdue]⟩)
  have hkeys : (sorted.map Delivery.key).Nodup :=
    ((hperm.map _).nodup_iff).mpr (db.deliveryKeys.sublist (List.filter_sublist.map _))
  have hsplit : sorted.take 20 ++ sorted.drop 20 = sorted := List.take_append_drop 20 sorted
  rcases List.mem_append.mp (hsplit ▸ hmem) with hfirst | hlater
  · -- its webhook and its event are there
    left
    obtain ⟨w, hw, hwid⟩ := List.mem_map.mp (db.ofWebhook d hd)
    obtain ⟨e, he, heid⟩ := List.mem_map.mp (db.ofEvent d hd)
    obtain ⟨w', hw'⟩ := Option.isSome_iff_exists.mp
      (List.find?_isSome (p := (·.id == d.webhookId)) |>.mpr ⟨w, hw, by simp [hwid]⟩)
    obtain ⟨e', he'⟩ := Option.isSome_iff_exists.mp
      (List.find?_isSome (p := (·.id == d.eventId)) |>.mpr ⟨e, he, by simp [heid]⟩)
    refine ⟨⟨d.eventId, d.webhookId, w'.url, w'.secret, e'.payload, d.attempts⟩, ?_, rfl, rfl⟩
    refine List.mem_filterMap.mpr ⟨d, hfirst, ?_⟩
    rw [hw', he']
    rfl
  · right
    have hlen : (sorted.take 20).length = 20 := by
      have hpos := List.length_pos_of_mem hlater
      rw [List.length_drop] at hpos
      rw [List.length_take]
      omega
    rw [← hlen]
    have hnodup : (sorted.take 20).Nodup :=
      (List.Nodup.of_map _ hkeys).sublist (List.take_sublist 20 sorted)
    refine (List.subperm_of_subset hnodup fun o ho => ?_).length_le
    have hin : o ∈ sorted := List.mem_of_mem_take ho
    obtain ⟨hrow, hopen⟩ := List.mem_filter.mp (hperm.mem_iff.mp hin)
    have horder : o.nextAttempt ≤ d.nextAttempt := by
      have hpair := List.pairwise_insertionSort
        (fun a b : Delivery => a.nextAttempt ≤ b.nextAttempt) waiting
      rw [← hsorted, ← hsplit] at hpair
      exact (List.pairwise_append.mp hpair).2.2 o ho d hlater
    have hne : o.key ≠ d.key := by
      -- it stands before the delivery
      intro hkey
      rw [← hsplit, List.map_append, List.nodup_append] at hkeys
      exact hkeys.2.2 _ (List.mem_map_of_mem ho) _ (List.mem_map_of_mem hlater) hkey
    rw [Bool.and_eq_true] at hopen
    exact List.mem_filter.mpr ⟨hrow, by simp [hopen.1, horder, hne]⟩

/-- A delivery stays, unless its webhook is deleted. -/
theorem deleteWebhook_rows {owner id : String} {d : Delivery} (hd : d ∈ db.deliveries) :
    d ∈ (db.deleteWebhook owner id).deliveries ∨
      ∀ w ∈ (db.deleteWebhook owner id).webhooks, w.id ≠ d.webhookId := by
  by_cases hleft : d.webhookId ∈ (db.left owner id).map Webhook.id
  · left
    exact List.mem_filter.mpr ⟨hd, List.contains_iff_mem.mpr hleft⟩
  · right
    intro w hw hid
    exact hleft (hid ▸ List.mem_map_of_mem hw)

end Db

end OpenSsp.Webhooks
