/-
OpenSsp/Webhooks/Delivery.lean

Which notifications a wallet gets.

A request has one event, made by the first capture that finds it finished, and no capture leaves a
finished request without one.  The deliveries of the event are made with it, to the webhooks that
are there then; a capture comes before each insert of a webhook, so that nobody is told of what was
finished before.  A delivery waits until an attempt succeeds or its webhook is deleted, and a pass
takes up what is due, twenty at a time.

Main result: `webhook_deliveries`.
-/
import OpenSsp.Webhooks.Machine

namespace OpenSsp.Webhooks

open Interleave

variable {C : Service} {T : Tables} {h h' : History Api}

/-! ### What a statement does -/

/-- What a call does to the tables. -/
inductive Change (db db' : Db) : Call → Prop
  | same {c : Call} (hwebhooks : db'.webhooks = db.webhooks) (hevents : db'.events = db.events)
      (hdeliveries : db'.deliveries = db.deliveries) : Change db db' c
  | captured (ids : Nat → Uuid) (hcapture : db.capture ids = .ok db') : Change db db' (.db .due)
  | registered (w : Webhook) (ids : Nat → Uuid) (hregister : db.registerWebhook w ids = .ok db') :
      Change db db' (.db (.registerWebhook w))
  | deleted (owner id : String) (hdelete : db' = db.deleteWebhook owner id) :
      Change db db' (.db (.deleteWebhook owner id))
  | updated (event webhook : String) (now delay : Nat) (delivered : Bool) (error : Option String)
      (hupdate : db' = db.updateDelivery event webhook (now + delay) delivered error) :
      Change db db' (.db (.updateDelivery event webhook delay delivered error))

/-- Nothing changes. -/
theorem Change.refl (db : Db) (c : Call) : Change db db c := .same rfl rfl rfl

/-- What a query does to the tables. -/
theorem query_change (ids : Nat → Uuid) (now : Nat) (db : Db) (q : Query) :
    Change db (q.run ids now db).2 (.db q) := by
  cases q with
  | registerWebhook w =>
      rcases hr : db.registerWebhook w ids with e | db'
      · rw [run_registerWebhook_error hr]
        exact .refl db _
      · rw [run_registerWebhook hr]
        exact .registered w ids hr
  | listWebhooks owner => exact .refl db _
  | deleteWebhook owner id => exact .deleted owner id rfl
  | due =>
      rcases hc : db.capture ids with e | db'
      · rw [run_due_error hc]
        exact .refl db _
      · rw [run_due hc]
        exact .captured ids hc
  | updateDelivery event webhook delay delivered error =>
      exact .updated event webhook now delay delivered error rfl

/-- What a call does to the tables; no call moves the clock. -/
theorem perform_change {c : Call} {ch : Choice} {w w' : World} {r : c.Reply}
    (hp : perform c ch w = some (r, w')) : Change w.db w'.db c ∧ w'.now = w.now := by
  cases c <;> cases ch <;> simp only [perform, Option.some.injEq, Prod.mk.injEq, reduceCtorEq] at hp
  all_goals
    obtain ⟨-, rfl⟩ := hp
  case db.done q ids => exact ⟨query_change ids w.now w.db q, rfl⟩
  all_goals exact ⟨.refl _ _, rfl⟩

/-- A pass that has its rows has captured, and the rows are what is due after that. -/
theorem perform_due {ch : Choice} {w w' : World} {rows : List Db.Due}
    (hp : perform (.db .due) ch w = some (.ok rows, w')) :
    (∃ ids, w.db.capture ids = .ok w'.db) ∧ rows = w'.db.due w'.now := by
  cases ch with
  | done ids =>
      rcases hc : w.db.capture ids with e | db'
      · simp [perform, run_due_error hc] at hp
      · simp only [perform, run_due hc] at hp
        obtain ⟨hr, rfl⟩ := Prod.mk.inj (Option.some.inj hp)
        exact ⟨⟨ids, hc⟩, (Except.ok.inj hr).symm⟩
  | fail e => cases (Prod.mk.inj (Option.some.inj hp)).1
  | _ => cases hp

/-- A registration that has succeeded has stored the webhook. -/
theorem perform_register {webhook : Webhook} {ch : Choice} {w w' : World} {u : Unit}
    (hp : perform (.db (.registerWebhook webhook)) ch w = some (.ok u, w')) :
    ∃ ids, w.db.registerWebhook webhook ids = .ok w'.db := by
  cases ch with
  | done ids =>
      rcases hc : w.db.registerWebhook webhook ids with e | db'
      · simp [perform, run_registerWebhook_error hc] at hp
      · simp only [perform, run_registerWebhook hc] at hp
        obtain ⟨-, rfl⟩ := Prod.mk.inj (Option.some.inj hp)
        exact ⟨ids, hc⟩
  | fail e => cases (Prod.mk.inj (Option.some.inj hp)).1
  | _ => cases hp

/-- What a call with its reply has done, when it updates a delivery at its time. -/
theorem perform_update {event webhook : String} {delay : Nat} {delivered : Bool}
    {error : Option String} {ch : Choice} {w w' : World}
    {r : (Call.db (.updateDelivery event webhook delay delivered error)).Reply}
    (hp : perform (.db (.updateDelivery event webhook delay delivered error)) ch w =
      some (r, w')) :
    w' = w ∨ w' = { w with
      db := w.db.updateDelivery event webhook (w.now + delay) delivered error } := by
  cases ch with
  | done ids => exact .inr (Prod.mk.inj (Option.some.inj hp)).2.symm
  | fail e => exact .inl (Prod.mk.inj (Option.some.inj hp)).2.symm
  | _ => cases hp

/-! ### The contract of the worker -/

/-- The body was posted to the webhook, and the reply was a success. -/
def Accepted (C : Service) (event webhook : String) (h : History Api) : Prop :=
  ∃ d : Db.Due, d.eventId = event ∧ d.webhookId = webhook ∧
    (∃ rows, (⟨.db .due, .ok rows⟩ : Event Api) ∈ h ∧ d ∈ rows) ∧
    ∃ url status, parseUrl C d.url = .ok url ∧ 200 ≤ status ∧ status < 300 ∧
      (⟨.post url (C.signature d.secret d.payload) d.eventId d.payload, .ok status⟩ : Event Api) ∈ h

/-- A delivery is marked delivered after a success, and put off for a day at most. -/
def Lawful (C : Service) (h : History Api) : Call → Prop
  | .db (.updateDelivery event webhook delay delivered _) =>
      delay ≤ 86400 ∧ (delivered = true → Accepted C event webhook h)
  | _ => True

/-- A function that keeps the contract of deliveries. -/
def Does {α : Type} (C : Service) (act : Ssp α) (R : α → History Api → Prop) (h : History Api) :
    Prop := Act.Spec (Lawful C) (fun _ => True) act R h

/-- An attempt is at most a day away. -/
theorem delay_le (attempts : Nat) : delay attempts ≤ 86400 := Nat.min_le_right _ _

/-- A post is lawful, and its status is the one in the history. -/
theorem post_does (url : Url) (signature event : String) (body : Payload) (h : History Api) :
    Does C (post url signature event body)
      (fun status h' => (⟨.post url signature event body, .ok status⟩ : Event Api) ∈ h') h := by
  apply Act.Spec.ask trivial fun _ => trivial
  rintro (e | status) n hn
  · cases hn
  · obtain rfl := Except.ok.inj hn
    exact List.mem_cons_self

/-- An attempt that succeeds has posted the body. -/
theorem send_does (d : Db.Due) (h : History Api) :
    Does C (send C d) (fun _ h' => ∃ url status, parseUrl C d.url = .ok url ∧ 200 ≤ status ∧
      status < 300 ∧ (⟨.post url (C.signature d.secret d.payload) d.eventId d.payload,
        .ok status⟩ : Event Api) ∈ h') h := by
  refine Act.Spec.bind Act.Spec.ofExcept_eq ?_
  rintro url h₁ - ⟨hurl, rfl⟩
  refine Act.Spec.bind (Act.Spec.ask_eq (I := Api) (c := .clientFor url) trivial
    fun _ => trivial) ?_
  rintro _ h₂ - -
  refine Act.Spec.bind (post_does url _ d.eventId d.payload h₂) fun status h₃ _ hpost => ?_
  apply Act.Spec.ite
  · exact fun _ => .throw
  · intro hstatus
    obtain ⟨hlow, hhigh⟩ := not_not.mp hstatus
    exact .pure ⟨url, status, hurl, hlow, hhigh, hpost⟩

/-- A delivery is attempted as it was listed. -/
theorem deliver_does {d : Db.Due} (hdue : ∃ rows, (⟨.db .due, .ok rows⟩ : Event Api) ∈ h ∧
    d ∈ rows) : Does C (deliver C d) (fun _ _ => True) h := by
  refine Act.Spec.bind (send_does d h).attempt fun result h₁ he hsent => ?_
  refine Act.Spec.ask (I := Api) ⟨delay_le d.attempts, fun hok => ?_⟩ (fun _ => trivial)
    fun _ _ _ => trivial
  rcases result with e | u
  · cases hok
  · obtain ⟨rows, hmem, hd⟩ := hdue
    exact ⟨d, rfl, rfl, ⟨rows, he.mem hmem, hd⟩, hsent u rfl⟩

/-- So is a pass over all that are due. -/
theorem deliverWebhooks_does : Does C (deliverWebhooks C) (fun _ _ => True) [] := by
  refine Act.Spec.bind (Act.Spec.ask_eq (I := Api) (c := .db .due) trivial fun _ => trivial) ?_
  rintro due h₁ - ⟨r, hr, rfl⟩
  obtain rfl : r = .ok due := hr
  apply Act.Spec.forEach (K := fun d h' => ∃ rows, (⟨.db .due, .ok rows⟩ : Event Api) ∈ h' ∧
    d ∈ rows)
  · exact fun d _ h₂ _ hdue => deliver_does hdue
  · exact fun d hd h₂ he => ⟨due, he.mem List.mem_cons_self, hd⟩

/-- A registration attempts nothing. -/
theorem registerWebhook_does (owner : String) (input : WebhookInput) :
    Does C (registerWebhook C owner input) (fun _ _ => True) [] := by
  refine Act.Spec.bind Act.Spec.ofExcept_eq ?_
  rintro raw h₁ - -
  refine Act.Spec.bind Act.Spec.ofExcept_eq ?_
  rintro url h₂ - -
  refine Act.Spec.bind (Act.Spec.ask_eq (I := Api) (c := .clientFor url) trivial
    fun _ => trivial) ?_
  rintro _ h₃ - -
  refine Act.Spec.bind Act.Spec.ofExcept_eq ?_
  rintro secret h₄ - -
  refine Act.Spec.bind Act.Spec.ofExcept_eq ?_
  rintro events h₅ - -
  refine Act.Spec.bind (Act.Spec.tell_eq (I := Api) (c := .newUuid) trivial fun _ => trivial) ?_
  rintro id h₆ - -
  refine Act.Spec.bind (Act.Spec.ask_eq (I := Api) (c := .db (.registerWebhook _)) trivial
    fun _ => trivial) ?_
  exact fun _ _ _ _ => .pure trivial

/-- Every request keeps the contract. -/
theorem handler_lawful (r : Request) :
    (Request.handler C r).wp (Lawful C) (fun _ _ => True) [] := by
  have hall : ∀ {α : Type} {act : Ssp α}, Does C act (fun _ _ => True) [] →
      (discard act.run).wp (Lawful C) (fun _ _ => True) [] := by
    intro α act hact
    rw [Prog.wp_discard]
    exact Prog.wp_mono hact.wp fun _ _ _ => trivial
  cases r with
  | register owner input => exact hall (registerWebhook_does owner input)
  | list owner => exact hall (.ask trivial (fun _ => trivial) fun _ _ _ => trivial)
  | delete owner id => exact hall (.ask trivial (fun _ => trivial) fun _ _ _ => trivial)
  | deliver => exact hall deliverWebhooks_does

/-! ### One move -/

variable {s s' : Config (machine C T)} {m : Move (machine C T)}

/-- What a step does to the three tables. -/
theorem step_change (hst : s.step m = some s') :
    (s'.world.db.webhooks = s.world.db.webhooks ∧ s'.world.db.events = s.world.db.events ∧
      s'.world.db.deliveries = s.world.db.deliveries ∧ s.world.now ≤ s'.world.now ∧
      s'.trace = s.trace) ∨
    ∃ t ch c k hist r, s.thread t = some ⟨.call c k, hist⟩ ∧ s'.trace = (t, ⟨c, r⟩) :: s.trace ∧
      perform c ch s.world = some (r, s'.world) := by
  rcases Config.step_cases hst with ⟨r, -, rfl⟩ | ⟨t, ch, c, k, hist, r, w, -, hth, hp, rfl⟩ |
    ⟨t, th, -, -, rfl⟩ | ⟨-, rfl⟩ | ⟨o, w, -, ho, rfl⟩
  · exact .inl ⟨rfl, rfl, rfl, le_refl _, rfl⟩
  · exact .inr ⟨t, ch, c, k, hist, r, hth, rfl, hp⟩
  · exact .inl ⟨rfl, rfl, rfl, le_refl _, rfl⟩
  · exact .inl ⟨rfl, rfl, rfl, le_refl _, rfl⟩
  · left
    obtain rfl := Option.some.inj ho
    cases o with
    | tick n => exact ⟨rfl, rfl, rfl, Nat.le_add_right _ _, rfl⟩
    | change tables => exact ⟨rfl, rfl, rfl, le_refl _, rfl⟩

/-- What is added to the trace is a call that was carried out. -/
theorem step_performs (hst : s.step m = some s') {t : Nat} {c : Call} {r : c.Reply}
    (htrace : s'.trace = (t, (⟨c, r⟩ : Event Api)) :: s.trace) :
    ∃ ch, perform c ch s.world = some (r, s'.world) := by
  rcases step_change hst with ⟨-, -, -, -, hsame⟩ | ⟨t', ch, c', k, hist, r', -, htrace', hp⟩
  · exact absurd (hsame.symm.trans htrace) (List.cons_ne_self _ _).symm
  · obtain ⟨hhead, -⟩ := List.cons.inj (htrace'.symm.trans htrace)
    obtain ⟨-, hevent⟩ := Prod.mk.inj hhead
    cases hevent
    exact ⟨ch, hp⟩

/-- What a move that makes events has done. -/
structure Captured (db db' : Db) (new : List EventRow) : Prop where
  events : db'.events = new ++ db.events
  source : ∀ event ∈ new, db.Source event
  deliveries : ∀ d, d ∈ db'.deliveries ↔
    d ∈ db.deliveries ∨ ∃ event ∈ new, d ∈ event.deliveries db.webhooks
  terminal : ∀ id, db.Terminal id → id ∈ db'.events.map EventRow.requestId
  webhooks : db'.webhooks = db.webhooks ∨ ∃ w, db'.webhooks = w :: db.webhooks

/-- A move captures, or it makes neither events nor deliveries nor webhooks. -/
theorem step_captured (hst : s.step m = some s') :
    (∃ new, Captured s.world.db s'.world.db new) ∨
      s'.world.db.events = s.world.db.events ∧
      (∀ d' ∈ s'.world.db.deliveries, ∃ d ∈ s.world.db.deliveries, d.key = d'.key) ∧
      ∀ w ∈ s'.world.db.webhooks, w ∈ s.world.db.webhooks := by
  rcases step_change hst with ⟨hwebhooks, hevents, hdeliveries, -, -⟩ |
    ⟨t, ch, c, k, hist, r, hth, -, hp⟩
  · right
    rw [hwebhooks, hevents, hdeliveries]
    exact ⟨rfl, fun d hd => ⟨d, hd, rfl⟩, fun w hw => hw⟩
  · cases (perform_change hp).1 with
    | same hwebhooks hevents hdeliveries =>
        right
        rw [hwebhooks, hevents, hdeliveries]
        exact ⟨rfl, fun d hd => ⟨d, hd, rfl⟩, fun w hw => hw⟩
    | captured ids hcapture =>
        left
        obtain ⟨new, hcap, hsource, hterminal⟩ := Db.capture_ok hcapture
        exact ⟨new, hcap.events, hsource, hcap.deliveries, hterminal, .inl hcap.webhooks⟩
    | registered w ids hregister =>
        left
        -- a registration captures before it inserts, so the new webhook gets no old event
        obtain ⟨db₁, hcapture, -, hwebhooks, hevents, hdeliveries⟩ :=
          Db.registerWebhook_ok hregister
        obtain ⟨new, hcap, hsource, hterminal⟩ := Db.capture_ok hcapture
        refine ⟨new, ?_, hsource, ?_, ?_, .inr ⟨w, ?_⟩⟩
        · rw [hevents, hcap.events]
        · rw [hdeliveries]
          exact hcap.deliveries
        · rw [hevents]
          exact hterminal
        · rw [hwebhooks, hcap.webhooks]
    | deleted owner id hdelete =>
        right
        rw [hdelete]
        -- a deleted webhook takes its deliveries with it
        refine ⟨rfl, fun d hd => ⟨d, (List.mem_filter.mp hd).1, rfl⟩, fun w hw => ?_⟩
        exact Db.mem_left hw
    | updated event webhook now delay delivered error hupdate =>
        right
        rw [hupdate]
        refine ⟨rfl, fun d hd => ?_, fun w hw => hw⟩
        obtain ⟨old, hold, rfl⟩ := List.mem_map.mp hd
        -- an attempt changes a row, not its key
        refine ⟨old, hold, ?_⟩
        split
        · rfl
        · rfl

/-- Events stay as they are. -/
theorem step_events (hst : s.step m = some s') {event : EventRow}
    (he : event ∈ s.world.db.events) : event ∈ s'.world.db.events := by
  rcases step_captured hst with ⟨new, hcap⟩ | ⟨hevents, -, -⟩
  · rw [hcap.events]
    exact List.mem_append_right _ he
  · rw [hevents]
    exact he

/-- Events stay. -/
theorem later_events (hl : Later anyMove s s') {event : EventRow}
    (he : event ∈ s.world.db.events) : event ∈ s'.world.db.events := by
  induction hl with
  | refl => exact he
  | step _ _ hst ih => exact step_events hst ih

/-! ### Registrations -/

/-- From `s` to `s'` the webhook is registered. -/
structure Registers (w : Webhook) (s s' : Config (machine C T)) : Prop where
  step : ∃ m, s.step m = some s'
  new : w ∉ s.world.db.webhooks
  stored : w ∈ s'.world.db.webhooks

/-- What is finished when a webhook is registered has its event then. -/
theorem Registers.terminal {w : Webhook} (hr : Registers w s s') {id : String}
    (hid : s.world.db.Terminal id) : id ∈ s'.world.db.events.map EventRow.requestId := by
  obtain ⟨m, hst⟩ := hr.step
  rcases step_captured hst with ⟨new, hcap⟩ | ⟨-, -, hwebhooks⟩
  · exact hcap.terminal id hid
  · exact absurd (hwebhooks w hr.stored) hr.new

/-- The request was not finished when the webhook was registered. -/
def NotYet (s : Config (machine C T)) (w : Webhook) (id : String) : Prop :=
  ∀ a b, Reach anyMove a → Registers w a b → Later anyMove b s → ¬ a.world.db.Terminal id

/-- A webhook that is there has been registered. -/
theorem registered (hs : Reach anyMove s) : ∀ w ∈ s.world.db.webhooks,
    ∃ a b, Reach anyMove a ∧ Registers w a b ∧ Later anyMove b s := by
  induction hs with
  | start => exact fun w hw => nomatch hw
  | @step s s' m hs _ hst ih =>
      intro w hw
      by_cases hold : w ∈ s.world.db.webhooks
      · obtain ⟨a, b, ha, hr, hl⟩ := ih w hold
        exact ⟨a, b, ha, hr, hl.step trivial hst⟩
      · exact ⟨s, s', hs, ⟨⟨m, hst⟩, hold, hw⟩, .refl⟩

/-- A request has one event. -/
theorem event_unique {db : Db} {event event' : EventRow} (he : event ∈ db.events)
    (he' : event' ∈ db.events) (hid : event.requestId = event'.requestId) : event = event' :=
  List.inj_on_of_nodup_map db.eventRequests he he' hid

/-- A webhook that is told of an event was registered before the request was finished. -/
theorem notYet_of_new (hst : s.step m = some s') {event : EventRow}
    (he' : event ∈ s'.world.db.events) (he : event ∉ s.world.db.events) (w : Webhook) :
    NotYet s w event.requestId := by
  intro a b _ hr hl hterminal
  obtain ⟨old, hold, hid⟩ := List.mem_map.mp (hr.terminal hterminal)
  have hstored := later_events hl hold
  obtain rfl := event_unique (step_events hst hstored) he' hid
  exact he hstored

/-- The deliveries of a new event. -/
theorem new_deliveries (hst : s.step m = some s') {event : EventRow}
    (he' : event ∈ s'.world.db.events) (he : event ∉ s.world.db.events) (id : String) :
    (∃ d ∈ s'.world.db.deliveries, d.key = (event.id, id)) ↔
      ∃ w ∈ s.world.db.webhooks, w.id = id ∧ w.owner = event.owner ∧
        event.eventType ∈ w.events := by
  rcases step_captured hst with ⟨new, hcap⟩ | ⟨hevents, -, -⟩
  · have hnew : event ∈ new := by
      rw [hcap.events] at he'
      exact (List.mem_append.mp he').resolve_right he
    constructor
    · rintro ⟨d, hd, hkey⟩
      have hevent : d.eventId = event.id := congrArg Prod.fst hkey
      have hwebhook : d.webhookId = id := congrArg Prod.snd hkey
      have hdelivery : d ∈ event.deliveries s.world.db.webhooks := by
        rcases (hcap.deliveries d).mp hd with hold | ⟨event', hevent', hd⟩
        · -- an older delivery is one of an older event
          obtain ⟨old, hmem, hid⟩ := List.mem_map.mp (s.world.db.ofEvent d hold)
          have hsame : old = event := List.inj_on_of_nodup_map s'.world.db.eventIds
            (step_events hst hmem) he' (hid.trans hevent)
          exact absurd (hsame ▸ hmem) he
        · have hsame : event' = event := by
            apply List.inj_on_of_nodup_map s'.world.db.eventIds _ he'
            · obtain ⟨w, -, rfl⟩ := List.mem_map.mp hd
              exact hevent
            · rw [hcap.events]
              exact List.mem_append_left _ hevent'
          exact hsame ▸ hd
      obtain ⟨w, hw, rfl⟩ := List.mem_map.mp hdelivery
      obtain ⟨hmem, hsub⟩ := List.mem_filter.mp hw
      obtain ⟨howner, htype⟩ := Bool.and_eq_true_iff.mp hsub
      exact ⟨w, hmem, hwebhook, beq_iff_eq.mp howner, List.contains_iff_mem.mp htype⟩
    · rintro ⟨w, hw, rfl, howner, htype⟩
      refine ⟨.new event w, (hcap.deliveries _).mpr (.inr ⟨event, hnew, ?_⟩), rfl⟩
      refine List.mem_map.mpr ⟨w, List.mem_filter.mpr ⟨hw, ?_⟩, rfl⟩
      exact Bool.and_eq_true_iff.mpr ⟨beq_iff_eq.mpr howner, List.contains_iff_mem.mpr htype⟩
  · rw [hevents] at he'
    exact absurd he' he

/-- An event is new only where its request has just been seen finished. -/
theorem new_source (hst : s.step m = some s') {event : EventRow}
    (he' : event ∈ s'.world.db.events) (he : event ∉ s.world.db.events) :
    s.world.db.Source event := by
  rcases step_captured hst with ⟨new, hcap⟩ | ⟨hevents, -, -⟩
  · rw [hcap.events] at he'
    exact hcap.source event ((List.mem_append.mp he').resolve_right he)
  · rw [hevents] at he'
    exact absurd he' he

/-- A new delivery is one of a new event. -/
theorem delivery_of_new (hst : s.step m = some s') {d' : Delivery}
    (hd' : d' ∈ s'.world.db.deliveries) (hnew : ∀ d ∈ s.world.db.deliveries, d.key ≠ d'.key) :
    ∃ event ∈ s'.world.db.events, event ∉ s.world.db.events ∧ event.id = d'.eventId := by
  rcases step_captured hst with ⟨new, hcap⟩ | ⟨-, hdeliveries, -⟩
  · rcases (hcap.deliveries d').mp hd' with hold | ⟨event, hevent, hd⟩
    · exact absurd rfl (hnew d' hold)
    · obtain ⟨w, -, rfl⟩ := List.mem_map.mp hd
      have hmem : event ∈ s'.world.db.events := by
        rw [hcap.events]
        exact List.mem_append_left _ hevent
      refine ⟨event, hmem, fun hold => ?_, rfl⟩
      -- the ids of the events are different, those of the new ones as well
      have hids := s'.world.db.eventIds
      rw [hcap.events, List.map_append, List.nodup_append] at hids
      exact hids.2.2 event.id (List.mem_map_of_mem hevent) event.id (List.mem_map_of_mem hold) rfl
  · obtain ⟨d, hd, hkey⟩ := hdeliveries d' hd'
    exact absurd hkey (hnew d hd)

/-! ### Waiting deliveries -/

/-- The delivery waits for its next attempt, within a day. -/
def Waits (d : Delivery) (s : Config (machine C T)) : Prop :=
  ∃ d' ∈ s.world.db.deliveries, d'.key = d.key ∧ d'.delivered = false ∧
    d'.nextAttempt ≤ s.world.now + 86400

/-- From `s` to `s'` the success of an attempt is noted. -/
def Succeeds (d : Delivery) (s s' : Config (machine C T)) : Prop :=
  ∃ t delay error,
    ∃ k : Except String Unit → Prog Api Unit, ∃ hist : History Api, s.thread t =
      some ⟨.call (.db (.updateDelivery d.eventId d.webhookId delay true error)) k, hist⟩ ∧
    Accepted C d.eventId d.webhookId hist ∧
    ∃ r, s'.trace = (t, ⟨.db (.updateDelivery d.eventId d.webhookId delay true error), r⟩) :: s.trace

/-- No delivery is put off for more than a day. -/
def Scheduled (s : Config (machine C T)) : Prop :=
  ∀ d ∈ s.world.db.deliveries, d.nextAttempt ≤ s.world.now + 86400

/-- What is not delivered waits, until an attempt or the end of its webhook. -/
theorem waits_or (hs : Reach anyMove s) (hsched : Scheduled s) (hst : s.step m = some s') :
    Scheduled s' ∧ ∀ d ∈ s.world.db.deliveries, d.delivered = false →
      Waits d s' ∨ (∀ w ∈ s'.world.db.webhooks, w.id ≠ d.webhookId) ∨ Succeeds d s s' := by
  rcases step_change hst with ⟨-, -, hdeliveries, hnow, -⟩ | ⟨t, ch, c, k, hist, r, hth, htr, hp⟩
  · constructor
    · intro d hd
      rw [hdeliveries] at hd
      have hold := hsched d hd
      omega
    · intro d hd hwait
      have hold := hsched d hd
      left
      refine ⟨d, ?_, rfl, hwait, by omega⟩
      rw [hdeliveries]
      exact hd
  · obtain ⟨hchange, hnow⟩ := perform_change hp
    -- a move that keeps the delivery and adds new ones
    have hgrow : (∀ d ∈ s.world.db.deliveries, d ∈ s'.world.db.deliveries) →
        (∀ d ∈ s'.world.db.deliveries, d ∈ s.world.db.deliveries ∨ d.nextAttempt = 0) →
        Scheduled s' ∧ ∀ d ∈ s.world.db.deliveries, d.delivered = false →
          Waits d s' ∨ (∀ w ∈ s'.world.db.webhooks, w.id ≠ d.webhookId) ∨ Succeeds d s s' := by
      intro hkeep hnew
      constructor
      · intro d hd
        rcases hnew d hd with hold | hzero
        · rw [hnow]
          exact hsched d hold
        · omega
      · intro d hd hwait
        refine .inl ⟨d, hkeep d hd, rfl, hwait, ?_⟩
        rw [hnow]
        exact hsched d hd
    have hfresh : ∀ (events : List EventRow) d, (∃ event ∈ events,
        d ∈ event.deliveries s.world.db.webhooks) → d.nextAttempt = 0 := by
      rintro events d ⟨event, -, hd⟩
      obtain ⟨w, -, rfl⟩ := List.mem_map.mp hd
      rfl
    cases hchange with
    | same hwebhooks hevents hdeliveries =>
        apply hgrow
        · rw [hdeliveries]
          exact fun d hd => hd
        · rw [hdeliveries]
          exact fun d hd => .inl hd
    | captured ids hcapture =>
        obtain ⟨new, hcap, -, -⟩ := Db.capture_ok hcapture
        apply hgrow
        · exact fun d hd => (hcap.deliveries d).mpr (.inl hd)
        · exact fun d hd => ((hcap.deliveries d).mp hd).imp_right (hfresh new d)
    | registered w ids hregister =>
        obtain ⟨db₁, hcapture, -, -, -, hdeliveries⟩ := Db.registerWebhook_ok hregister
        obtain ⟨new, hcap, -, -⟩ := Db.capture_ok hcapture
        apply hgrow
        · rw [hdeliveries]
          exact fun d hd => (hcap.deliveries d).mpr (.inl hd)
        · rw [hdeliveries]
          exact fun d hd => ((hcap.deliveries d).mp hd).imp_right (hfresh new d)
    | deleted owner id hdelete =>
        constructor
        · intro d hd
          rw [hdelete] at hd
          rw [hnow]
          exact hsched d (List.mem_filter.mp hd).1
        · intro d hd hwait
          rcases @Db.deleteWebhook_rows s.world.db owner id d hd with hkeep | hgone
          · left
            refine ⟨d, ?_, rfl, hwait, ?_⟩
            · rw [hdelete]
              exact hkeep
            · rw [hnow]
              exact hsched d hd
          · right; left
            rw [hdelete]
            exact hgone
    | updated event webhook now delay delivered error hupdate =>
        obtain ⟨hdelay, haccepted⟩ : delay ≤ 86400 ∧
          (delivered = true → Accepted C event webhook hist) := hs.justified handler_lawful hth
        rcases perform_update hp with hsame | hset
        · apply hgrow
          · rw [hsame]
            exact fun d hd => hd
          · rw [hsame]
            exact fun d hd => .inl hd
        · have hrows : s'.world.db.deliveries = s.world.db.deliveries.map fun d =>
              if d.key = (event, webhook) then
                Db.attempted (s.world.now + delay) delivered error d
              else d := by
            rw [hset]
            rfl
          constructor
          · intro d hd
            rw [hrows] at hd
            obtain ⟨old, hold, rfl⟩ := List.mem_map.mp hd
            rw [hnow]
            split
            · show s.world.now + delay ≤ s.world.now + 86400
              omega
            · exact hsched old hold
          · intro d hd hwait
            by_cases hkey : d.key = (event, webhook)
            · obtain ⟨rfl, rfl⟩ := Prod.mk.inj hkey
              cases delivered with
              | true => exact .inr (.inr ⟨t, delay, error, k, hist, hth, haccepted rfl, r, htr⟩)
              | false =>
                  left
                  refine ⟨Db.attempted (s.world.now + delay) false error d, ?_, rfl, rfl, ?_⟩
                  · rw [hrows]
                    exact List.mem_map.mpr ⟨d, hd, if_pos rfl⟩
                  · rw [hnow]
                    show s.world.now + delay ≤ s.world.now + 86400
                    omega
            · left
              refine ⟨d, ?_, rfl, hwait, ?_⟩
              · rw [hrows]
                exact List.mem_map.mpr ⟨d, hd, if_neg hkey⟩
              · rw [hnow]
                exact hsched d hd

/-- Every attempt lies within a day, in every state. -/
theorem scheduled (hs : Reach anyMove s) : Scheduled s := by
  refine hs.invariant (J := Scheduled) ?_ ?_
  · exact fun d hd => nomatch hd
  · exact fun s s' m hr ih _ hst => (waits_or hr ih hst).1

/-! ### Runs -/

/-- From `s` to `s'` a pass reads what is due, or a webhook is registered. -/
inductive Capturing (s s' : Config (machine C T)) : Prop
  | pass (t : Nat) (rows : List Db.Due)
      (htrace : s'.trace = (t, (⟨.db .due, .ok rows⟩ : Event Api)) :: s.trace)
  | registration (t : Nat) (w : Webhook)
      (htrace : s'.trace = (t, (⟨.db (.registerWebhook w), .ok ()⟩ : Event Api)) :: s.trace)

/-- A capture misses no request that is finished. -/
theorem Capturing.complete (hst : s.step m = some s') (hc : Capturing s s') {id : String}
    (hid : s.world.db.Terminal id) : id ∈ s'.world.db.events.map EventRow.requestId := by
  cases hc with
  | pass t rows htrace =>
      obtain ⟨ch, hp⟩ := step_performs hst htrace
      obtain ⟨⟨ids, hcapture⟩, -⟩ := perform_due hp
      obtain ⟨new, -, -, hterminal⟩ := Db.capture_ok hcapture
      exact hterminal id hid
  | registration t w htrace =>
      obtain ⟨ch, hp⟩ := step_performs hst htrace
      obtain ⟨ids, hregister⟩ := perform_register hp
      obtain ⟨db₁, hcapture, -, -, hevents, -⟩ := Db.registerWebhook_ok hregister
      obtain ⟨new, -, -, hterminal⟩ := Db.capture_ok hcapture
      rw [hevents]
      exact hterminal id hid

/-- **Notifications.**  A request has at most one event, which stays as it is.  The move that makes
an event makes its deliveries: one to each webhook that is there, has the owner of the request and
lists the type, and these were registered before the request was finished.  No other move makes a
delivery.  A delivery waits, and is due within a day, until an attempt succeeds or its webhook is
deleted.  After each pass and each registration every request that was finished before has its
event; the pass goes on to attempt what is due, and that is every delivery that waits until then,
except where twenty others have waited as long. -/
theorem webhook_deliveries (hs : Reach anyMove s) (hst : s.step m = some s') :
    ((s'.world.db.events.map EventRow.requestId).Nodup ∧
      ∀ event ∈ s.world.db.events, ∀ s'', Later anyMove s s'' → event ∈ s''.world.db.events) ∧
    (∀ event ∈ s'.world.db.events, event ∉ s.world.db.events →
      s.world.db.Source event ∧
      ∀ id, (∃ d ∈ s'.world.db.deliveries, d.key = (event.id, id)) ↔
        ∃ w ∈ s.world.db.webhooks, w.id = id ∧ w.owner = event.owner ∧
          event.eventType ∈ w.events ∧ NotYet s w event.requestId) ∧
    (∀ w ∈ s.world.db.webhooks, ∃ a b, Reach anyMove a ∧ Registers w a b ∧ Later anyMove b s) ∧
    (∀ d' ∈ s'.world.db.deliveries, (∀ d ∈ s.world.db.deliveries, d.key ≠ d'.key) →
      ∃ event ∈ s'.world.db.events, event ∉ s.world.db.events ∧ event.id = d'.eventId) ∧
    (∀ d ∈ s.world.db.deliveries, d.delivered = false →
      Waits d s' ∨ (∀ w ∈ s'.world.db.webhooks, w.id ≠ d.webhookId) ∨ Succeeds d s s') ∧
    (Capturing s s' → ∀ id, s.world.db.Terminal id →
      id ∈ s'.world.db.events.map EventRow.requestId) ∧
    (∀ t rows, s'.trace = (t, (⟨.db .due, .ok rows⟩ : Event Api)) :: s.trace →
      rows = s'.world.db.due s'.world.now) ∧
    ∀ d ∈ s.world.db.deliveries, d.delivered = false → ∀ now, d.nextAttempt ≤ now →
      (∃ row ∈ s.world.db.due now, row.eventId = d.eventId ∧ row.webhookId = d.webhookId) ∨
      20 ≤ (s.world.db.deliveries.filter fun o =>
        !o.delivered && decide (o.nextAttempt ≤ d.nextAttempt) && o.key != d.key).length := by
  refine ⟨⟨s'.world.db.eventRequests, ?_⟩, ?_, registered hs, ?_, ?_, ?_, ?_, ?_⟩
  · exact fun event he s'' hl => later_events hl he
  · intro event he' he
    refine ⟨new_source hst he' he, fun id => (new_deliveries hst he' he id).trans ?_⟩
    constructor
    · rintro ⟨w, hw, hid, howner, htype⟩
      exact ⟨w, hw, hid, howner, htype, notYet_of_new hst he' he w⟩
    · rintro ⟨w, hw, hid, howner, htype, -⟩
      exact ⟨w, hw, hid, howner, htype⟩
  · exact fun d' hd' hnew => delivery_of_new hst hd' hnew
  · exact (waits_or hs (scheduled hs) hst).2
  · exact fun hc id hid => hc.complete hst hid
  · intro t rows htrace
    obtain ⟨ch, hp⟩ := step_performs hst htrace
    exact (perform_due hp).2
  · exact fun d hd hwait now hdue => Db.due_or_twenty hd hwait hdue

namespace Sample

/-- A URL parser for the only URL of the run. -/
def service : Service where
  allowLocal := false
  parse := fun raw =>
    if raw = "https://wallet.test/" then some ⟨raw, "https", some "wallet.test", "", none, none⟩
    else none
  signature := fun _ _ => ""

/-- The sample's tables, with one request that is not finished. -/
def tables : Tables where
  requests := .empty
  sends := .empty
  receives := .empty
  requestIds := List.nodup_nil
  receivePayments := .empty
  exits := .empty
  receiver := fun _ => ""
  amountSats := fun _ => 0
  preimage := fun _ => none

/-- A send that is finished. -/
def sent : Tables :=
  { tables with
    requests := ⟨[⟨"send", "LIGHTNING_SEND", "alice", "", ⟨none, none, ""⟩⟩], List.nodup_singleton _⟩
    sends := ⟨[⟨"send", "SUCCEEDED"⟩], List.nodup_singleton _⟩ }

def ids (n : Nat) : Uuid := Uuid.ending (UInt8.ofNat n)

/-- Alice registers a webhook, a send of hers is finished, and the worker starts a pass. -/
def finishes : List (Move (machine service tables)) :=
  [.spawn (Request.register "alice" ⟨some "https://wallet.test/", some "key",
      some [some "SPARK_LIGHTNING_SEND_FINISHED"]⟩),
    .run 0 (.done ids), .run 0 (.uuid (ids 0)), .run 0 (.done ids), .outside (.change sent),
    .spawn Request.deliver]

end Sample

/-- The pass of the run tells the webhook of Alice. -/
theorem webhook_deliveries_sent : ∃ s s' : Config (machine Sample.service Sample.tables),
    Reach anyMove s ∧ ∃ event ∈ s'.world.db.events, event ∉ s.world.db.events ∧
      s.world.db.Source event ∧ ∃ d ∈ s'.world.db.deliveries, d.eventId = event.id ∧
        ∃ w ∈ s.world.db.webhooks, w.id = d.webhookId ∧ NotYet s w event.requestId := by
  obtain ⟨s, hs, hp⟩ := Reach.exists_of_moves Sample.finishes (fun s => s.world.db.deliveries.isEmpty &&
    (s.step (.run 1 (.done Sample.ids))).any fun s' => !s'.world.db.deliveries.isEmpty)
    (by decide +kernel)
  obtain ⟨hnone, hp⟩ := Bool.and_eq_true_iff.mp hp
  obtain ⟨s', hst, hsome⟩ := Option.any_eq_true _ _ |>.mp hp
  obtain ⟨d, hd⟩ := List.exists_mem_of_ne_nil _ (by simpa using hsome)
  obtain ⟨-, hevents, -, hnew, -⟩ := webhook_deliveries hs hst
  -- the delivery is one of a new event
  have hfresh : ∀ old ∈ s.world.db.deliveries, old.key ≠ d.key := by
    rw [List.isEmpty_iff.mp hnone]
    exact fun old hold => nomatch hold
  obtain ⟨event, hevent, hnot, hid⟩ := hnew d hd hfresh
  obtain ⟨hsource, htold⟩ := hevents event hevent hnot
  obtain ⟨w, hw, hwid, -, -, hnotYet⟩ := (htold d.webhookId).mp ⟨d, hd, Prod.ext hid.symm rfl⟩
  exact ⟨s, s', hs, event, hevent, hnot, hsource, d, hd, hid.symm, w, hw, hwid, hnotYet⟩

end OpenSsp.Webhooks
