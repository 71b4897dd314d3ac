/-
OpenSsp/Webhooks/Client.lean

The HTTP clients that webhooks are delivered with (`client_for`).

In `Webhooks/Machine.lean` the client of a URL is one call with any reply.  Here it is what the code
does: take the address from the URL or ask the name service, refuse the host if any of its addresses
is not public, and build a client that connects to these addresses and no others.  The machine with
these steps refines the other one, and in it nothing is sent to an address that was not judged.

Main results: `clientRefinement` and `sends_go_out`.
-/
import OpenSsp.Lib.Refine
import OpenSsp.Webhooks.Destination
import OpenSsp.Webhooks.Delivery

namespace OpenSsp.Webhooks.Http

open Interleave

/-! ### Calls -/

/-- An address of a host, with the port. -/
structure SocketAddr where
  ip : IpAddr
  port : UInt16

/-- A client without proxy and redirects that resolves its host to these addresses. -/
structure Client where
  host : String
  addresses : List SocketAddr

/-- What is used of third parties besides: the port of a URL, or the one of its scheme. -/
structure Service where
  base : Webhooks.Service
  portOrKnownDefault : Url → Option UInt16

/-- What a look-up of a name ends with. -/
inductive Lookup where
  | timeout
  | failed
  | addresses (found : List SocketAddr)

/-- What the HTTP side asks of the outside. -/
inductive Call where
  | newUuid
  | db (q : Query)
  | lookupHost (host : String) (port : UInt16)
  | build (client : Client)
  | send (client : Client) (url : Url) (signature event : String) (body : Payload)

@[reducible] def Call.Reply : Call → Type
  | newUuid => Uuid
  | db q => Except String q.Out
  | lookupHost .. => Lookup
  | build _ => Bool
  | send .. => Except String Nat

@[reducible] def Api : Interface := ⟨Call, Call.Reply⟩

/-- A function of the source: it can call, and fail with a text. -/
abbrev Ssp (α : Type) := Act Api String α

/-! ### `client_for` -/

variable (C : Service)

/-- Without brackets at both ends. -/
def trimBrackets (s : String) : String :=
  let bracket := fun c => c == '[' || c == ']'
  String.ofList ((s.toList.dropWhile bracket).reverse.dropWhile bracket).reverse

/-- The addresses of a name. -/
def lookupHost (host : String) (port : UInt16) : Ssp (List SocketAddr) :=
  Act.ask (I := Api) (.lookupHost host port) fun
    | .timeout => .error "webhook DNS timeout"
    | .failed => .error "webhook DNS failed"
    | .addresses found => .ok found

/-- The client is built; this can fail. -/
def build (client : Client) : Ssp Unit :=
  Act.ask (I := Api) (.build client) fun built =>
    if built then .ok () else .error "webhook HTTP client failed"

/-- The addresses of the host, 32 at most. -/
def addressesOf (host : String) (port : UInt16) : Ssp (List SocketAddr) :=
  match parseIp host with
  | some ip => return [⟨ip, port⟩]
  | none => do
      let found ← lookupHost host port
      return found.take 32

/-- Without an address, or with one that must not be reached. -/
def refuses (addresses : List SocketAddr) : Bool :=
  addresses.isEmpty || addresses.any fun a =>
    !publicIp a.ip && !(C.base.allowLocal && localTestIp a.ip)

/-- `client_for`: a client that is held to the addresses that were judged. -/
def clientFor (url : Url) : Ssp Client := do
  let host ← Act.ofExcept (okOr "missing webhook host" url.host)
  let port ← Act.ofExcept (okOr "missing webhook port" (C.portOrKnownDefault url))
  let addresses ← addressesOf (trimBrackets host) port
  if refuses C addresses then throw "webhook address is not public"
  build ⟨trimBrackets host, addresses⟩
  return ⟨trimBrackets host, addresses⟩

/-- The calls of `Webhooks/Machine.lean` in detail.  The client stays in a variable until the body is
posted. -/
def implementation : Implementation Webhooks.Api Api where
  State := Option Client
  start := none
  carry
    | .newUuid, client => Prog.perform (I := Api) .newUuid >>= fun id => .ret (id, client)
    | .db q, client => Prog.perform (I := Api) (.db q) >>= fun r => .ret (r, client)
    | .clientFor url, _ => (clientFor C url).run >>= fun r => .ret (r.map fun _ => (), r.toOption)
    | .post url signature event body, some client =>
        Prog.perform (I := Api) (.send client url signature event body) >>= fun r =>
          .ret (r, some client)
    -- the code has no body to post without a client
    | .post .., none => .ret (.error "", none)

/-! ### The machine -/

inductive Choice where
  | base (ch : Webhooks.Choice)
  | lookup (r : Lookup)
  | built (ok : Bool)

def perform (c : Call) (ch : Choice) (w : World) : Option (c.Reply × World) :=
  match c, ch with
  | .newUuid, .base ch => Webhooks.perform .newUuid ch w
  | .db q, .base ch => Webhooks.perform (.db q) ch w
  | .lookupHost .., .lookup r => some (r, w)
  | .build _, .built ok => some (ok, w)
  | .send _ url signature event body, .base ch =>
      Webhooks.perform (.post url signature event body) ch w
  | _, _ => none

def machine (T : Tables) : Machine Api where
  World := World
  Choice := Choice
  Outside := Webhooks.Outside
  Request := Webhooks.Request
  init := (Webhooks.machine C.base T).init
  handler r := (implementation C).program (Request.handler C.base r) none
  perform _ := perform
  outside o w := some (Webhooks.outside o w)
  cancel _ w := w
  crash w := w

/-! ### It refines the other machine -/

/-- A program of one call. -/
theorem single {I : Interface} {α : Type} {c d : I.Call} {g : I.Reply c → α} {h : History I}
    {k : I.Reply d → Prog I α} (hu : (Prog.perform c >>= fun r => Prog.ret (g r)).After h (.call d k)) :
    d = c ∧ HEq k fun r => (Prog.ret (g r) : Prog I α) := by
  rcases Prog.After.of_call hu with ⟨-, heq⟩ | ⟨r, h', -, hrest⟩
  · obtain ⟨rfl, hk⟩ := Prog.call.inj heq
    exact ⟨rfl, hk⟩
  · obtain ⟨-, heq⟩ := hrest.of_ret
    cases heq

/-- Calls that change nothing. -/
def Call.looks : Call → Prop
  | .lookupHost .. | .build _ => True
  | _ => False

theorem clientFor_looks (url : Url) : (clientFor C url).Calls Call.looks := by
  refine .bind .ofExcept fun host => .bind .ofExcept fun port => .bind ?_ fun addresses => ?_
  · unfold addressesOf
    split
    · exact .pure
    · exact .bind (.ask trivial) fun found => .pure
  · exact .guard (.bind (.ask trivial) fun _ => .pure)

theorem perform_looks {c : Call} (hc : c.looks) {ch : Choice} {w w' : World} {r : c.Reply}
    (hp : perform c ch w = some (r, w')) : w' = w := by
  cases c <;> first
    | exact hc.elim
    | (cases ch <;> simp only [perform, Option.some.injEq, Prod.mk.injEq, reduceCtorEq] at hp
       exact hp.2.symm)

/-- Any outcome of `client_for` is one of the other machine, which leaves the world as it is. -/
theorem clientFor_any (url : Url) (r : Except String Unit) (w : World) :
    ∃ ch, Webhooks.perform (.clientFor url) ch w = some (r, w) := by
  cases r with
  | ok u => exact ⟨.done fun _ => Uuid.fill 0, rfl⟩
  | error e => exact ⟨.fail e, rfl⟩

/-- The calls of the program of `client_for` change nothing. -/
theorem carry_looks {url : Url} {σ : Option Client} {h : History Api} {d : Call}
    {k : d.Reply → Prog Api (Except String Unit × Option Client)}
    (hu : ((implementation C).carry (.clientFor url) σ).After h (.call d k)) : d.looks := by
  have hcalls : ((implementation C).carry (.clientFor url) σ).Calls Call.looks :=
    Prog.Calls.bind (clientFor_looks C url) fun r => .ret _
  rcases (hcalls.rest hu).1 with - | ⟨hd, -⟩
  exact hd

/-- **The machine with clients refines the one without**, with the same worlds. -/
def clientRefinement (T : Tables) :
    Refinement (Webhooks.machine C.base T) (machine C T) (implementation C) where
  world w := w
  request r := r
  init := rfl
  handler _ := rfl
  inner := by
    intro c σ h d k hu t ch w r w' hp hmore
    cases c with
    | newUuid =>
        obtain ⟨rfl, hk⟩ := single hu
        obtain rfl := eq_of_heq hk
        exact absurd rfl (hmore _)
    | db q =>
        obtain ⟨rfl, hk⟩ := single hu
        obtain rfl := eq_of_heq hk
        exact absurd rfl (hmore _)
    | clientFor url => exact perform_looks (carry_looks C hu) hp
    | post url signature event body =>
        cases σ with
        | none => cases (hu.of_ret).2
        | some client =>
            obtain ⟨rfl, hk⟩ := single hu
            obtain rfl := eq_of_heq hk
            exact absurd rfl (hmore _)
  last := by
    intro c σ h d k hu t ch w r w' x hp hx
    cases c with
    | newUuid =>
        obtain ⟨rfl, hk⟩ := single hu
        obtain rfl := eq_of_heq hk
        obtain rfl := Prog.ret.inj hx
        cases ch with
        | base ch => exact ⟨ch, hp⟩
        | _ => cases hp
    | db q =>
        obtain ⟨rfl, hk⟩ := single hu
        obtain rfl := eq_of_heq hk
        obtain rfl := Prog.ret.inj hx
        cases ch with
        | base ch => exact ⟨ch, hp⟩
        | _ => cases hp
    | clientFor url =>
        rw [perform_looks (carry_looks C hu) hp]
        exact clientFor_any url x.1 w
    | post url signature event body =>
        cases σ with
        | none => cases (hu.of_ret).2
        | some client =>
            obtain ⟨rfl, hk⟩ := single hu
            obtain rfl := eq_of_heq hk
            obtain rfl := Prog.ret.inj hx
            cases ch with
            | base ch => exact ⟨ch, hp⟩
            | _ => cases hp
  none := by
    intro c σ x hx t w
    cases c with
    | newUuid => cases hx
    | db q => cases hx
    | clientFor url => exact clientFor_any url x.1 w
    | post url signature event body =>
        cases σ with
        | none =>
            obtain rfl := Prog.ret.inj hx
            exact ⟨.fail "", rfl⟩
        | some client => cases hx
  outside ho := .inr ⟨_, ho⟩
  cancel _ _ := rfl
  crash _ := rfl

/-! ### Where a body is sent -/

/-- The URL is one that webhooks may have. -/
structure Admitted (url : Url) : Prop where
  scheme : url.scheme = "https" ∨ C.base.allowLocal = true ∧ url.scheme = "http"
  plain : url.username = "" ∧ url.password = none ∧ url.fragment = none

/-- The addresses are those of the host: the one it is written as, or the first ones that the name
service has answered for it. -/
inductive Resolves (seen : Event Api → Prop) (host : String) (port : UInt16)
    (addresses : List SocketAddr) : Prop
  | literal (ip : IpAddr) (hip : parseIp host = some ip) (heq : addresses = [⟨ip, port⟩])
  | named (found : List SocketAddr) (hip : parseIp host = none)
      (hlookup : seen ⟨.lookupHost host port, .addresses found⟩) (heq : addresses = found.take 32)

/-- The client connects to the addresses of the host of the URL, all of which may be sent to. -/
structure Pinned (seen : Event Api → Prop) (client : Client) (url : Url) : Prop where
  host : ∃ host port, url.host = some host ∧ C.portOrKnownDefault url = some port ∧
    client.host = trimBrackets host ∧ Resolves seen client.host port client.addresses
  nonempty : client.addresses ≠ []
  few : client.addresses.length ≤ 32
  judged : ∀ a ∈ client.addresses, a.ip.Public ∨ C.base.allowLocal = true ∧ a.ip.Local

section mono

variable {seen seen' : Event Api → Prop} (hseen : ∀ e, seen e → seen' e)
include hseen

theorem Resolves.mono {host : String} {port : UInt16} {addresses : List SocketAddr}
    (hr : Resolves seen host port addresses) : Resolves seen' host port addresses := by
  cases hr with
  | literal ip hip heq => exact .literal ip hip heq
  | named found hip hlookup heq => exact .named found hip (hseen _ hlookup) heq

variable {C}

theorem Pinned.mono {client : Client} {url : Url} (hp : Pinned C seen client url) :
    Pinned C seen' client url := by
  obtain ⟨host, port, hhost, hport, hclient, hr⟩ := hp.host
  exact ⟨⟨host, port, hhost, hport, hclient, hr.mono hseen⟩, hp.nonempty, hp.few, hp.judged⟩

end mono

/-- A body is sent through a pinned client to an admitted URL. -/
def Goes (h : History Api) : Call → Prop
  | .send client url _ _ _ => Pinned C (· ∈ h) client url ∧ Admitted C url
  | _ => True

/-- The addresses of a host come from its text or from the reply to its lookup. -/
theorem addressesOf_resolves (host : String) (port : UInt16) (h : History Api) :
    Act.Spec (Goes C) (fun _ => True) (addressesOf host port)
      (fun addresses h' => addresses.length ≤ 32 ∧ Resolves (· ∈ h') host port addresses) h := by
  unfold addressesOf
  cases hip : parseIp host with
  | some ip => exact .pure ⟨by simp, .literal ip hip rfl⟩
  | none =>
      refine Act.Spec.bind (Act.Spec.ask_eq (I := Api) (c := .lookupHost _ _) trivial
        fun _ => trivial) ?_
      rintro found h₁ - ⟨r, hr, rfl⟩
      -- only a reply with addresses is used
      cases r with
      | timeout => cases hr
      | failed => cases hr
      | addresses found' =>
          obtain rfl := Except.ok.inj hr
          exact .pure ⟨List.length_take_le 32 _, .named _ hip List.mem_cons_self rfl⟩

/-- What was not refused is public, or local where that is allowed. -/
theorem judged_of_accepted {addresses : List SocketAddr} (h : ¬ refuses C addresses = true) :
    addresses ≠ [] ∧ ∀ a ∈ addresses, a.ip.Public ∨ C.base.allowLocal = true ∧ a.ip.Local := by
  have hnot : refuses C addresses = false := by simpa using h
  rw [refuses, Bool.or_eq_false_iff, List.any_eq_false] at hnot
  refine ⟨by simpa using hnot.1, fun a ha => ?_⟩
  have hjudge := hnot.2 a ha
  rw [← publicIp_iff, ← localTestIp_iff]
  cases hpublic : publicIp a.ip with
  | true => exact .inl rfl
  | false => exact .inr (by simpa [hpublic] using hjudge)

/-- A client is pinned to the addresses that were judged. -/
theorem clientFor_pinned (url : Url) (h : History Api) :
    Act.Spec (Goes C) (fun _ => True) (clientFor C url)
      (fun client h' => Pinned C (· ∈ h') client url) h := by
  refine Act.Spec.bind Act.Spec.ofExcept_eq ?_
  rintro host h₁ - ⟨hhost, rfl⟩
  refine Act.Spec.bind Act.Spec.ofExcept_eq ?_
  rintro port h₂ - ⟨hport, rfl⟩
  refine Act.Spec.bind (addressesOf_resolves C (trimBrackets host) port h₂) ?_
  rintro addresses h₃ - ⟨hfew, hresolves⟩
  apply Act.Spec.guard
  intro hjudged
  obtain ⟨hsome, hall⟩ := judged_of_accepted C hjudged
  refine Act.Spec.bind (Act.Spec.ask_eq (I := Api) (c := .build _) trivial fun _ => trivial) ?_
  rintro _ h₄ - ⟨r, -, rfl⟩
  refine .pure ⟨⟨host, port, okOr_eq_ok.mp hhost, okOr_eq_ok.mp hport, rfl, ?_⟩, hsome, hfew, hall⟩
  exact hresolves.mono fun _ => List.mem_cons_of_mem _

/-- A body is posted right after the client was made, to an admitted URL. -/
def Posts (h : History Webhooks.Api) : Webhooks.Call → Prop
  | .post url _ _ _ => (∃ rest, h = ⟨.clientFor url, .ok ()⟩ :: rest) ∧ Admitted C url
  | _ => True

theorem parseUrl_admitted {raw : String} {url : Url} (h : parseUrl C.base raw = .ok url) :
    Admitted C url := by
  unfold parseUrl at h
  split at h
  · cases h
  · cases hparse : C.base.parse raw with
    | none => rw [hparse] at h; cases h
    | some url' =>
        rw [hparse] at h
        change (if ¬ (url'.scheme = "https" ∨ C.base.allowLocal ∧ url'.scheme = "http") ∨
          url'.host.isNone ∨ url'.username ≠ "" ∨ url'.password.isSome ∨ url'.fragment.isSome
          then _ else _) = _ at h
        split at h
        · cases h
        · rename_i hcond
          obtain rfl : url' = url := Except.ok.inj h
          obtain ⟨hscheme, hrest⟩ := not_or.mp hcond
          simp only [not_or, not_not, Bool.not_eq_true, Option.isSome_eq_false_iff,
            Option.isNone_iff_eq_none] at hrest
          exact ⟨not_not.mp hscheme, hrest.2.1, hrest.2.2.1, hrest.2.2.2⟩

theorem send_posts (d : Db.Due) (h : History Webhooks.Api) :
    Act.Spec (Posts C) (fun _ => True) (send C.base d) (fun _ _ => True) h := by
  refine Act.Spec.bind Act.Spec.ofExcept_eq ?_
  rintro url h₁ - ⟨hurl, rfl⟩
  refine Act.Spec.bind (Act.Spec.ask_eq (I := Webhooks.Api) (c := .clientFor url) trivial
    fun _ => trivial) ?_
  rintro _ h₂ - ⟨r, rfl, rfl⟩
  refine Act.Spec.bind (Act.Spec.ask_eq (I := Webhooks.Api) (c := .post url _ _ _)
    ⟨⟨h₁, rfl⟩, parseUrl_admitted C hurl⟩ fun _ => trivial) fun status h₃ _ _ => ?_
  apply Act.Spec.ite
  · exact fun _ => .throw
  · exact fun _ => .pure trivial

/-- No body is posted. -/
def Call.mute : Webhooks.Call → Prop
  | .post .. => False
  | _ => True

theorem registerWebhook_mute (owner : String) (input : WebhookInput) :
    (registerWebhook C.base owner input).Calls Call.mute :=
  .bind .ofExcept fun _ => .bind .ofExcept fun _ => .bind (.ask trivial) fun _ =>
    .bind .ofExcept fun _ => .bind .ofExcept fun _ => .bind (.tell trivial) fun _ =>
      .bind (.ask trivial) fun _ => .pure

theorem handler_posts (r : Request) :
    (Request.handler C.base r).wp (Posts C) (fun _ _ => True) [] := by
  have hmute : ∀ {α : Type} {act : Webhooks.Ssp α}, act.Calls Call.mute →
      (discard act.run).wp (Posts C) (fun _ _ => True) [] := by
    intro α act hact
    rw [Prog.wp_discard]
    refine Prog.wp_mono (hact.spec (P := Posts C) (fun h c hc => ?_) []).wp fun _ _ _ => trivial
    cases c <;> trivial
  cases r with
  | register owner input => exact hmute (registerWebhook_mute C owner input)
  | list owner => exact hmute (.ask trivial)
  | delete owner id => exact hmute (.ask trivial)
  | deliver =>
      have hpass : Act.Spec (Posts C) (fun _ => True) (deliverWebhooks C.base) (fun _ _ => True) [] := by
        refine Act.Spec.bind (Act.Spec.ask_eq (I := Webhooks.Api) (c := .db .due) trivial
          fun _ => trivial) fun due h₁ _ _ => ?_
        refine Act.Spec.forEach (K := fun _ _ => True) (fun d _ h₂ _ _ => ?_) fun _ _ _ _ => trivial
        refine Act.Spec.bind (send_posts C d h₂).attempt fun result h₃ _ _ => ?_
        exact Act.Spec.ask (I := Webhooks.Api) trivial (fun _ => trivial) fun _ _ _ => trivial
      show (discard (deliverWebhooks C.base).run).wp (Posts C) (fun _ _ => True) []
      rw [Prog.wp_discard]
      exact Prog.wp_mono hpass.wp fun _ _ _ => trivial

/-- After `client_for` the client of that URL is in the variable. -/
def Holds (σ : Option Client) (h : History Webhooks.Api) (h' : History Api) : Prop :=
  ∀ url rest, h = ⟨.clientFor url, .ok ()⟩ :: rest →
    ∃ client, σ = some client ∧ Pinned C (· ∈ h') client url

theorem carry_goes (c : Webhooks.Call) (σ : Option Client) (h : History Webhooks.Api)
    (h' : History Api) (hc : Posts C h c) (hσ : Holds C σ h h') :
    ((implementation C).carry c σ).wp (Goes C)
      (fun x h₁ => Holds C x.2 (⟨c, x.1⟩ :: h) h₁) h' := by
  cases c with
  | newUuid => exact ⟨trivial, fun _ => fun url rest heq => by cases heq⟩
  | db q => exact ⟨trivial, fun _ => fun url rest heq => by cases heq⟩
  | clientFor url =>
      refine (Prog.wp_bind _ _ _ _).mpr (Prog.wp_mono (clientFor_pinned C url h').wp ?_)
      rintro (e | client) h₁ hr url' rest heq
      · cases heq
      · obtain ⟨heq, -⟩ := List.cons.inj heq
        cases heq
        exact ⟨client, rfl, hr.2⟩
  | post url signature event body =>
      obtain ⟨⟨rest, rfl⟩, hadmitted⟩ := hc
      obtain ⟨client, rfl, hpinned⟩ := hσ url rest rfl
      exact ⟨⟨hpinned, hadmitted⟩, fun _ => fun url' rest' heq => by cases heq⟩

variable {C} {T : Tables} {s : Config (machine C T)}

/-- **Where notifications go.**  Each body is sent to an HTTPS URL without credentials, through a
client that connects only to the addresses that its host is written as or was looked up to have, and
every one of these is public; or to HTTP and to local addresses when the service allows that.  The
tables are those of a run of the machine that knows nothing of clients. -/
theorem sends_go_out (hs : Reach anyMove s) :
    (∀ t client url signature event body r,
      (t, (⟨.send client url signature event body, r⟩ : Event Api)) ∈ s.trace →
        Pinned C (fun e => (t, e) ∈ s.trace) client url ∧ Admitted C url) ∧
    ∃ s₀ : Config (Webhooks.machine C.base T), Reach anyMove s₀ ∧ s₀.world = s.world := by
  constructor
  · intro t client url signature event body r hmem
    have hgoes : ∀ r, ((machine C T).handler r).wp (Goes C) (fun _ _ => True) [] := fun r =>
      (implementation C).wp_program (carry_goes C) (handler_posts C r)
        fun url rest heq => nomatch heq
    obtain ⟨h, s₀, s₁, hm, hknown⟩ := hs.knew t _ hmem
    obtain ⟨ch, k, hth, -⟩ := hm.made
    obtain ⟨hpinned, hadmitted⟩ := hm.reach.justified hgoes hth
    exact ⟨hpinned.mono hknown, hadmitted⟩
  · obtain ⟨s₀, hs₀, hsim⟩ := (clientRefinement C T).reach hs
    exact ⟨s₀, hs₀, hsim.world⟩

namespace Sample

/-- The sample service, which knows the port of every scheme. -/
def service : Service := ⟨Webhooks.Sample.service, fun _ => some 443⟩

/-- The name service knows one address of the host. -/
def found : Choice := .lookup (.addresses [⟨.v4 ⟨93, 184, 215, 14⟩, 443⟩])

/-- Alice registers a webhook, a send of hers is finished, and the worker tells her. -/
def told : List (Move (machine service Webhooks.Sample.tables)) :=
  [.spawn (Request.register "alice" ⟨some "https://wallet.test/", some "key",
      some [some "SPARK_LIGHTNING_SEND_FINISHED"]⟩),
    .run 0 found, .run 0 (.built true), .run 0 (.base (.uuid (Webhooks.Sample.ids 0))),
    .run 0 (.base (.done Webhooks.Sample.ids)), .outside (.change Webhooks.Sample.sent),
    .spawn Request.deliver, .run 1 (.base (.done Webhooks.Sample.ids)), .run 1 found,
    .run 1 (.built true), .run 1 (.base (.status 200))]

/-- Whether an event posts something. -/
def sends (x : Nat × Event Api) : Bool :=
  match x.2.call with
  | .send .. => true
  | _ => false

end Sample

/-- The worker of the run sends to a public address of the host, which it has looked up. -/
theorem sends_go_out_told : ∃ (s : Config (machine Sample.service Webhooks.Sample.tables))
    (t : Nat) (client : Client) (url : Url) (signature event : String) (body : Payload)
    (r : Except String Nat), Reach anyMove s ∧
      (t, (⟨.send client url signature event body, r⟩ : Event Api)) ∈ s.trace ∧
      Pinned Sample.service (fun e => (t, e) ∈ s.trace) client url ∧ url.scheme = "https" := by
  obtain ⟨s, hs, hp⟩ := Reach.exists_of_moves Sample.told (fun s => s.trace.any Sample.sends)
    (by decide +kernel)
  obtain ⟨⟨t, c, r⟩, hmem, hsend⟩ := List.any_eq_true.mp hp
  cases c with
  | send client url signature event body =>
      obtain ⟨hpinned, hadmitted⟩ := (sends_go_out hs).1 t client url signature event body r hmem
      refine ⟨s, t, client, url, signature, event, body, r, hs, hmem, hpinned, ?_⟩
      exact hadmitted.scheme.resolve_right fun h => nomatch h.1
  | _ => cases hsend

end OpenSsp.Webhooks.Http
