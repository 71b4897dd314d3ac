/-
OpenSsp/RequestHistory.lean

The request history of a wallet, page after page (`history.rs`).

`request_history` joins a request with the rows of its settlement.  A page is the rows of an owner
that pass the filters, from the newest to the oldest and by id where two are as old, under the
cursor of the request.  A cursor is the base64 text of the JSON array of the owner, the time and the
id of a row.

Main results: `walk_complete` and its instance `Sample.walk_newer`.
-/
import OpenSsp.Deployment
import OpenSsp.Lib.JsonText
import OpenSsp.Lib.Keyset
import OpenSsp.Lib.Rfc3339
import OpenSsp.Lib.Table
import Mathlib.Data.Prod.Lex
import Mathlib.Data.String.Basic

namespace OpenSsp

open Interleave

namespace RequestHistory

/-! ### Tables -/

/-- A JSON value, as far as an input of this query is read. -/
inductive Json where
  | null
  | unsigned (n : Nat)
  | string (s : String)
  | array (vs : List Json)
  | other

def Json.asStr : Json → Option String
  | .string s => some s
  | _ => none

/-- The payload of a request: the keys that the view reads, and the rest. -/
structure Payload where
  network : Option String
  status : Option String
  rest : String
deriving DecidableEq

structure RequestRow where
  id : String
  kind : String
  owner : String
  createdAt : String
  payload : Payload
deriving DecidableEq

/-- A row of `lightning_sends`, as far as the view reads it. -/
structure SendRow where
  requestId : String
  status : String

structure ReceiveRow where
  hash : String
  requestId : String

structure ReceivePaymentRow where
  hash : String
  status : String

structure ExitRow where
  id : String
  status : String

structure Db where
  requests : Table RequestRow.id
  sends : Table SendRow.requestId
  receives : Table ReceiveRow.hash
  /-- `lightning_receives.request_id` is unique, too. -/
  requestIds : (receives.rows.map ReceiveRow.requestId).Nodup
  receivePayments : Table ReceivePaymentRow.hash
  exits : Table ExitRow.id

/-! ### The view -/

/-- A row of `request_history`. -/
structure HistoryRow extends RequestRow where
  requestType : String
  network : String
  requestStatus : String
deriving DecidableEq

/-- The type a kind of request is listed as. -/
def requestType (kind : String) : String :=
  if kind = "COOP_EXIT_V2" then "COOP_EXIT"
  else if kind = "CLAIM_INSTANT_STATIC_DEPOSIT_V2" then "CLAIM_STATIC_DEPOSIT"
  else kind

/-- The status the view computes for a request, from the first of its details that has one. -/
def requestStatus (status : Option String) (s : Option SendRow) (p : Option ReceivePaymentRow)
    (x : Option ExitRow) : String :=
  let send := s.map (·.status)
  let receive := p.map (·.status)
  let exit := x.map (·.status)
  if send = some "SUCCEEDED" ∨ receive = some "TRANSFER_COMPLETED" ∨ exit = some "SUCCEEDED" ∨
      status ∈ [some "SUCCEEDED", some "COMPLETED"] then "SUCCEEDED"
  else if send = some "FAILED" ∨ receive = some "HTLC_FAILED" ∨ status = some "FAILED" then "FAILED"
  else if exit = some "EXPIRED" ∨ status ∈ [some "EXPIRED", some "CANCELED"] then "CANCELED"
  else if send = some "PREPARED" ∨ receive = some "INVOICE_CREATED" ∨ exit = some "CREATED" ∨
      status = some "CREATED" then "CREATED"
  else if send ≠ none ∨ receive ≠ none ∨ exit ≠ none ∨
      status ∈ [some "IN_PROGRESS", some "OUTBOUND_TRANSFER_SENT"] then "IN_PROGRESS"
  else "UNKNOWN"

/-- One row of the view. -/
def historyRow (r : RequestRow) (s : Option SendRow) (p : Option ReceivePaymentRow)
    (x : Option ExitRow) : HistoryRow where
  toRequestRow := r
  requestType := requestType r.kind
  network := r.payload.network.getD ""
  requestStatus := requestStatus r.payload.status s p x

/-- `LEFT JOIN … ON on`: the matches of a row, or the row alone when it has none. -/
def leftJoin {β : Type} (rows : List β) (on : β → Bool) : List (Option β) :=
  match rows.filter on with
  | [] => [none]
  | matching => matching.map some

namespace Db

/-- `request_history` -/
def requestHistoryView (db : Db) : List HistoryRow := do
  let r ← db.requests.rows
  let s ← leftJoin db.sends.rows (·.requestId == r.id)
  let l ← leftJoin db.receives.rows (·.requestId == r.id)
  let p ← leftJoin db.receivePayments.rows fun p => l.any (p.hash == ·.hash)
  let x ← leftJoin db.exits.rows (·.id == r.id)
  return historyRow r s p x

end Db

/-! ### Requests for a page -/

/-- The variables of the query; a variable that is missing is `null`. -/
structure Input where
  first : Json
  types : Json
  statuses : Json
  networks : Json
  after : Json

/-- A page of the walk, with the cursor of the next. -/
structure Page where
  records : List RequestRow
  count : Nat
  hasNext : Bool
  hasPrevious : Bool
  start : Option String
  last : Option String

/-- The owner, network and filters of a query. -/
structure Scope where
  owner : String
  types : List String
  statuses : List String
  networks : List String
  network : String

/-- A filter of the input: an absent one, or a list of the allowed words. -/
def filter (input : Json) (field : String) (allowed : List String) :
    Except String (List String) :=
  match input with
  | .null => .ok []
  | .array values =>
      if values.length > allowed.length ∨
          values.any (fun v => !(v.asStr.any fun v => allowed.contains v)) then
        .error s!"invalid {field} filter"
      else .ok (values.filterMap Json.asStr)
  | _ => .error s!"{field} must be a list"

/-- The cursor behind a row. -/
def cursor (owner created id : String) : String :=
  base64Encode (utf8Bytes (jsonTriple owner created id))

/-- The size of a page. -/
def pageSize (first : Json) : Except String Nat :=
  match first with
  | .null => .ok 50
  | .unsigned n => if 1 ≤ n ∧ n ≤ 100 then .ok n else .error "first must be between 1 and 100"
  | _ => .error "first must be between 1 and 100"

/-- The scope an input asks for. -/
def readScope (owner : String) (input : Input) (network : String) : Except String Scope := do
  let types ← filter input.types "types"
    ["LIGHTNING_SEND", "LIGHTNING_RECEIVE", "COOP_EXIT", "LEAVES_SWAP", "CLAIM_STATIC_DEPOSIT"]
  let statuses ← filter input.statuses "statuses"
    ["CREATED", "IN_PROGRESS", "SUCCEEDED", "FAILED", "CANCELED", "UNKNOWN"]
  let networks ← filter input.networks "networks"
    ["MAINNET", "TESTNET", "SIGNET", "REGTEST", "LOCAL"]
  return ⟨owner, types, statuses, networks, network⟩

/-- The owner, the time and the id in a cursor. -/
def decodeCursor (encoded : String) : Option (String × String × String) := do
  let bytes ← base64Decode encoded
  let text ← utf8Text bytes
  parseTriple text

/-- The time and the id of a cursor; two empty texts when there is none. -/
def readCursor (owner : String) (after : Json) : Except String (String × String) :=
  match after with
  | .null => .ok ("", "")
  | after => do
      let encoded ← okOr "invalid cursor" (after.asStr.filter fun v => v.utf8ByteSize ≤ 1024)
      let (cursorOwner, created, id) ← okOr "invalid cursor" (decodeCursor encoded)
      if cursorOwner ≠ owner then throw "invalid cursor owner"
      return (created, id)

/-- `(created_at, id)` -/
def RequestRow.key (r : RequestRow) : String ×ₗ String := toLex (r.createdAt, r.id)

/-- The key the walk is ordered by. -/
def HistoryRow.key (r : HistoryRow) : String ×ₗ String := r.toRequestRow.key

namespace Scope

/-- `owner=?1 AND (json_array_length(?2)=0 OR request_type IN …) AND …` -/
def holds (scope : Scope) (r : HistoryRow) : Bool :=
  r.owner == scope.owner &&
  (scope.types.isEmpty || scope.types.contains r.requestType) &&
  (scope.statuses.isEmpty || scope.statuses.contains r.requestStatus) &&
  (scope.networks.isEmpty ||
    scope.networks.contains (if r.network = "" then scope.network else r.network))

/-- The rows of a scope. -/
def rows (scope : Scope) (db : Db) : List HistoryRow := db.requestHistoryView.filter scope.holds

end Scope

/-- The page of at most `first` rows under the cursor, from one more that is only looked for. -/
def page (scope : Scope) (first : Nat) (created id : String) (db : Db) : Page :=
  let rows := scope.rows db
  let after := if created = "" then none else some (toLex (created, id))
  let found := (descending HistoryRow.key (below HistoryRow.key after rows)).take (first + 1)
  let records := (found.take first).map HistoryRow.toRequestRow
  let makeCursor (r : RequestRow) := cursor scope.owner r.createdAt r.id
  { records := records
    count := rows.length
    hasNext := decide (first < found.length)
    hasPrevious := after.any fun k => rows.any fun r => decide (k ≤ r.key)
    start := records.head?.map makeCursor
    last := records.getLast?.map makeCursor }

/-- `request_history` -/
def requestHistory (db : Db) (owner : String) (input : Input) (network : String) :
    Except String Page := do
  let first ← pageSize input.first
  let scope ← readScope owner input network
  let (created, id) ← readCursor owner input.after
  return page scope first created id db

/-! ### One row for each request -/

/-- A join on a unique key has one row. -/
theorem leftJoin_unique {β κ : Type} [DecidableEq κ] {g : β → κ} {rows : List β}
    (h : (rows.map g).Nodup) (k : κ) :
    leftJoin rows (fun b => g b == k) = [rows.find? fun b => g b == k] := by
  have hfind : (rows.filter fun b => g b == k).head? = rows.find? fun b => g b == k :=
    List.head?_filter
  have hnodup : ((rows.filter fun b => g b == k).map g).Nodup :=
    h.sublist (List.filter_sublist.map g)
  have hkey : ∀ b ∈ rows.filter fun b => g b == k, g b = k := by
    intro b hb
    simpa using (List.mem_filter.mp hb).2
  rw [← hfind, leftJoin]
  generalize (rows.filter fun b => g b == k) = matching at hnodup hkey ⊢
  rcases matching with - | ⟨a, - | ⟨b, bs⟩⟩
  · rfl
  · rfl
  · have ha := hkey a (by simp)
    have hb := hkey b (by simp)
    simp [ha, hb] at hnodup

/-- A join that matches nothing has its one null row. -/
theorem leftJoin_none {β : Type} (rows : List β) : leftJoin rows (fun _ => false) = [none] := by
  rw [leftJoin, List.filter_false]

namespace Db

/-- The receive of a request and the row of its payment. -/
def receivePaymentOf (db : Db) (id : String) : Option ReceivePaymentRow := do
  let l ← db.receives.rows.find? (·.requestId == id)
  db.receivePayments.rows.find? (·.hash == l.hash)

/-- The row of the view for one request. -/
def historyRowOf (db : Db) (r : RequestRow) : HistoryRow :=
  historyRow r (db.sends.rows.find? (·.requestId == r.id)) (db.receivePaymentOf r.id)
    (db.exits.rows.find? (·.id == r.id))

/-- The view has one row for each request. -/
theorem requestHistoryView_eq (db : Db) :
    db.requestHistoryView = db.requests.rows.map db.historyRowOf := by
  rw [← List.flatMap_pure_eq_map]
  show db.requests.rows.flatMap _ = _
  congr 1
  funext r
  show (leftJoin db.sends.rows _).flatMap _ = _
  rw [leftJoin_unique db.sends.nodup, List.flatMap_singleton]
  show (leftJoin db.receives.rows _).flatMap _ = _
  rw [leftJoin_unique db.requestIds, List.flatMap_singleton]
  have hpayment : leftJoin db.receivePayments.rows (fun p =>
      (db.receives.rows.find? fun l => l.requestId == r.id).any (p.hash == ·.hash)) =
      [db.receivePaymentOf r.id] := by
    unfold receivePaymentOf
    cases db.receives.rows.find? fun l => l.requestId == r.id with
    | none => exact leftJoin_none _
    | some l => exact leftJoin_unique db.receivePayments.nodup l.hash
  show (leftJoin db.receivePayments.rows _).flatMap _ = _
  rw [hpayment, List.flatMap_singleton]
  show (leftJoin db.exits.rows _).flatMap _ = _
  rw [leftJoin_unique db.exits.nodup, List.flatMap_singleton]
  rfl

end Db

namespace Scope

/-- No two rows of a scope have one key. -/
theorem rows_nodup (scope : Scope) (db : Db) :
    ((scope.rows db).map HistoryRow.key).Nodup := by
  have hids : (db.requestHistoryView.map fun r => r.id).Nodup := by
    rw [Db.requestHistoryView_eq, List.map_map]
    exact db.requests.nodup
  have hkeys : (db.requestHistoryView.map HistoryRow.key).Nodup := by
    apply List.Nodup.of_map fun k : String ×ₗ String => (ofLex k).2
    rw [List.map_map]
    exact hids
  exact hkeys.sublist (List.filter_sublist.map _)

end Scope

/-! ### Cursors -/

/-- A public key as a client spells it in hexadecimal digits of either case. -/
def OwnerText (owner : String) : Prop :=
  ∃ bytes, hexDecode owner = some bytes ∧ (bytes.length = 33 ∨ bytes.length = 65)

/-- The time and the id of a row as the program writes them. -/
def Written (r : RequestRow) : Prop :=
  (∃ t : Instant, r.createdAt = t.text) ∧ ∃ u : Uuid, r.id = u.print

/-- A cursor is read back as it was printed. -/
theorem decodeCursor_cursor (owner created id : String) :
    decodeCursor (cursor owner created id) = some (owner, created, id) := by
  simp only [decodeCursor, cursor, base64Decode_encode, utf8Text_bytes, parseTriple_jsonTriple,
    Option.bind_eq_bind, Option.bind_some]

/-- A cursor of another owner is refused. -/
theorem readCursor_cursor {owner created id : String} (other : String)
    (hsize : (cursor owner created id).utf8ByteSize ≤ 1024) :
    readCursor other (.string (cursor owner created id)) =
      if owner = other then .ok (created, id) else .error "invalid cursor owner" := by
  have hfit : (some (cursor owner created id)).filter (fun v => v.utf8ByteSize ≤ 1024) =
      some (cursor owner created id) := by
    rw [Option.filter_some, if_pos (decide_eq_true hsize)]
  simp only [readCursor, Json.asStr, hfit, okOr, bind, Except.bind, decodeCursor_cursor]
  by_cases h : owner = other
  · rw [if_pos h, if_neg (by simp [h])]
    rfl
  · rw [if_neg h, if_pos h]
    rfl

/-- Hex digits are plain characters. -/
theorem hexValue_plain {c : Char} (h : (hexValue c).isSome) : plainChar c = true := by
  have hcode : (48 ≤ c.toNat ∧ c.toNat ≤ 57) ∨ (97 ≤ c.toNat ∧ c.toNat ≤ 102) ∨
      (65 ≤ c.toNat ∧ c.toNat ≤ 70) := by
    simp only [hexValue] at h
    split_ifs at h with h₁ h₂ h₃
    · exact .inl h₁
    · exact .inr (.inl h₂)
    · exact .inr (.inr h₃)
    · cases h
  have hquote : c ≠ '"' := by
    rintro rfl
    revert hcode
    decide
  have hback : c ≠ '\\' := by
    rintro rfl
    revert hcode
    decide
  simp only [plainChar, Bool.and_eq_true, decide_eq_true_eq, bne_iff_ne]
  exact ⟨⟨⟨by omega, by omega⟩, hquote⟩, hback⟩

/-- What decodes as hex is plain, two characters a byte. -/
theorem hexDecodeChars_plain {cs : List Char} {bs : List UInt8}
    (h : hexDecodeChars cs = some bs) : cs.all plainChar = true ∧ cs.length = 2 * bs.length := by
  induction cs using hexDecodeChars.induct generalizing bs with
  | case1 =>
      obtain rfl : [] = bs := Option.some.inj h
      exact ⟨rfl, rfl⟩
  | case2 a => cases h
  | case3 a b cs ih =>
      rw [hexDecodeChars] at h
      obtain ⟨x, hx, h⟩ := Option.bind_eq_some_iff.mp h
      obtain ⟨y, hy, h⟩ := Option.bind_eq_some_iff.mp h
      obtain ⟨bs', hbs, h⟩ := Option.bind_eq_some_iff.mp h
      obtain rfl := Option.some.inj h
      obtain ⟨hplain, hlength⟩ := ih hbs
      have ha : plainChar a = true := hexValue_plain (by rw [hx]; rfl)
      have hb : plainChar b = true := hexValue_plain (by rw [hy]; rfl)
      refine ⟨by simp [ha, hb, hplain], ?_⟩
      simp only [List.length_cons, hlength]
      omega

/-- Printed hex is plain. -/
theorem hexChars_plain (bs : List UInt8) : (hexChars bs).all plainChar = true :=
  (hexDecodeChars_plain (hexDecodeChars_hexChars bs)).1

/-- A printed UUID is plain. -/
theorem uuid_plain (u : Uuid) : u.print.toList.all plainChar = true := by
  have hhyphen : plainChar '-' = true := by decide
  rw [Uuid.print, String.toList_ofList]
  simp [Uuid.printChars, hexChars_plain, hhyphen, -List.all_eq_true]

/-- Decimal digits are plain. -/
theorem digit_plain {n : Nat} (h : n < 10) : plainChar (digit n) = true := by
  have hall : ∀ n < 10, plainChar (digit n) = true := by decide
  exact hall n h

/-- Decimal numbers are plain. -/
theorem decimal_plain (w n : Nat) : (decimal w n).all plainChar = true := by
  induction w generalizing n with
  | zero => rfl
  | succ w ih =>
      rw [decimal, List.all_append, ih, List.all_cons, digit_plain (by omega)]
      rfl

/-- Columns of numbers are plain between plain separators. -/
theorem columns_plain {layout : List (Nat × Char)}
    (h : ∀ c ∈ layout, plainChar c.2 = true) (ns : List Nat) :
    (columns layout ns).all plainChar = true := by
  induction layout generalizing ns with
  | nil => rfl
  | cons c layout ih =>
      cases ns with
      | nil => rfl
      | cons n ns =>
          rw [columns, List.all_append, List.all_cons, decimal_plain, h c (by simp),
            ih (fun d hd => h d (by simp [hd]))]
          rfl

/-- A fraction is three digits for each group, and the offset. -/
theorem fraction_plain (gs : List Nat) :
    (Instant.fraction gs).all plainChar = true ∧
      (Instant.fraction gs).length = 3 * gs.length + 6 := by
  induction gs with
  | nil => exact ⟨by decide, rfl⟩
  | cons g gs ih =>
      rw [Instant.fraction, List.all_append, decimal_plain, ih.1, List.length_append, ih.2,
        decimal_length, List.length_cons]
      exact ⟨rfl, by omega⟩

/-- The fraction of a second is plain and at most 16 characters long. -/
theorem subsecond_plain (n : Nat) :
    (Instant.subsecond n).all plainChar = true ∧ (Instant.subsecond n).length ≤ 16 := by
  have hgroups : (Instant.groups n).length ≤ 3 := by
    unfold Instant.groups
    split_ifs <;> simp
  have hdot : plainChar '.' = true := by decide
  unfold Instant.subsecond
  rcases h : Instant.groups n with - | ⟨g, gs⟩
  · exact ⟨by decide, by decide⟩
  · obtain ⟨hplain, hlength⟩ := fraction_plain (g :: gs)
    rw [h] at hgroups
    show ('.' :: Instant.fraction (g :: gs)).all plainChar = true ∧ _
    rw [List.all_cons, hplain, hdot, List.length_cons, hlength]
    exact ⟨rfl, by omega⟩

/-- A printed instant is plain and at most 35 characters long. -/
theorem text_plain (t : Instant) :
    t.text.toList.all plainChar = true ∧ 0 < t.text.length ∧ t.text.length ≤ 35 := by
  have hcolumns : (columns Instant.layout t.civil).all plainChar = true :=
    columns_plain (by decide) _
  have hlength : (columns Instant.layout t.civil).length = 17 := by
    simp [Instant.civil, Instant.layout, columns]
  obtain ⟨hplain, hsize⟩ := subsecond_plain t.nano
  rw [Instant.text, String.toList_ofList, String.length_ofList, Instant.chars, List.all_append,
    List.all_append, hcolumns, decimal_plain, hplain, List.length_append, List.length_append,
    hlength, decimal_length]
  exact ⟨rfl, by omega, by omega⟩

/-- The cursor of a row is short enough to be read. -/
theorem cursor_size {owner : String} {r : RequestRow} (howner : OwnerText owner)
    (hr : Written r) : (cursor owner r.createdAt r.id).utf8ByteSize ≤ 1024 := by
  obtain ⟨bytes, hbytes, hlength⟩ := howner
  obtain ⟨⟨t, ht⟩, u, hu⟩ := hr
  obtain ⟨howner, hsize⟩ := hexDecodeChars_plain hbytes
  obtain ⟨htext, -, htime⟩ := text_plain t
  have hid : u.print.length = 36 := Uuid.print_length u
  rw [String.length_toList] at hsize
  rw [cursor, base64Encode_size, utf8Bytes_length, ht, hu,
    jsonTriple_size howner htext (uuid_plain u)]
  omega

/-- No row was created at the empty text, which a first cursor stands for. -/
theorem createdAt_ne_empty {r : RequestRow} (hr : Written r) : r.createdAt ≠ "" := by
  obtain ⟨⟨t, ht⟩, -⟩ := hr
  intro hempty
  have hpos := (text_plain t).2.1
  rw [← ht, hempty] at hpos
  exact absurd hpos (by decide)

/-! ### Walks -/

/-- The pages of a client who asks for the next one while there is one; page `k` is read from
`dbs k`. -/
inductive Walk (dbs : Nat → Db) (owner : String) (input : Input) (network : String) :
    Nat → Json → List Page → Prop where
  | last {k : Nat} {after : Json} {page : Page}
      (hpage : requestHistory (dbs k) owner { input with after := after } network = .ok page)
      (hlast : page.hasNext = false) : Walk dbs owner input network k after [page]
  | next {k : Nat} {after : Json} {page : Page} {cursor : String} {pages : List Page}
      (hpage : requestHistory (dbs k) owner { input with after := after } network = .ok page)
      (hnext : page.hasNext = true) (hcursor : page.last = some cursor)
      (hrest : Walk dbs owner input network (k + 1) (.string cursor) pages) :
      Walk dbs owner input network k after (page :: pages)

/-- What a page says is so of the rows it is taken from, and its cursors are those of its first and
last record, which nobody but the owner can use. -/
structure Page.Right (page : Page) (owner : String) (first : Nat) (rows : List HistoryRow) :
    Prop where
  size : page.records.length ≤ first
  count : page.count = rows.length
  next : page.hasNext = true ↔ ∃ r ∈ rows, ∀ x ∈ page.records, r.key < x.key
  previous : page.hasPrevious = true ↔ ∃ r ∈ rows, ∀ x ∈ page.records, x.key < r.key
  start : page.start = page.records.head?.map fun r => cursor owner r.createdAt r.id
  last : page.last = page.records.getLast?.map fun r => cursor owner r.createdAt r.id
  read : ∀ r ∈ page.records, ∀ other,
    readCursor other (.string (cursor owner r.createdAt r.id)) =
      if owner = other then .ok (r.createdAt, r.id) else .error "invalid cursor owner"

/-- A walk has no choice. -/
theorem Walk.unique {dbs : Nat → Db} {owner network : String} {input : Input} {k : Nat}
    {after : Json} {ps qs : List Page} (hp : Walk dbs owner input network k after ps)
    (hq : Walk dbs owner input network k after qs) : ps = qs := by
  induction hp generalizing qs with
  | last hpage hlast =>
      cases hq with
      | last hpage' _ =>
          obtain rfl := Except.ok.inj (hpage.symm.trans hpage')
          rfl
      | next hpage' hnext _ _ =>
          obtain rfl := Except.ok.inj (hpage.symm.trans hpage')
          rw [hlast] at hnext
          cases hnext
  | next hpage hnext hcursor _ ih =>
      cases hq with
      | last hpage' hlast =>
          obtain rfl := Except.ok.inj (hpage.symm.trans hpage')
          rw [hlast] at hnext
          cases hnext
      | next hpage' _ hcursor' hrest' =>
          obtain rfl := Except.ok.inj (hpage.symm.trans hpage')
          obtain rfl := Option.some.inj (hcursor.symm.trans hcursor')
          rw [ih hrest']

/-- What a reader asks for next who has seen the first `m` rows of `l`. -/
def afterAt (owner : String) (l : List HistoryRow) (m : Nat) : Json :=
  match cursorAt HistoryRow.key l m with
  | none => .null
  | some k => .string (cursor owner (ofLex k).1 (ofLex k).2)

/-- A reader who has seen `m` rows is read as one. -/
theorem readCursor_afterAt {owner : String} {l : List HistoryRow} (howner : OwnerText owner)
    (hwritten : ∀ r ∈ l, Written r.toRequestRow) {m : Nat} (hm : m ≤ l.length) :
    ∃ created id, readCursor owner (afterAt owner l m) = .ok (created, id) ∧
      (if created = "" then none else some (toLex (created, id))) =
        cursorAt HistoryRow.key l m := by
  cases m with
  | zero => exact ⟨"", "", rfl, rfl⟩
  | succ m =>
      have hlt : m < l.length := hm
      have hr := hwritten l[m] (List.getElem_mem hlt)
      have hcursor : cursorAt HistoryRow.key l (m + 1) = some l[m].key := by
        show l[m]?.map _ = _
        rw [List.getElem?_eq_getElem hlt]
        rfl
      refine ⟨l[m].createdAt, l[m].id, ?_, ?_⟩
      · rw [afterAt, hcursor]
        show readCursor owner (.string (cursor owner l[m].createdAt l[m].id)) = _
        rw [readCursor_cursor owner (cursor_size howner hr), if_pos rfl]
      · rw [hcursor, if_neg (createdAt_ne_empty hr)]
        rfl

/-- A scope is the caller's own. -/
theorem readScope_owner {owner network : String} {input : Input} {scope : Scope}
    (h : readScope owner input network = .ok scope) : scope.owner = owner := by
  simp only [readScope, bind, Except.bind] at h
  split at h
  · cases h
  split at h
  · cases h
  split at h
  · cases h
  · obtain rfl := Except.ok.inj h
    rfl

/-- A page is not empty. -/
theorem pageSize_pos {input : Json} {first : Nat} (h : pageSize input = .ok first) :
    0 < first := by
  unfold pageSize at h
  split at h
  · obtain rfl := Except.ok.inj h
    omega
  · split at h
    · obtain rfl := Except.ok.inj h
      omega
    · cases h
  · cases h

section Walk

variable {dbs : Nat → Db} {owner network : String} {input : Input} {first : Nat} {scope : Scope}
  {rows : List HistoryRow}

/-- Under the cursor of a reader who has seen `m` rows are the others, in every database. -/
theorem found_at (hrows : rows = scope.rows (dbs 0))
    (hgrown : ∀ k, Grown HistoryRow.key rows (scope.rows (dbs k))) {k m : Nat}
    (hstart : m = 0 → k = 0) (hm : m ≤ rows.length) :
    descending HistoryRow.key (below HistoryRow.key
        (cursorAt HistoryRow.key (descending HistoryRow.key rows) m) (scope.rows (dbs k))) =
      (descending HistoryRow.key rows).drop m := by
  cases m with
  | zero =>
      obtain rfl := hstart rfl
      rw [← hrows]
      exact congrArg (descending HistoryRow.key) (below_none rows)
  | succ m =>
      apply descending_below _ (scope.rows_nodup (dbs k)) (hgrown k) (Nat.succ_pos m) hm
      rw [hrows]
      exact scope.rows_nodup (dbs 0)

/-- When there are rows under and over the page of a reader who has seen `m` rows. -/
theorem sides_at (hrows : rows = scope.rows (dbs 0))
    (hgrown : ∀ k, Grown HistoryRow.key rows (scope.rows (dbs k))) (hpos : 0 < first)
    {k m : Nat} (hstart : m = 0 → k = 0) (hm : m = 0 ∨ m < rows.length) :
    ((∃ r ∈ scope.rows (dbs k), ∀ x ∈ ((descending HistoryRow.key rows).drop m).take first,
      r.key < x.key) ↔ first < ((descending HistoryRow.key rows).drop m).length) ∧
    ((∃ r ∈ scope.rows (dbs k), ∀ x ∈ ((descending HistoryRow.key rows).drop m).take first,
      x.key < r.key) ↔ 0 < m) := by
  have hkeys : (rows.map HistoryRow.key).Nodup := by
    rw [hrows]
    exact scope.rows_nodup (dbs 0)
  have hsorted := descending_pairwise hkeys
  have hlength : (descending HistoryRow.key rows).length = rows.length := descending_length rows
  have hend : m < (descending HistoryRow.key rows).length ∨
      descending HistoryRow.key rows = [] := by
    rcases hm with rfl | hlt
    · rcases Nat.eq_zero_or_pos (descending HistoryRow.key rows).length with hnil | hlt
      · exact .inr (List.eq_nil_of_length_eq_zero hnil)
      · exact .inl hlt
    · exact .inl (by omega)
  have hunder := exists_under_chunk hsorted hend hpos
  have hover := exists_over_chunk hsorted hend hpos
  simp only [mem_descending] at hunder hover
  rcases Nat.eq_zero_or_pos m with rfl | hmpos
  · -- the first page is read from the rows themselves
    obtain rfl := hstart rfl
    rw [← hrows]
    refine ⟨hunder, hover.trans ?_⟩
    simp
  · have hlt : m < rows.length := hm.resolve_left (by omega)
    have hne : ((descending HistoryRow.key rows).drop m).take first ≠ [] := by
      apply List.ne_nil_of_length_pos
      rw [List.length_take, List.length_drop]
      omega
    refine ⟨(exists_under_grown (hgrown k) ?_ hne).trans hunder, ?_⟩
    · intro x hx
      exact mem_descending.mp (List.mem_of_mem_drop (List.mem_of_mem_take hx))
    · refine iff_of_true ?_ hmpos
      obtain ⟨r, hr, hall⟩ := hover.mpr ⟨hmpos, by
        apply List.ne_nil_of_length_pos
        omega⟩
      exact ⟨r, (hgrown k).kept r hr, hall⟩

/-- The page of a reader who has seen `m` rows. -/
theorem request_at (hrows : rows = scope.rows (dbs 0))
    (hfirst : pageSize input.first = .ok first) (hscope : readScope owner input network = .ok scope)
    (howner : OwnerText owner) (hwritten : ∀ r ∈ rows, Written r.toRequestRow)
    (hgrown : ∀ k, Grown HistoryRow.key rows (scope.rows (dbs k)))
    {k m : Nat} (hstart : m = 0 → k = 0) (hm : m = 0 ∨ m < rows.length) :
    ∃ page, requestHistory (dbs k) owner
        { input with after := afterAt owner (descending HistoryRow.key rows) m } network =
          .ok page ∧
      page.records = (((descending HistoryRow.key rows).drop m).take first).map
        HistoryRow.toRequestRow ∧
      (page.hasNext = true ↔ first < ((descending HistoryRow.key rows).drop m).length) ∧
      page.Right owner first (scope.rows (dbs k)) := by
  have hle : m ≤ rows.length := by omega
  have hfound := found_at hrows hgrown hstart hle
  have hlength : (descending HistoryRow.key rows).length = rows.length := descending_length rows
  have hwritten' : ∀ r ∈ descending HistoryRow.key rows, Written r.toRequestRow :=
    fun r hr => hwritten r (mem_descending.mp hr)
  -- the cursor that is sent back is the last row the reader has seen, and it is read as that row
  obtain ⟨created, id, hread, hafter⟩ := readCursor_afterAt howner hwritten' (m := m) (by omega)
  have hpage : requestHistory (dbs k) owner
      { input with after := afterAt owner (descending HistoryRow.key rows) m } network =
        .ok (page scope first created id (dbs k)) := by
    have hscope' : readScope owner
        { input with after := afterAt owner (descending HistoryRow.key rows) m } network =
          .ok scope := hscope
    simp only [requestHistory, hfirst, hscope', hread, bind, Except.bind]
    rfl
  have hrecords : (page scope first created id (dbs k)).records =
      (((descending HistoryRow.key rows).drop m).take first).map HistoryRow.toRequestRow := by
    show ((List.take (first + 1) _).take first).map _ = _
    rw [hafter, hfound, List.take_take, Nat.min_eq_left (Nat.le_succ first)]
  have hnext : (page scope first created id (dbs k)).hasNext = true ↔
      first < ((descending HistoryRow.key rows).drop m).length := by
    show decide (first < (List.take (first + 1) _).length) = true ↔ _
    rw [hafter, hfound, decide_eq_true_eq, List.length_take]
    omega
  -- there is a page before exactly when a row has been seen: the row of the cursor is still there
  have hprevious : (page scope first created id (dbs k)).hasPrevious = true ↔ 0 < m := by
    show Option.any _ _ = true ↔ _
    rw [hafter]
    cases m with
    | zero => simp [cursorAt]
    | succ j =>
        have hlt : j < (descending HistoryRow.key rows).length := by omega
        have hcursor : cursorAt HistoryRow.key (descending HistoryRow.key rows) (j + 1) =
            some (descending HistoryRow.key rows)[j].key := by
          show (descending HistoryRow.key rows)[j]?.map _ = _
          rw [List.getElem?_eq_getElem hlt]
          rfl
        have hrow : (descending HistoryRow.key rows)[j] ∈ scope.rows (dbs k) :=
          (hgrown k).kept _ (mem_descending.mp (List.getElem_mem hlt))
        rw [hcursor]
        refine iff_of_true ?_ (Nat.succ_pos j)
        exact List.any_eq_true.mpr ⟨_, hrow, decide_eq_true le_rfl⟩
  refine ⟨_, hpage, hrecords, hnext, ?_⟩
  -- the rest is about the table as it is now, which has grown since the walk began
  obtain ⟨hunder, hover⟩ := sides_at hrows hgrown (pageSize_pos hfirst) hstart hm
  constructor
  · rw [hrecords, List.length_map]
    exact List.length_take_le _ _
  · rfl
  · rw [hnext, ← hunder, hrecords]
    simp only [List.forall_mem_map]
    rfl
  · rw [hprevious, ← hover, hrecords]
    simp only [List.forall_mem_map]
    rfl
  · show Option.map _ _ = _
    rw [readScope_owner hscope]
    rfl
  · show Option.map _ _ = _
    rw [readScope_owner hscope]
    rfl
  · intro r hr other
    rw [hrecords] at hr
    obtain ⟨h, hh, rfl⟩ := List.mem_map.mp hr
    exact readCursor_cursor other (cursor_size howner
      (hwritten' h (List.mem_of_mem_drop (List.mem_of_mem_take hh))))

/-- The pages from the one of a reader who has seen `m` rows. -/
theorem walk_from (hrows : rows = scope.rows (dbs 0))
    (hfirst : pageSize input.first = .ok first) (hscope : readScope owner input network = .ok scope)
    (howner : OwnerText owner) (hwritten : ∀ r ∈ rows, Written r.toRequestRow)
    (hgrown : ∀ k, Grown HistoryRow.key rows (scope.rows (dbs k))) {k m : Nat}
    (hstart : m = 0 → k = 0) (hm : m = 0 ∨ m < rows.length) :
    ∃ pages, Walk dbs owner input network k
        (afterAt owner (descending HistoryRow.key rows) m) pages ∧
      pages.flatMap (·.records) =
        ((descending HistoryRow.key rows).drop m).map HistoryRow.toRequestRow ∧
      ∀ (i : Nat) (page : Page), pages[i]? = some page →
        page.Right owner first (scope.rows (dbs (k + i))) := by
  have hpos := pageSize_pos hfirst
  -- by the number of rows that the reader has not seen
  induction hleft : rows.length - m using Nat.strong_induction_on generalizing k m with
  | _ left ih =>
      obtain ⟨page, hpage, hrecords, hnext, hright⟩ :=
        request_at hrows hfirst hscope howner hwritten hgrown hstart hm
      by_cases hlt : first < ((descending HistoryRow.key rows).drop m).length
      · have hseen : m + first < rows.length := by
          rw [List.length_drop, descending_length] at hlt
          omega
        obtain ⟨pages, hwalk, hrest, hrights⟩ := ih (rows.length - (m + first)) (by omega)
          (show m + first = 0 → k + 1 = 0 by omega) (.inr hseen) rfl
        obtain ⟨r, hr⟩ : ∃ r, (((descending HistoryRow.key rows).drop m).take first).getLast? =
            some r := by
          have hne : ((descending HistoryRow.key rows).drop m).take first ≠ [] := by
            apply List.ne_nil_of_length_pos
            rw [List.length_take]
            omega
          exact ⟨_, List.getLast?_eq_some_getLast hne⟩
        have hcursor : page.last = some (cursor owner r.createdAt r.id) := by
          rw [hright.last, hrecords, List.getLast?_map, hr]
          rfl
        have hafter : afterAt owner (descending HistoryRow.key rows) (m + first) =
            .string (cursor owner r.createdAt r.id) := by
          rw [afterAt, cursorAt_chunk hlt hpos, hr]
          rfl
        rw [hafter] at hwalk
        refine ⟨page :: pages, .next hpage (hnext.mpr hlt) hcursor hwalk, ?_, ?_⟩
        · rw [List.flatMap_cons, hrecords, hrest, ← List.map_append, ← List.drop_drop,
            List.take_append_drop]
        · rintro (- | i) p hp
          · obtain rfl := Option.some.inj hp
            exact hright
          · rw [show k + (i + 1) = k + 1 + i by omega]
            exact hrights i p hp
      · have hlast : page.hasNext = false := by
          rw [← Bool.not_eq_true, hnext]
          exact hlt
        refine ⟨[page], .last hpage hlast, ?_, ?_⟩
        · rw [List.flatMap_singleton, hrecords, List.take_of_length_le (Nat.le_of_not_lt hlt)]
        · rintro (- | i) p hp
          · obtain rfl := Option.some.inj hp
            exact hright
          · cases hp

/-- **A walk reads the history once.**  Pages of any size, read one after the other while rows are
inserted over all that match, together are the rows that matched when the first one was read, each
once and from the newest to the oldest, and each page is right about the rows of its own moment. -/
theorem walk_complete (hfirst : pageSize input.first = .ok first)
    (hscope : readScope owner input network = .ok scope) (howner : OwnerText owner)
    (hwritten : ∀ r ∈ scope.rows (dbs 0), Written r.toRequestRow)
    (hgrown : ∀ k, Grown HistoryRow.key (scope.rows (dbs 0)) (scope.rows (dbs k))) :
    ∃ pages, (∀ ps, Walk dbs owner input network 0 .null ps ↔ ps = pages) ∧
      (pages.flatMap (·.records)).Pairwise (fun r s => s.key < r.key) ∧
      (∀ r, r ∈ pages.flatMap (·.records) ↔
        ∃ h ∈ scope.rows (dbs 0), h.toRequestRow = r) ∧
      ∀ (k : Nat) (page : Page), pages[k]? = some page →
        page.Right owner first (scope.rows (dbs k)) := by
  obtain ⟨pages, hwalk, hrecords, hright⟩ := walk_from rfl hfirst hscope howner hwritten hgrown
    (show 0 = 0 → 0 = 0 from id) (.inl rfl)
  refine ⟨pages, ?_, ?_, ?_, ?_⟩
  · intro ps
    constructor
    · exact fun hps => hps.unique hwalk
    · rintro rfl
      exact hwalk
  · rw [hrecords, List.drop_zero, List.pairwise_map]
    exact descending_pairwise (scope.rows_nodup (dbs 0))
  · intro r
    rw [hrecords, List.drop_zero, List.mem_map]
    simp only [mem_descending]
  · intro k page hpage
    have hpage := hright k page hpage
    rwa [Nat.zero_add] at hpage

end Walk

/-! ### A walk with a newer request between its pages -/

namespace Sample

def owner : String := hexEncode (List.replicate 33 2)

/-- Midnight of a day in January. -/
def midnight (day : Fin 31) : Instant :=
  { Instant.newYear 2026 (by decide) with
    day := day + 1
    day_pos := Nat.succ_pos _
    day_le := day.isLt }

/-- A request's id, by one byte. -/
def uuid (b : UInt8) : Uuid := Uuid.fill b

/-- Different bytes, different ids. -/
theorem uuid_injective {b c : UInt8} (h : (uuid b).print = (uuid c).print) : b = c := by
  have hbytes := congrArg Uuid.bytes (Uuid.print_injective h)
  exact List.replicate_right_injective (by decide) hbytes

def request (b : UInt8) (day : Fin 31) : RequestRow where
  id := (uuid b).print
  kind := "LEAVES_SWAP"
  owner := owner
  createdAt := (midnight day).text
  payload := { network := some "REGTEST", status := some "COMPLETED", rest := "" }

/-- Two requests of one moment, and the day after another one. -/
def requests : Nat → List RequestRow
  | 0 => [request 1 0, request 2 0]
  | _ + 1 => [request 1 0, request 2 0, request 3 1]

/-- The sample's requests are different rows. -/
theorem requests_nodup (k : Nat) : ((requests k).map RequestRow.id).Nodup := by
  have hne : ∀ b c : UInt8, b ≠ c → (uuid b).print ≠ (uuid c).print :=
    fun b c hbc h => hbc (uuid_injective h)
  cases k with
  | zero => simp [requests, request, hne 1 2 (by decide)]
  | succ k =>
      simp [requests, request, hne 1 2 (by decide), hne 1 3 (by decide), hne 2 3 (by decide)]

def dbs (k : Nat) : Db where
  requests := ⟨requests k, requests_nodup k⟩
  sends := .empty
  receives := .empty
  requestIds := List.nodup_nil
  receivePayments := .empty
  exits := .empty

def input : Input where
  first := .unsigned 1
  types := .null
  statuses := .null
  networks := .null
  after := .null

def scope : Scope := ⟨owner, [], [], [], "REGTEST"⟩

/-- The scope lists every request of the sample. -/
theorem mem_rows {k : Nat} {r : HistoryRow} :
    r ∈ scope.rows (dbs k) ↔ ∃ q ∈ requests k, historyRow q none none none = r := by
  have hholds : ∀ q ∈ requests k, scope.holds (historyRow q none none none) = true := by
    have howner : ∀ b day, scope.holds (historyRow (request b day) none none none) = true := by
      intro b day
      simp [Scope.holds, scope, historyRow, request]
    cases k with
    | zero => simp [requests, howner]
    | succ k => simp [requests, howner]
  rw [Scope.rows, List.mem_filter, Db.requestHistoryView_eq, List.mem_map]
  constructor
  · rintro ⟨⟨q, hq, rfl⟩, -⟩
    exact ⟨q, hq, rfl⟩
  · rintro ⟨q, hq, rfl⟩
    exact ⟨⟨q, hq, rfl⟩, hholds q hq⟩

/-- Every row of the sample was written by the service. -/
theorem written (k : Nat) : ∀ r ∈ scope.rows (dbs k), Written r.toRequestRow := by
  have hrequest : ∀ b day, Written (request b day) :=
    fun b day => ⟨⟨midnight day, rfl⟩, uuid b, rfl⟩
  intro r hr
  obtain ⟨q, hq, rfl⟩ := mem_rows.mp hr
  show Written q
  revert q
  cases k with
  | zero => simp [requests, hrequest]
  | succ k => simp [requests, hrequest]

/-- The larger sample extends the smaller. -/
theorem grown (k : Nat) : Grown HistoryRow.key (scope.rows (dbs 0)) (scope.rows (dbs k)) := by
  have hsub : ∀ q ∈ requests 0, q ∈ requests k := by
    cases k with
    | zero => exact fun _ => id
    | succ k => simp [requests]
  constructor
  · intro r hr
    obtain ⟨q, hq, rfl⟩ := mem_rows.mp hr
    exact mem_rows.mpr ⟨q, hsub q hq, rfl⟩
  · intro r hr hnew s hs
    obtain ⟨q, hq, rfl⟩ := mem_rows.mp hr
    obtain ⟨q', hq', rfl⟩ := mem_rows.mp hs
    have hnew : q ∉ requests 0 := fun h => hnew (mem_rows.mpr ⟨q, h, rfl⟩)
    -- only the third request is new, and it is a day younger
    have hyoung : (midnight 0).text < (midnight 1).text := by
      apply (Instant.text_lt_iff _ _).mpr
      apply Instant.nanos_lt_of_seconds
      apply Instant.seconds_lt_of_days
      exact Instant.days_lt_of_day rfl rfl (by decide)
    have hq : q = request 3 1 := by
      cases k with
      | zero => exact absurd hq hnew
      | succ k =>
          simp only [requests, List.mem_cons, List.not_mem_nil, or_false, not_or] at hq hnew
          exact (hq.resolve_left hnew.1).resolve_left hnew.2
    have hday : q'.createdAt = (midnight 0).text := by
      simp only [requests, List.mem_cons, List.not_mem_nil, or_false] at hq'
      rcases hq' with rfl | rfl <;> rfl
    subst hq
    apply Prod.Lex.toLex_lt_toLex.mpr
    show q'.createdAt < (midnight 1).text ∨ _
    rw [hday]
    exact .inl hyoung

/-- Two pages of one request each; the newer request is on neither of them. -/
theorem walk_newer :
    ∃ pages, (∀ ps, Walk dbs owner input "REGTEST" 0 .null ps ↔ ps = pages) ∧
      (pages.flatMap (·.records)).Pairwise (fun r s => s.key < r.key) ∧
      (∀ r, r ∈ pages.flatMap (·.records) ↔
        ∃ h ∈ scope.rows (dbs 0), h.toRequestRow = r) ∧
      ∀ (k : Nat) (page : Page), pages[k]? = some page →
        page.Right owner 1 (scope.rows (dbs k)) :=
  walk_complete (show pageSize input.first = .ok 1 from rfl)
    (show readScope owner input "REGTEST" = .ok scope from rfl)
    ⟨_, hexDecode_hexEncode _, .inl List.length_replicate⟩ (written 0) grown

end Sample

end RequestHistory

end OpenSsp
