/-
OpenSsp/Quotes/Machine.lean

The program over a world with the table of issued quotes.

`Quotes.machine` runs the same requests as `OpenSsp.machine`, but `quotes::validate` is answered
from the table instead of in any way at all, and quotes can be issued at any time.  It remembers
every quote that was ever issued, because expired rows are deleted.

Main result: `toBase`, the projection on `OpenSsp.machine`, through which every result about runs of
that machine holds here.
-/
import OpenSsp.Quotes.Manifest
import OpenSsp.Lib.Projection
import OpenSsp.ReceivePayout

namespace OpenSsp

open Interleave

namespace Quotes

/-! ### The machine -/

@[ext]
structure QuoteWorld where
  base : World
  /-- `receive_quotes` -/
  quotes : Table QuoteRow.id
  /-- Every row that was ever stored in it. -/
  issued : List QuoteRow

inductive QuoteOutside where
  | base (o : Outside)
  /-- A client is given a quote whose manifest was made at the second `created`. -/
  | issue (owner : String) (input : QuoteInput) (id : Uuid) (created : Nat)

variable (P : Primitives) (D : Deployment)

def perform (t : Nat) (c : Call) (ch : Choice) (w : QuoteWorld) : Option (c.Reply × QuoteWorld) :=
  match c with
  | .validateQuote owner receiver hash amount quote =>
      match ch with
      | .done => some (validate P D w.quotes w.base.now owner receiver hash amount quote, w)
      -- the query fails
      | .fail e => some (.error e, w)
      | _ => none
  | c => (OpenSsp.perform D t c ch w.base).map fun r => (r.1, { w with base := r.2 })

def outside (o : QuoteOutside) (w : QuoteWorld) : Option QuoteWorld :=
  match o with
  | .base o => (OpenSsp.outside o w.base).map fun base => { w with base := base }
  | .issue owner input id created =>
      if created ≤ w.base.now then
        match lightningReceiveQuote P D owner input id created w.base.now w.quotes with
        | .ok (row, quotes) => some { w with quotes := quotes, issued := row :: w.issued }
        | .error _ => none
      else none

def machine : Machine Api where
  World := QuoteWorld
  Choice := Choice
  Outside := QuoteOutside
  Request := Request
  init := ⟨.init, .empty, []⟩
  handler := Request.handler D
  perform := perform P D
  outside := outside P D
  cancel t w := { w with base := { w.base with locks := w.base.locks.drop t } }
  crash w := { w with base := { w.base with locks := .free } }

/-! ### What a call and the outside can do -/

section perform

variable {P : Primitives} {D : Deployment} {t : Nat} {ch : Choice} {w w' : QuoteWorld}

/-- A committed quote is looked at, and nothing changes. -/
theorem perform_validate {owner receiver hash : String} {amount : Nat} {quote : Option String}
    {r : Except String (Option String)}
    (h : perform P D t (.validateQuote owner receiver hash amount quote) ch w = some (r, w')) :
    w' = w ∧ (r = validate P D w.quotes w.base.now owner receiver hash amount quote ∨
      ∃ e, r = .error e) := by
  unfold perform at h
  cases ch with
  | done =>
      obtain ⟨rfl, rfl⟩ := Prod.mk.inj (Option.some.inj h)
      exact ⟨rfl, .inl rfl⟩
  | fail e =>
      obtain ⟨rfl, rfl⟩ := Prod.mk.inj (Option.some.inj h)
      exact ⟨rfl, .inr ⟨e, rfl⟩⟩
  | _ => cases h

/-- A call is answered as in the other machine, and leaves the quotes. -/
theorem perform_base {c : Call} {r : c.Reply} (h : perform P D t c ch w = some (r, w')) :
    (∃ ch', OpenSsp.perform D t c ch' w.base = some (r, w'.base)) ∧ w'.quotes = w.quotes ∧
      w'.issued = w.issued := by
  have hother : perform P D t c ch w =
      (OpenSsp.perform D t c ch w.base).map (fun r => (r.1, { w with base := r.2 })) →
      (∃ ch', OpenSsp.perform D t c ch' w.base = some (r, w'.base)) ∧ w'.quotes = w.quotes ∧
        w'.issued = w.issued := by
    intro heq
    rw [heq] at h
    obtain ⟨⟨r', base⟩, hbase, hr⟩ := Option.map_eq_some_iff.mp h
    obtain ⟨rfl, rfl⟩ := Prod.mk.inj hr
    exact ⟨⟨ch, hbase⟩, rfl, rfl⟩
  cases c with
  | validateQuote owner receiver hash amount quote =>
      obtain ⟨rfl, hr⟩ := perform_validate h
      refine ⟨?_, rfl, rfl⟩
      -- whatever the table says is an answer of the other machine
      rcases r with e | q
      · exact ⟨.fail e, rfl⟩
      · exact ⟨.quote q, rfl⟩
  | _ => exact hother rfl

/-- A call on the tables is the same one. -/
theorem perform_db {q : Query} {r : Except String q.Out}
    (h : perform P D t (.db q) ch w = some (r, w')) :
    OpenSsp.perform D t (.db q) ch w.base = some (r, w'.base) := by
  obtain ⟨⟨r', base⟩, hbase, hr⟩ := Option.map_eq_some_iff.mp h
  obtain ⟨rfl, rfl⟩ := Prod.mk.inj hr
  exact hbase

theorem outside_base {o : QuoteOutside} (h : outside P D o w = some w') :
    (∃ o', OpenSsp.outside o' w.base = some w'.base ∧ w'.quotes = w.quotes ∧
      w'.issued = w.issued) ∨
    ∃ owner input id created row, lightningReceiveQuote P D owner input id created w.base.now
      w.quotes = .ok (row, w'.quotes) ∧ w'.issued = row :: w.issued ∧ w'.base = w.base := by
  cases o with
  | base o =>
      obtain ⟨base, hbase, rfl⟩ := Option.map_eq_some_iff.mp h
      exact .inl ⟨o, hbase, rfl, rfl⟩
  | issue owner input id created =>
      unfold outside at h
      dsimp only at h
      split at h
      · split at h
        · next row quotes hissue =>
            obtain rfl := Option.some.inj h
            exact .inr ⟨owner, input, id, created, row, hissue, rfl, rfl⟩
        · cases h
      · cases h

end perform

/-- The machine without the quotes. -/
def toBase : Projection (machine P D) (OpenSsp.machine D) where
  world := QuoteWorld.base
  request := id
  init := rfl
  handler _ := rfl
  perform h := (perform_base h).1
  outside h := by
    rcases outside_base h with ⟨o', hbase, -⟩ | ⟨-, -, -, -, -, -, -, hbase⟩
    · exact .inr ⟨o', hbase⟩
    · exact .inl hbase
  cancel _ _ := rfl
  crash _ := rfl

end Quotes

end OpenSsp
