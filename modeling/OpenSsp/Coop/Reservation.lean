/-
OpenSsp/Coop/Reservation.lean

The outpoints that cooperative exits reserve.

While an exit is not finished it keeps three outpoints: the coin it spends, and of its own
transaction the connector funding and the change (`outpoints`).  `Reserved` is the invariant of the
tables; an insert establishes it for a new exit because nothing else refers to a new id, and an
update keeps it because it gives up all three at once when the exit is finished.

Main result: `exit_reservations`.
-/
import OpenSsp.Coop.Run

namespace OpenSsp.Coop

open Interleave Bitcoin

variable {L : Library} {C : Service L}
  {ok : Config (machine C) → Move (machine C) → Prop}

/-- The wallet input, the connector funding and the change of a withdrawal. -/
def outpoints (L : Library) (exit : Bitcoin.Transaction) (input : OutPoint) : List OutPoint :=
  [input, ⟨L.computeTxid exit, 1⟩, ⟨L.computeTxid exit, 2⟩]

/-- The exit spends one coin, and exactly its three outpoints are reserved for it. -/
def ReservedFor (db : Db L) (row : ExitRow L) : Prop :=
  ∃ exit input, L.deserializeHex row.data.rawExit = .ok exit ∧
    exit.input.map (·.previousOutput) = [input] ∧
    ∀ o, (⟨o, row.id⟩ : InputRow) ∈ db.inputs.rows ↔ o ∈ outpoints L exit input

structure Reserved (db : Db L) : Prop where
  live : ∀ row ∈ db.exits.rows, row.status.terminal = false → ReservedFor db row
  finished : ∀ row ∈ db.exits.rows, row.status.terminal = true →
    ∀ i ∈ db.inputs.rows, i.requestId ≠ row.id
  owned : ∀ i ∈ db.inputs.rows, ∃ row ∈ db.exits.rows, row.id = i.requestId
  single : ∀ row ∈ db.exits.rows, ∀ row' ∈ db.exits.rows, row.owner = row'.owner →
    row.status.terminal = false → row'.status.terminal = false → row = row'

theorem Reserved.same {db db' : Db L} (h : Reserved db) (hexits : db'.exits = db.exits)
    (hinputs : db'.inputs = db.inputs) : Reserved db' := by
  constructor
  · intro row hrow hst
    rw [hexits] at hrow
    obtain ⟨exit, input, hexit, hinput, hiff⟩ := h.live row hrow hst
    exact ⟨exit, input, hexit, hinput, fun o => by rw [hinputs]; exact hiff o⟩
  · rw [hexits, hinputs]
    exact h.finished
  · rw [hexits, hinputs]
    exact h.owned
  · rw [hexits]
    exact h.single

/-- A new exit reserves what its transaction spends and needs later. -/
theorem Reserved.inserted {db db' : Db L} {record : ExitRecord L} {outpoint : OutPoint}
    (h : Reserved db)
    (hspends : ∃ outputs, record.rawExit = L.serializeHex (transaction [outpoint] outputs))
    (hinitiated : record.status = .initiated)
    (hnone : db.coopExitPendingForOwner record.owner = false)
    (hins : db.insertCoopExit record outpoint = .ok db') : Reserved db' := by
  obtain ⟨exit, hexit, hrows, hinputs⟩ := Db.insertCoopExit_ok hins
  -- nothing refers to the new id yet
  have hnew : ∀ row ∈ db.exits.rows, row.id ≠ record.id := by
    have hnodup := db'.exits.nodup
    rw [hrows] at hnodup
    intro row hrow he
    exact (List.nodup_cons.mp hnodup).1 (List.mem_map.mpr ⟨row, hrow, he⟩)
  have hnoinput : ∀ i ∈ db.inputs.rows, i.requestId ≠ record.id := by
    intro i hi he
    obtain ⟨row, hrow, hid⟩ := h.owned i hi
    exact hnew row hrow (hid.trans he)
  have hfree : ∀ row ∈ db.exits.rows, row.owner = record.owner → row.status.terminal = true := by
    intro row hrow ho
    have hno := List.any_eq_false.mp hnone row hrow
    simpa [ho] using hno
  have hmem : ∀ i : InputRow, i ∈ db'.inputs.rows ↔
      i.requestId = record.id ∧ i.outpoint ∈ outpoints L exit outpoint ∨ i ∈ db.inputs.rows := by
    rintro ⟨o, id⟩
    rw [hinputs]
    simp only [List.mem_cons, InputRow.mk.injEq, outpoints, List.not_mem_nil, or_false]
    grind
  constructor
  · intro row hrow hst
    rw [hrows] at hrow
    rcases List.mem_cons.mp hrow with rfl | hrow
    · refine ⟨exit, outpoint, hexit, ?_, fun o => ?_⟩
      · obtain ⟨outputs, hraw⟩ := hspends
        rw [hraw, L.roundtrip _ (by simp [transaction])] at hexit
        obtain rfl := Except.ok.inj hexit
        rfl
      · rw [hmem]
        constructor
        · rintro (⟨-, ho⟩ | hi)
          · exact ho
          · exact absurd rfl (hnoinput _ hi)
        · exact fun ho => .inl ⟨rfl, ho⟩
    · obtain ⟨exit', input, hexit', hinput, hiff⟩ := h.live row hrow hst
      refine ⟨exit', input, hexit', hinput, fun o => ?_⟩
      rw [hmem, ← hiff]
      constructor
      · rintro (⟨hid, -⟩ | hi)
        · exact absurd hid (hnew row hrow)
        · exact hi
      · exact .inr
  · intro row hrow hst i hi
    rw [hrows] at hrow
    rcases List.mem_cons.mp hrow with rfl | hrow
    · rw [hinitiated] at hst
      simp [ExitStatus.terminal] at hst
    · rcases (hmem i).mp hi with ⟨hid, -⟩ | hi
      · rw [hid]
        exact (hnew row hrow).symm
      · exact h.finished row hrow hst i hi
  · intro i hi
    rw [hrows]
    rcases (hmem i).mp hi with ⟨hid, -⟩ | hi
    · exact ⟨_, List.mem_cons_self, hid.symm⟩
    · obtain ⟨row, hrow, hid⟩ := h.owned i hi
      exact ⟨row, List.mem_cons_of_mem _ hrow, hid⟩
  · intro row hrow row' hrow' ho hst hst'
    rw [hrows] at hrow hrow'
    rcases List.mem_cons.mp hrow with rfl | hrow
    · rcases List.mem_cons.mp hrow' with rfl | hrow'
      · rfl
      · rw [hfree row' hrow' ho.symm] at hst'
        simp at hst'
    · rcases List.mem_cons.mp hrow' with rfl | hrow'
      · rw [hfree row hrow ho] at hst
        simp at hst
      · exact h.single row hrow row' hrow' ho hst hst'

/-- An update keeps the reservations, or gives up all of them. -/
theorem Reserved.updated {db : Db L} {record : ExitRecord L} {row : ExitRow L} (h : Reserved db)
    (hrow : row ∈ db.exits.rows) (hid : row.id = record.id) (hlive : row.status.terminal = false)
    (hraw : record.rawExit = row.data.rawExit) : Reserved (db.updateCoopExit record) := by
  have hold : ∀ old ∈ db.exits.rows, old.id = record.id → old = row := fun old hmem he =>
    Table.eq_of_key hmem hrow (he.trans hid.symm)
  have hmem : ∀ i : InputRow, i ∈ (db.updateCoopExit record).inputs.rows ↔
      i ∈ db.inputs.rows ∧ (record.status.terminal = true → i.requestId ≠ record.id) := by
    intro i
    rw [Db.updateCoopExit]
    split
    · next hst => simp [Table.mem_delete, hst]
    · next hst => simp [hst]
  constructor
  · intro row' hrow' hst
    obtain ⟨old, hmem', ⟨he, rfl⟩ | ⟨hne, rfl⟩⟩ := Db.mem_updateCoopExit.mp hrow'
    · obtain rfl := hold old hmem' he
      obtain ⟨exit, input, hexit, hinput, hiff⟩ := h.live old hrow hlive
      refine ⟨exit, input, by rw [← hexit, ← hraw], hinput, fun o => ?_⟩
      replace hst : record.status.terminal = false := hst
      rw [hmem, ← hiff, hst]
      simp
    · obtain ⟨exit, input, hexit, hinput, hiff⟩ := h.live row' hmem' hst
      refine ⟨exit, input, hexit, hinput, fun o => ?_⟩
      rw [hmem, ← hiff]
      exact and_iff_left fun _ => hne
  · intro row' hrow' hst i hi
    obtain ⟨hi, hgone⟩ := (hmem i).mp hi
    obtain ⟨old, hmem', ⟨he, rfl⟩ | ⟨hne, rfl⟩⟩ := Db.mem_updateCoopExit.mp hrow'
    · show i.requestId ≠ old.id
      rw [he]
      exact hgone hst
    · exact h.finished row' hmem' hst i hi
  · intro i hi
    obtain ⟨old, hmem', he⟩ := h.owned i ((hmem i).mp hi).1
    by_cases hold' : old.id = record.id
    · exact ⟨_, Db.mem_updateCoopExit.mpr ⟨old, hmem', .inl ⟨hold', rfl⟩⟩, he⟩
    · exact ⟨old, Db.mem_updateCoopExit.mpr ⟨old, hmem', .inr ⟨hold', rfl⟩⟩, he⟩
  · -- an exit that is not finished was not finished before
    have hback : ∀ x ∈ (db.updateCoopExit record).exits.rows, x.status.terminal = false →
        ∃ old ∈ db.exits.rows, old.owner = x.owner ∧ old.id = x.id ∧
          old.status.terminal = false := by
      intro x hx hst
      obtain ⟨old, hmem', ⟨he, rfl⟩ | ⟨-, rfl⟩⟩ := Db.mem_updateCoopExit.mp hx
      · obtain rfl := hold old hmem' he
        exact ⟨old, hrow, rfl, rfl, hlive⟩
      · exact ⟨x, hmem', rfl, rfl, hst⟩
    intro x hx y hy ho hst hst'
    obtain ⟨a, ha, hao, haid, hast⟩ := hback x hx hst
    obtain ⟨b, hb, hbo, hbid, hbst⟩ := hback y hy hst'
    obtain rfl := h.single a ha b hb (by rw [hao, hbo, ho]) hast hbst
    exact Table.eq_of_key hx hy (by rw [← haid, ← hbid])

theorem Change.rawExit_eq {h : History (Api L)} {base record : ExitRecord L}
    (hc : Change C h base record) : record.rawExit = base.rawExit := by
  cases hc <;> rfl

theorem Change.owner_eq {h : History (Api L)} {base record : ExitRecord L}
    (hc : Change C h base record) : record.owner = base.owner := by
  cases hc <;> rfl

theorem reserved {s : Config (machine C)} (hs : Reach ok s) : Reserved s.world.db := by
  refine hs.invariant (J := fun s : Config (machine C) => Reserved s.world.db) ?_ ?_
  · constructor <;>
      simp [Config.start, machine, Db.empty, ExitTable.empty, Table.empty]
  · intro s s' m hr ih hm hst
    rcases written hr hst with hsame | ⟨record, outpoint, hspends, -, hinitiated, hnone, hins⟩ |
      ⟨t, hist, row, record, k, hth, hrow, hid, hlive, hchange, hupd⟩
    · exact ih.same hsame.1 hsame.2
    · exact ih.inserted hspends hinitiated hnone hins
    · rw [hupd]
      exact ih.updated hrow hid (by rw [(agrees hr row hrow).status]; exact hlive)
        hchange.rawExit_eq

/-- **Reservations.**  In every reachable state: exactly the wallet input, the connector funding
and the change of an exit that is not finished are reserved for it, and nothing for a finished one;
an outpoint is reserved once; the coin of an exit about to be inserted was not reserved when it was
chosen and is not now; an insert that fails changes no table; and an owner has at most one exit
that is not finished. -/
theorem exit_reservations {s : Config (machine C)} (hs : Reach anyMove s) :
    (∀ row ∈ s.world.db.exits.rows, row.status.terminal = false → ReservedFor s.world.db row) ∧
    (∀ row ∈ s.world.db.exits.rows, row.status.terminal = true →
      ∀ i ∈ s.world.db.inputs.rows, i.requestId ≠ row.id) ∧
    (∀ i ∈ s.world.db.inputs.rows, ∀ j ∈ s.world.db.inputs.rows, i.outpoint = j.outpoint →
      i = j) ∧
    (∀ t record outpoint k hist,
      s.thread t = some ⟨.call (.db (.insertCoopExit record outpoint)) k, hist⟩ →
      DbOk .coopReservedInputs s.world.db.coopReservedInputs ∈ hist ∧
      outpoint ∉ s.world.db.coopReservedInputs ∧
      ∃ outputs, record.rawExit = L.serializeHex (transaction [outpoint] outputs)) ∧
    (∀ t record outpoint ch e w,
      perform t (.db (.insertCoopExit record outpoint)) ch s.world = some (.error e, w) →
      w.db = s.world.db) ∧
    ∀ row ∈ s.world.db.exits.rows, ∀ row' ∈ s.world.db.exits.rows, row.owner = row'.owner →
      row.status.terminal = false → row'.status.terminal = false → row = row' := by
  have hr := reserved hs
  refine ⟨hr.live, hr.finished, fun i hi j hj => Table.eq_of_key hi hj, ?_, ?_, hr.single⟩
  · intro t record outpoint k hist hth
    obtain ⟨hheld, hknown⟩ := made_justified hs hth
    obtain ⟨-, hmem, hfree⟩ := reserving_now hs hth hheld hknown
    exact ⟨hmem, hfree, hknown.spends⟩
  · intro t record outpoint ch e w hp
    rcases perform_db hp with ⟨he, rfl⟩ | ⟨-, rfl⟩
    · simp only [Query.run, transact] at he ⊢
      split at he
      · simp at he
      · rfl
    · rfl

/-- The outpoints of a withdrawal that has just been requested. -/
theorem exit_reservations_requested : ∃ s : Config (machine .sample), Reach anyMove s ∧
    ∃ row ∈ s.world.db.exits.rows, row.status.terminal = false ∧ ReservedFor s.world.db row := by
  obtain ⟨s, hs, hp⟩ := Reach.exists_of_moves Sample.requested
    (fun s => s.world.db.exits.rows.any fun row => !row.status.terminal) (by decide +kernel)
  obtain ⟨row, hrow, hst⟩ := List.any_eq_true.mp hp
  have hst : row.status.terminal = false := by simpa using hst
  exact ⟨s, hs, row, hrow, hst, (exit_reservations hs).1 row hrow hst⟩

end OpenSsp.Coop
