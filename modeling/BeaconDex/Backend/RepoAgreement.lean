import BeaconDex.Backend.OrderIndexer
import BeaconDex.Backend.PgOrdersRepo
import BeaconDex.Library.Run

/-!
# The two order caches agree, where they do

`MemoryOrdersRepo` and `PgOrdersRepo` side by side, under the same calls.

## Where they differ

They overwrite differently: the one replaces a row that is written again, the other
only opens it; the one replaces a lineage, the other keeps the first.  The schema
refuses rows that the map takes.  Whenever no call meets a row or a lineage on which
this shows (`Harmless`), they answer alike (`repos_agree`); `reopened_disagrees` is a
sequence on which they do not.

They list differently as well.  The map lists the orders of a pair in the order in which
they were first written, the table by the slot stored with them, and where slots tie in
any order.  `ListsAlike` compares the lists as lists.  It holds of a pair exactly if the
slots of its open rows increase in the order in which these were first written, and it
holds throughout if orders are first written at later and later slots (`InSlotOrder`).

Slots of creation are left out of the comparison: they are for sorting only, the map
overwrites the slot of a row that is written again, and the table keeps it.

## The proof

`InStep` is the relation that a harmless call keeps: the repositories answer alike,
they have written the same ids in the same order, open orders have no spend recorded,
and every row is on the terms of the output it caches, so that a row that is written
again is the row that is there.
-/

namespace BeaconDex.Backend

open Library

/-! ## Calls -/

/-- The calls that write to a repository, with all they are given. -/
inductive RepoCall
  | upsertOpenOrder (order : Order)
  | markSpent (orderId : Str) (status : SpentStatus) (spentTxHash : Option Str)
      (spentAtSlot : Option ℕ)
  | setLineage (childOrderId parentOrderId rootOrderId : Str)

/-- A call, made on the repository in memory. -/
def OrdersRepo.call (repo : OrdersRepo) : RepoCall → OrdersRepo
  | .upsertOpenOrder order => repo.upsertOpenOrder order
  | .markSpent orderId status spentTxHash spentAtSlot =>
      repo.markSpent orderId status spentTxHash spentAtSlot
  | .setLineage childOrderId parentOrderId rootOrderId =>
      repo.setLineage childOrderId parentOrderId rootOrderId

/-- A call that throws leaves what it wrote. -/
def PgDb.call (db : PgDb) : RepoCall → PgDb
  | .upsertOpenOrder order => (db.upsertOpenOrder order).state
  | .markSpent orderId status spentTxHash spentAtSlot =>
      (db.markSpent orderId status spentTxHash spentAtSlot).state
  | .setLineage childOrderId parentOrderId rootOrderId =>
      db.setLineage childOrderId parentOrderId rootOrderId

/-- **The calls the indexer issues.**  `content` is what the outputs of the chain
hold: a row is that of the output it names, an order is marked spent while it is
open, and no slot of a spend is known. -/
def Issued (mesh : Mesh) (opts : IndexerOptions) (content : OutRef → UTxO) (repo : OrdersRepo) :
    RepoCall → Prop
  | .upsertOpenOrder order => ∃ (row : Order) (slot : ℕ),
      validateAndMap mesh opts (content order.ref) = some row ∧
        order = { row with createdAtSlot := some slot }
  | .markSpent orderId _ _ spentAtSlot => repo.IsOpen orderId ∧ spentAtSlot = none
  | .setLineage _ _ _ => True

/-!
## Answers

What the callers can see of a repository: rows, lineages, and the two lists.
-/

/-- A row without its slot of creation. -/
def Order.unslotted (order : Order) : Order := { order with createdAtSlot := none }

/-- **The same answers.**  `listOpenOrderIds` is a query without an order, so its answers
are compared up to order; `listByPair` may be answered in several orders, and every
answer has the rows of the map. -/
structure Agree (repo : OrdersRepo) (db : PgDb) : Prop where
  getOrder : ∀ orderId,
    (repo.getOrder orderId).map Order.unslotted = (db.getOrder orderId).map Order.unslotted
  getLineage : ∀ orderId, repo.getLineage orderId = db.getLineage orderId
  listOpenOrderIds : repo.listOpenOrderIds.Perm db.listOpenOrderIds
  listByPair : ∀ pairId answer, db.ListsByPair pairId answer →
    ((repo.listByPair pairId).map Order.unslotted).Perm (answer.map Order.unslotted)

/-- **The same list.**  However the database answers, it lists the orders of the pair in
the order of the map. -/
def ListsAlike (repo : OrdersRepo) (db : PgDb) (pairId : Str) : Prop :=
  ∀ answer, db.ListsByPair pairId answer →
    (repo.listByPair pairId).map Order.unslotted = answer.map Order.unslotted

section Lists

variable {repo : OrdersRepo} {db : PgDb}

/-- Rows that are read alike are the same rows, without their slots. -/
theorem exists_entry_iff (horders : ∀ orderId,
      (repo.getOrder orderId).map Order.unslotted = (db.getOrder orderId).map Order.unslotted)
    (view : Order) :
    (∃ order ∈ repo.orders.entries, order.unslotted = view) ↔
      ∃ row ∈ db.orders.entries, (db.select row).unslotted = view := by
  have hview := horders view.orderId
  constructor
  · rintro ⟨order, horder, rfl⟩
    have hget : repo.getOrder order.orderId = some order := KeyedList.find?_eq_some.mpr ⟨horder, rfl⟩
    rw [show order.unslotted.orderId = order.orderId from rfl, hget, Option.map_some,
      PgDb.getOrder, Option.map_map, eq_comm, Option.map_eq_some_iff] at hview
    obtain ⟨row, hrow, heq⟩ := hview
    exact ⟨row, (KeyedList.find?_eq_some.mp hrow).1, heq⟩
  · rintro ⟨row, hrow, rfl⟩
    have hget : db.orders.find? row.orderId = some row := KeyedList.find?_eq_some.mpr ⟨hrow, rfl⟩
    rw [show (db.select row).unslotted.orderId = row.orderId from rfl, PgDb.getOrder, hget,
      Option.map_some, Option.map_some, Option.map_eq_some_iff] at hview
    obtain ⟨order, horder, heq⟩ := hview
    exact ⟨order, (KeyedList.find?_eq_some.mp horder).1, heq⟩

/-- Repositories that give the same row for every id, up to its slot, list the same ids as
open; in what order is left to each of them. -/
theorem listOpenOrderIds_perm (horders : ∀ orderId,
      (repo.getOrder orderId).map Order.unslotted = (db.getOrder orderId).map Order.unslotted) :
    repo.listOpenOrderIds.Perm db.listOpenOrderIds := by
  refine (List.perm_ext_iff_of_nodup ?_ ?_).mpr ?_
  · exact repo.orders.nodup.sublist (List.filter_sublist.map _)
  · exact db.orders.nodup.sublist (List.filter_sublist.map _)
  · intro orderId
    simp only [OrdersRepo.listOpenOrderIds, PgDb.listOpenOrderIds, List.mem_map, List.mem_filter,
      decide_eq_true_eq]
    constructor
    · rintro ⟨order, ⟨horder, hopen⟩, rfl⟩
      obtain ⟨row, hrow, heq⟩ := (exists_entry_iff horders _).mp ⟨order, horder, rfl⟩
      exact ⟨row, ⟨hrow, (congrArg Order.status heq).trans hopen⟩, congrArg Order.orderId heq⟩
    · rintro ⟨row, ⟨hrow, hopen⟩, rfl⟩
      obtain ⟨order, horder, heq⟩ := (exists_entry_iff horders _).mpr ⟨row, hrow, rfl⟩
      exact ⟨order, ⟨horder, (congrArg Order.status heq).trans hopen⟩, congrArg Order.orderId heq⟩

/-- So do their books of a pair hold the same rows, again up to the order in which they
are given. -/
theorem listByPair_perm (horders : ∀ orderId,
      (repo.getOrder orderId).map Order.unslotted = (db.getOrder orderId).map Order.unslotted)
    (pairId : Str) {answer : List Order} (hanswer : db.ListsByPair pairId answer) :
    ((repo.listByPair pairId).map Order.unslotted).Perm (answer.map Order.unslotted) := by
  obtain ⟨rows, ⟨hrows, -⟩, rfl⟩ := hanswer
  rw [List.map_map]
  refine List.Perm.trans ?_ (hrows.map _).symm
  refine (List.perm_ext_iff_of_nodup ?_ ?_).mpr ?_
  · refine List.Nodup.of_map Order.orderId ?_
    rw [List.map_map]
    exact repo.orders.nodup.sublist (List.filter_sublist.map Order.orderId)
  · refine List.Nodup.of_map Order.orderId ?_
    rw [List.map_map]
    exact db.orders.nodup.sublist (List.filter_sublist.map OrderRow.orderId)
  · intro view
    simp only [OrdersRepo.listByPair, PgDb.openRows, List.mem_map, List.mem_filter,
      decide_eq_true_eq, Function.comp_apply]
    constructor
    · rintro ⟨order, ⟨horder, hpair, hopen⟩, rfl⟩
      obtain ⟨row, hrow, heq⟩ := (exists_entry_iff horders _).mp ⟨order, horder, rfl⟩
      exact ⟨row, ⟨hrow, (congrArg Order.pairId heq).trans hpair,
        (congrArg Order.status heq).trans hopen⟩, heq⟩
    · rintro ⟨row, ⟨hrow, hpair, hopen⟩, rfl⟩
      obtain ⟨order, horder, heq⟩ := (exists_entry_iff horders _).mpr ⟨row, hrow, rfl⟩
      exact ⟨order, ⟨horder, (congrArg Order.pairId heq).trans hpair,
        (congrArg Order.status heq).trans hopen⟩, heq⟩

/-- The lists are made of the rows. -/
theorem agree_of_getOrder (horders : ∀ orderId,
      (repo.getOrder orderId).map Order.unslotted = (db.getOrder orderId).map Order.unslotted)
    (hlineage : ∀ orderId, repo.getLineage orderId = db.getLineage orderId) : Agree repo db :=
  ⟨horders, hlineage, listOpenOrderIds_perm horders,
    fun pairId _ hanswer => listByPair_perm horders pairId hanswer⟩

/-- The map lists the open rows of a pair in the order in which they were first
written, where the ids were written alike. -/
theorem listByPair_eq (hids : repo.orders.entries.map Order.orderId =
      db.orders.entries.map OrderRow.orderId)
    (horders : ∀ orderId,
      (repo.getOrder orderId).map Order.unslotted = (db.getOrder orderId).map Order.unslotted)
    (pairId : Str) : (repo.listByPair pairId).map Order.unslotted =
      (db.openRows pairId).map fun row => (db.select row).unslotted := by
  have hviews : repo.orders.entries.map Order.unslotted =
      db.orders.entries.map fun row => (db.select row).unslotted := by
    refine KeyedList.map_entries_eq hids fun orderId => (horders orderId).trans ?_
    rw [PgDb.getOrder, Option.map_map]
    rfl
  have hfilter := congrArg
    (List.filter fun view : Order => decide (view.pairId = pairId ∧ view.status = .opened)) hviews
  rw [List.filter_map, List.filter_map] at hfilter
  exact hfilter

/-- **When the lists are the same.** -/
theorem listsAlike_iff (hids : repo.orders.entries.map Order.orderId =
      db.orders.entries.map OrderRow.orderId)
    (horders : ∀ orderId,
      (repo.getOrder orderId).map Order.unslotted = (db.getOrder orderId).map Order.unslotted)
    (pairId : Str) : ListsAlike repo db pairId ↔
      (db.openRows pairId).Pairwise fun a b => ¬PgDb.slotBefore b a := by
  have hids' : ((db.openRows pairId).map OrderRow.orderId).Nodup :=
    db.orders.nodup.sublist (List.filter_sublist.map _)
  rw [← arranged_unique_iff hids'.of_map]
  refine ⟨fun h rows hrows => ?_, ?_⟩
  · -- the answers tell the rows apart by their ids
    have hsame := h _ ⟨rows, hrows, rfl⟩
    rw [listByPair_eq hids horders, List.map_map] at hsame
    have hsameIds := congrArg (List.map Order.orderId) hsame
    rw [List.map_map, List.map_map] at hsameIds
    have hopen : db.openRows pairId ⊆ db.orders.entries := List.filter_subset_self _
    exact KeyedList.eq_of_map_key_eq (fun row hrow => hopen (hrows.1.subset hrow)) hopen
      hsameIds.symm
  · rintro h _ ⟨rows, hrows, rfl⟩
    rw [h rows hrows, listByPair_eq hids horders, List.map_map]
    rfl

end Lists

/-! ## Rows -/

namespace Order

variable (order : Order)

/-- The same row with another status. -/
def withStatus (status : OrderStatus) : Order := { order with status }

/-- With a spend recorded. -/
def spent (status : OrderStatus) (spentTxHash : Option Str) (spentAtSlot : Option ℕ) : Order :=
  { order with status, spentTxHash, spentAtSlot }

/-- With its lineage. -/
def linked (lineage : Option Lineage) : Order :=
  { order with
    parentOrderId := lineage.map Lineage.parentOrderId
    rootOrderId := lineage.map Lineage.rootOrderId }

/-- What its output says of an order: all that is not recorded later. -/
def terms : Order := ((order.spent .opened none none).linked none).unslotted

end Order

/-!
## What each call does, in memory

For each call, the row under an id afterwards, and the ids that have been written.
-/

namespace OrdersRepo

variable (repo : OrdersRepo)

/-- An order without a lineage of its own is written with the one recorded. -/
theorem getOrder_upsertOpenOrder {order : Order} (hparent : order.parentOrderId = none)
    (hroot : order.rootOrderId = none) (orderId : Str) :
    (repo.upsertOpenOrder order).getOrder orderId =
      if orderId = order.orderId then
        some ((order.withStatus .opened).linked (repo.getLineage orderId))
      else repo.getOrder orderId := by
  have hset : (repo.upsertOpenOrder order).getOrder orderId =
      (repo.orders.set ((order.withStatus .opened).linked
        (repo.getLineage order.orderId))).find? orderId := by
    unfold upsertOpenOrder
    cases repo.getLineage order.orderId with
    | some l => rfl
    | none =>
        have hnone : order.withStatus .opened = (order.withStatus .opened).linked none := by
          unfold Order.linked Order.withStatus
          cases order
          simp only at hparent hroot
          subst hparent hroot
          rfl
        rw [← hnone]
        rfl
  have hkey : ((order.withStatus .opened).linked (repo.getLineage order.orderId)).orderId =
      order.orderId := rfl
  rw [hset, KeyedList.find?_set, hkey]
  split
  · next heq => rw [heq]
  · rfl

theorem getOrder_markSpent (orderId orderId' : Str) (status : SpentStatus)
    (spentTxHash : Option Str) (spentAtSlot : Option ℕ) :
    (repo.markSpent orderId status spentTxHash spentAtSlot).getOrder orderId' =
      if orderId' = orderId then
        (repo.getOrder orderId').map fun existing =>
          existing.spent status.toOrderStatus (spentTxHash.or existing.spentTxHash)
            (spentAtSlot.or existing.spentAtSlot)
      else repo.getOrder orderId' := by
  unfold markSpent
  cases hrow : repo.getOrder orderId with
  | none =>
      dsimp only
      split
      · next heq => rw [heq, hrow]; rfl
      · rfl
  | some existing =>
      obtain rfl : existing.orderId = orderId := orderId_of_getOrder hrow
      dsimp only
      rw [getOrder, KeyedList.find?_set]
      split
      · next heq => rw [heq, hrow]; rfl
      · rfl

theorem getOrder_setLineage (child parent root orderId : Str) :
    (repo.setLineage child parent root).getOrder orderId =
      if orderId = child then
        (repo.getOrder orderId).map fun existing => existing.linked (some ⟨parent, root⟩)
      else repo.getOrder orderId := by
  unfold setLineage
  cases hrow : repo.getOrder child with
  | none =>
      dsimp only
      split
      · next heq => rw [heq, hrow]; exact hrow
      · rfl
  | some existing =>
      obtain rfl : existing.orderId = child := orderId_of_getOrder hrow
      dsimp only
      rw [getOrder, KeyedList.find?_set]
      split
      · next heq => rw [heq, hrow]; rfl
      · rfl

/-! The ids, in the order in which they were first written. -/

theorem ids_upsertOpenOrder (order : Order) :
    (repo.upsertOpenOrder order).orders.entries.map Order.orderId =
      if (repo.getOrder order.orderId).isSome then repo.orders.entries.map Order.orderId
      else repo.orders.entries.map Order.orderId ++ [order.orderId] := by
  unfold upsertOpenOrder
  rw [KeyedList.map_key_set]
  cases repo.getLineage order.orderId <;> rfl

theorem ids_markSpent (orderId : Str) (status : SpentStatus) (spentTxHash : Option Str)
    (spentAtSlot : Option ℕ) :
    (repo.markSpent orderId status spentTxHash spentAtSlot).orders.entries.map Order.orderId =
      repo.orders.entries.map Order.orderId := by
  unfold markSpent
  cases hrow : repo.getOrder orderId with
  | none => rfl
  | some existing =>
      obtain rfl : existing.orderId = orderId := orderId_of_getOrder hrow
      exact KeyedList.map_entries_set hrow rfl

theorem ids_setLineage (child parent root : Str) :
    (repo.setLineage child parent root).orders.entries.map Order.orderId =
      repo.orders.entries.map Order.orderId := by
  unfold setLineage
  cases hrow : repo.getOrder child with
  | none => rfl
  | some existing =>
      obtain rfl : existing.orderId = child := orderId_of_getOrder hrow
      exact KeyedList.map_entries_set hrow rfl

end OrdersRepo

/-!
## What each call does, in the database

The same for the statements of the table, with what the schema refuses.
-/

theorem find?_insertOrIgnore {κ α : Type} [DecidableEq κ] {key : α → κ} (table : KeyedList key)
    (row : α) (k : κ) : (insertOrIgnore table row).find? k =
      (table.find? k).or (if k = key row then some row else none) := by
  unfold insertOrIgnore
  split
  · next hsome =>
    split
    · next heq =>
      obtain ⟨old, hold⟩ := Option.isSome_iff_exists.mp hsome
      rw [heq, hold]
      rfl
    · rw [Option.or_none]
  · next hnone =>
    rw [KeyedList.find?_set]
    split
    · next heq =>
      rw [heq, Option.not_isSome_iff_eq_none.mp hnone]
      rfl
    · rw [Option.or_none]

/-- What was inserted is there, by the insertion or from before. -/
theorem isSome_find?_foldl_insertOrIgnore {κ α : Type} [DecidableEq κ] {key : α → κ}
    (rows : List α) (table : KeyedList key) {k : κ}
    (h : k ∈ rows.map key ∨ (table.find? k).isSome) :
    ((rows.foldl insertOrIgnore table).find? k).isSome := by
  induction rows generalizing table with
  | nil => simpa using h
  | cons row rows ih =>
      refine ih (insertOrIgnore table row) ?_
      rw [find?_insertOrIgnore, Option.isSome_or]
      rcases h with hmem | hfound
      · rcases List.mem_cons.mp hmem with rfl | hmem
        · right
          rw [if_pos rfl]
          exact Bool.or_true _
        · exact .inl hmem
      · right
        rw [hfound]
        rfl

/-- **A row the schema admits**: its numbers fit their columns, and its pair is of
the two assets it names. -/
structure Storable (order : Order) : Prop where
  fits : (orderRowOf order).fits = true
  offered_pos : 0 < order.offeredAmount
  requested_pos : 0 < order.requestedAmount
  pair : ∃ assetA assetB, order.pairId.splitOn '_' = [assetA, assetB] ∧ assetA < assetB ∧
    assetA ∈ (assetRowsOf order).map AssetRow.assetId ∧
    assetB ∈ (assetRowsOf order).map AssetRow.assetId

namespace PgDb

variable (db : PgDb)

/-- The row an upsert leaves. -/
def upsertedRow (existing : Option OrderRow) (order : Order) : OrderRow :=
  match existing with
  | some row => { row with status := .opened }
  | none => orderRowOf order

/-- The pair is there afterwards, by this call or an earlier one. -/
theorem insertPair_of_storable {order : Order} (h : Storable order)
    (hassets : ∀ id ∈ (assetRowsOf order).map AssetRow.assetId, (db.assets.find? id).isSome) :
    ∃ db' : PgDb, db.insertPair order = .ok db' ∧ (db'.pairs.find? order.pairId).isSome ∧
      db'.orders = db.orders ∧ db'.orderLineage = db.orderLineage := by
  obtain ⟨assetA, assetB, hsplit, hlt, hassetA, hassetB⟩ := h.pair
  have hslot : fitsSlot order.createdAtSlot = true := by
    have hfits := h.fits
    simp only [OrderRow.fits, Bool.and_eq_true] at hfits
    exact hfits.2
  unfold insertPair
  simp only [hsplit, hslot, hlt, Bool.true_eq_false, if_false, not_true_eq_false]
  split
  · next hfound => exact ⟨db, rfl, hfound, rfl, rfl⟩
  · have hfound : ¬((db.assets.find? assetA).isNone ∨ (db.assets.find? assetB).isNone) := by
      simp only [Option.isNone_iff_eq_none, ← Option.not_isSome_iff_eq_none, not_or, not_not]
      exact ⟨hassets _ hassetA, hassets _ hassetB⟩
    rw [if_neg hfound]
    refine ⟨_, rfl, ?_, rfl, rfl⟩
    rw [KeyedList.find?_set, if_pos rfl]
    rfl

/-- A row whose numbers fit their columns and whose pair is known is inserted, and the
insert says what the table holds then. -/
theorem insertOrder_of_storable {order : Order} (h : Storable order)
    (hpair : (db.pairs.find? order.pairId).isSome) :
    db.insertOrder order = .ok { db with
      orders := db.orders.set (upsertedRow (db.orders.find? order.orderId) order) } := by
  have hpositive : ¬((orderRowOf order).offeredAmount ≤ 0 ∨
      (orderRowOf order).requestedAmount ≤ 0) := by
    rw [not_or, not_le, not_le]
    exact ⟨h.offered_pos, h.requested_pos⟩
  have hfound : ¬(db.pairs.find? (orderRowOf order).pairId).isNone = true := by
    rw [Option.isNone_iff_eq_none, ← Option.not_isSome_iff_eq_none, not_not]
    exact hpair
  have hid : (orderRowOf order).orderId = order.orderId := rfl
  simp only [insertOrder, h.fits, Bool.true_eq_false, if_false, if_neg hpositive, if_neg hfound,
    hid]
  cases db.orders.find? order.orderId <;> rfl

/-- A row the schema admits is written, and nothing of the other answers
changes. -/
theorem upsertOpenOrder_of_storable {order : Order} (h : Storable order) :
    (db.upsertOpenOrder order).state.orders =
        db.orders.set (upsertedRow (db.orders.find? order.orderId) order) ∧
      (db.upsertOpenOrder order).state.orderLineage = db.orderLineage := by
  have hassets : ∀ id ∈ (assetRowsOf order).map AssetRow.assetId,
      (((assetRowsOf order).foldl insertOrIgnore db.assets).find? id).isSome :=
    fun id hid => isSome_find?_foldl_insertOrIgnore _ _ (.inl hid)
  obtain ⟨db', hpair, hpairs, horders, hlineage⟩ :=
    insertPair_of_storable { db with assets := (assetRowsOf order).foldl insertOrIgnore db.assets }
      h hassets
  have horder := insertOrder_of_storable db' h hpairs
  rw [upsertOpenOrder, hpair, Attempt.andThen, horder]
  exact ⟨by rw [Attempt.state, horders], hlineage⟩

variable {db}

theorem getOrder_eq_some {orderId : Str} {order : Order} (h : db.getOrder orderId = some order) :
    order.orderId = orderId := by
  obtain ⟨row, hrow, rfl⟩ := Option.map_eq_some_iff.mp h
  exact (KeyedList.find?_eq_some.mp hrow).2

/-- Answers after one row was written. -/
theorem getOrder_of_set {db' : PgDb} {row : OrderRow} (horders : db'.orders = db.orders.set row)
    (hlineage : db'.orderLineage = db.orderLineage) (orderId : Str) :
    db'.getOrder orderId =
      if orderId = row.orderId then some (db.select row) else db.getOrder orderId := by
  have hselect : db'.select = db.select := by
    funext row
    rw [select, select, getLineage, getLineage, hlineage]
  rw [getOrder, getOrder, horders, hselect, KeyedList.find?_set]
  split <;> rfl

variable (db)

theorem getOrder_upsertOpenOrder {order : Order} (h : Storable order) (orderId : Str) :
    (db.upsertOpenOrder order).state.getOrder orderId =
      if orderId = order.orderId then
        some (((db.getOrder orderId).map fun existing => existing.withStatus .opened).getD
          (rowToOrder (orderRowOf order) (db.getLineage orderId)))
      else db.getOrder orderId := by
  obtain ⟨horders, hlineage⟩ := db.upsertOpenOrder_of_storable h
  have hid : (upsertedRow (db.orders.find? order.orderId) order).orderId = order.orderId := by
    cases hrow : db.orders.find? order.orderId with
    | some existing => exact (KeyedList.find?_eq_some.mp hrow).2
    | none => rfl
  rw [getOrder_of_set horders hlineage, hid]
  split
  · next heq =>
    rw [heq, getOrder]
    cases db.orders.find? order.orderId <;> rfl
  · rfl

theorem ids_upsertOpenOrder {order : Order} (h : Storable order) :
    (db.upsertOpenOrder order).state.orders.entries.map OrderRow.orderId =
      if (db.orders.find? order.orderId).isSome then db.orders.entries.map OrderRow.orderId
      else db.orders.entries.map OrderRow.orderId ++ [order.orderId] := by
  have hid : (upsertedRow (db.orders.find? order.orderId) order).orderId = order.orderId := by
    cases hrow : db.orders.find? order.orderId with
    | some existing => exact (KeyedList.find?_eq_some.mp hrow).2
    | none => rfl
  rw [(db.upsertOpenOrder_of_storable h).1, KeyedList.map_key_set, hid]

theorem getLineage_upsertOpenOrder {order : Order} (h : Storable order) (orderId : Str) :
    (db.upsertOpenOrder order).state.getLineage orderId = db.getLineage orderId := by
  rw [getLineage, (db.upsertOpenOrder_of_storable h).2]
  rfl

theorem insertHistory_state (row : TxHistoryRow) :
    (db.insertHistory row).state.orders = db.orders ∧
      (db.insertHistory row).state.orderLineage = db.orderLineage := by
  unfold insertHistory
  split
  · exact ⟨rfl, rfl⟩
  · split
    · exact ⟨rfl, rfl⟩
    · exact ⟨rfl, rfl⟩

/-- The history is in no other answer. -/
theorem markSpent_state (orderId : Str) (status : SpentStatus) (spentTxHash : Option Str) :
    (db.markSpent orderId status spentTxHash none).state.orders =
        (db.updateSpent orderId status spentTxHash none).orders ∧
      (db.markSpent orderId status spentTxHash none).state.orderLineage = db.orderLineage := by
  have hlineage : (db.updateSpent orderId status spentTxHash none).orderLineage =
      db.orderLineage := by
    unfold updateSpent
    split <;> rfl
  obtain ⟨horders, hhistory⟩ := insertHistory_state (db.updateSpent orderId status spentTxHash none)
    ⟨spentTxHash.getD "unknown".toList, orderId, actionOf status, none⟩
  exact ⟨horders, hhistory.trans hlineage⟩

theorem getOrder_markSpent (orderId orderId' : Str) (status : SpentStatus)
    (spentTxHash : Option Str) :
    (db.markSpent orderId status spentTxHash none).state.getOrder orderId' =
      if orderId' = orderId then
        (db.getOrder orderId').map fun existing =>
          existing.spent status.toOrderStatus spentTxHash none
      else db.getOrder orderId' := by
  obtain ⟨horders, hlineage⟩ := db.markSpent_state orderId status spentTxHash
  unfold updateSpent at horders
  cases hrow : db.orders.find? orderId with
  | none =>
      rw [hrow] at horders
      have hsame : (db.markSpent orderId status spentTxHash none).state.getOrder orderId' =
          db.getOrder orderId' := by
        unfold getOrder select getLineage
        rw [horders, hlineage]
      rw [hsame]
      split
      · next heq => rw [heq, getOrder, hrow]; rfl
      · rfl
  | some row =>
      rw [hrow] at horders
      obtain rfl : row.orderId = orderId := (KeyedList.find?_eq_some.mp hrow).2
      rw [getOrder_of_set horders hlineage]
      split
      · next heq => rw [heq, getOrder, hrow]; rfl
      · rfl

theorem ids_markSpent (orderId : Str) (status : SpentStatus) (spentTxHash : Option Str) :
    (db.markSpent orderId status spentTxHash none).state.orders.entries.map OrderRow.orderId =
      db.orders.entries.map OrderRow.orderId := by
  rw [(db.markSpent_state orderId status spentTxHash).1]
  unfold updateSpent
  cases hrow : db.orders.find? orderId with
  | none => rfl
  | some row =>
      obtain rfl : row.orderId = orderId := (KeyedList.find?_eq_some.mp hrow).2
      exact KeyedList.map_entries_set hrow rfl

theorem getLineage_markSpent (orderId orderId' : Str) (status : SpentStatus)
    (spentTxHash : Option Str) :
    (db.markSpent orderId status spentTxHash none).state.getLineage orderId' =
      db.getLineage orderId' := by
  rw [getLineage, (db.markSpent_state orderId status spentTxHash).2]
  rfl

/-- The first lineage stays. -/
theorem getLineage_setLineage (child parent root orderId : Str) :
    (db.setLineage child parent root).getLineage orderId =
      (db.getLineage orderId).or (if orderId = child then some ⟨parent, root⟩ else none) := by
  rw [getLineage, setLineage, find?_insertOrIgnore, getLineage, Option.map_or]
  congr 1
  split <;> rfl

theorem getOrder_setLineage (child parent root orderId : Str) :
    (db.setLineage child parent root).getOrder orderId =
      (db.getOrder orderId).map fun existing =>
        existing.linked ((db.setLineage child parent root).getLineage orderId) := by
  rw [getOrder, getOrder, Option.map_map]
  cases hrow : db.orders.find? orderId with
  | none =>
      show ((db.orders.find? orderId).map _) = _
      rw [hrow]
      rfl
  | some row =>
      show ((db.orders.find? orderId).map _) = _
      obtain rfl : row.orderId = orderId := (KeyedList.find?_eq_some.mp hrow).2
      rw [hrow]
      rfl

end PgDb

/-!
## In step

Which calls are harmless, and the relation they keep.
-/

/-- An order as the chain shows it: open, and nothing recorded of it. -/
structure Fresh (order : Order) : Prop where
  status : order.status = .opened
  parent : order.parentOrderId = none
  root : order.rootOrderId = none
  spentAtSlot : order.spentAtSlot = none
  spentTxHash : order.spentTxHash = none
  createdTxHash : order.createdTxHash = some order.txHash

/-- **When the overwriting does not show**: an order is written that the schema
admits and that is not cached as spent by a known transaction; a lineage is
written that is not recorded yet, or is recorded like this. -/
def Harmless (repo : OrdersRepo) : RepoCall → Prop
  | .upsertOpenOrder order => Storable order ∧
      ∀ existing, repo.getOrder order.orderId = some existing → existing.spentTxHash = none
  | .markSpent _ _ _ _ => True
  | .setLineage childOrderId parentOrderId rootOrderId =>
      ∀ lineage, repo.getLineage childOrderId = some lineage →
        lineage = ⟨parentOrderId, rootOrderId⟩

/-- **When the table lists in the order of the map**: an order is first written at a
later slot than the orders of its pair that are there. -/
def InSlotOrder (db : PgDb) : RepoCall → Prop
  | .upsertOpenOrder order => db.orders.find? order.orderId = none →
      ∀ row ∈ db.orders.entries, row.pairId = order.pairId →
        ¬PgDb.slotBefore (orderRowOf order) row
  | .markSpent _ _ _ _ => True
  | .setLineage _ _ _ => True

/-- **The invariant.**  The two answer alike, they have written the same ids in the same
order, open orders have no spend, and rows are on the terms of their outputs. -/
structure InStep (mesh : Mesh) (opts : IndexerOptions) (content : OutRef → UTxO)
    (repo : OrdersRepo) (db : PgDb) : Prop where
  ids : repo.orders.entries.map Order.orderId = db.orders.entries.map OrderRow.orderId
  getOrder : ∀ orderId,
    (repo.getOrder orderId).map Order.unslotted = (db.getOrder orderId).map Order.unslotted
  getLineage : ∀ orderId, repo.getLineage orderId = db.getLineage orderId
  unspent : ∀ orderId order, repo.getOrder orderId = some order →
    order.spentAtSlot = none ∧ (order.status = .opened → order.spentTxHash = none)
  terms : ∀ orderId order, repo.getOrder orderId = some order →
    ∃ row, validateAndMap mesh opts (content order.ref) = some row ∧ order.terms = row.terms

section

variable {mesh : Mesh} {opts : IndexerOptions} {content : OutRef → UTxO} {repo : OrdersRepo}
variable {db : PgDb}

/-- What validation makes of an output is a row nothing has happened to yet: open, without
a spend and without a parent. -/
theorem fresh_of_validateAndMap {utxo : UTxO} {row : Order}
    (h : validateAndMap mesh opts utxo = some row) : Fresh row := by
  simp only [validateAndMap, Option.bind_eq_bind, Option.bind_eq_some_iff, Option.pure_def,
    Option.some.injEq] at h
  obtain ⟨_, -, _, -, _, -, _, -, _, -, _, -, _, -, _, -, _, -, _, -, rfl⟩ := h
  exact ⟨rfl, rfl, rfl, rfl, rfl, rfl⟩

/-- A fresh order is stored as it is. -/
theorem Fresh.rowToOrder_orderRowOf {order : Order} (h : Fresh order) (lineage : Option Lineage) :
    rowToOrder (orderRowOf order) lineage = (order.withStatus .opened).linked lineage := by
  obtain ⟨-, -, -, hslot, htx, hcreated⟩ := h
  cases order
  simp only at hslot htx hcreated
  subst hslot htx hcreated
  rfl

/-- Rows on the same terms, both without a spend, are opened alike. -/
theorem opened_of_terms {a b : Order} (hterms : a.terms = b.terms)
    (ha : a.spentAtSlot = none ∧ a.spentTxHash = none)
    (hb : b.spentAtSlot = none ∧ b.spentTxHash = none) (lineage : Option Lineage) :
    ((a.withStatus .opened).linked lineage).unslotted =
      ((b.withStatus .opened).linked lineage).unslotted := by
  have hopened : ∀ {order : Order}, order.spentAtSlot = none ∧ order.spentTxHash = none →
      ((order.withStatus .opened).linked lineage).unslotted = order.terms.linked lineage := by
    rintro ⟨⟩ ⟨hslot, htx⟩
    simp only at hslot htx
    subst hslot htx
    rfl
  rw [hopened ha, hopened hb, hterms]

/-- A row of the database has the lineage of the database. -/
theorem PgDb.linked_of_getOrder {orderId : Str} {order : Order}
    (h : db.getOrder orderId = some order) : order.linked (db.getLineage orderId) = order := by
  have hid := PgDb.getOrder_eq_some h
  obtain ⟨row, -, rfl⟩ := Option.map_eq_some_iff.mp h
  rw [← hid]
  rfl

namespace InStep

theorem empty : InStep mesh opts content .empty .empty where
  ids := rfl
  getOrder _ := rfl
  getLineage _ := rfl
  unspent _ _ h := by cases h
  terms _ _ h := by cases h

theorem agree (h : InStep mesh opts content repo db) : Agree repo db :=
  agree_of_getOrder h.getOrder h.getLineage

theorem listsAlike_iff (h : InStep mesh opts content repo db) (pairId : Str) :
    ListsAlike repo db pairId ↔
      (db.openRows pairId).Pairwise fun a b => ¬PgDb.slotBefore b a :=
  Backend.listsAlike_iff h.ids h.getOrder pairId

/-- What is cached in memory is stored, up to its slot. -/
theorem exists_stored (h : InStep mesh opts content repo db) {orderId : Str} {order : Order}
    (horder : repo.getOrder orderId = some order) :
    ∃ stored, db.getOrder orderId = some stored ∧ stored.unslotted = order.unslotted := by
  have hmap := h.getOrder orderId
  rw [horder, Option.map_some, eq_comm, Option.map_eq_some_iff] at hmap
  exact hmap

/-- What the one has not cached, the other has not stored. -/
theorem getOrder_eq_none (h : InStep mesh opts content repo db) {orderId : Str}
    (hnone : repo.getOrder orderId = none) : db.getOrder orderId = none := by
  have hmap := h.getOrder orderId
  rw [hnone, Option.map_none, eq_comm, Option.map_eq_none_iff] at hmap
  exact hmap

/-- **A row that is written again is only opened**, in the database as in memory. -/
theorem reopened (h : InStep mesh opts content repo db) {order row existing stored : Order}
    (hvalid : validateAndMap mesh opts (content order.ref) = some row) {slot : ℕ}
    (horder : order = { row with createdAtSlot := some slot }) (hfresh : Fresh order)
    (hcached : repo.getOrder order.orderId = some existing) (hunspent : existing.spentTxHash = none)
    (hstored : db.getOrder order.orderId = some stored)
    (heq : stored.unslotted = existing.unslotted) :
    ((order.withStatus .opened).linked (repo.getLineage order.orderId)).unslotted =
      (stored.withStatus .opened).unslotted := by
  -- the output is the same, so are the terms
  obtain ⟨row', hvalid', hterms⟩ := h.terms _ _ hcached
  have href : existing.ref = order.ref := by
    apply orderIdOf_injective
    rw [← Order.orderId_eq_ref, ← Order.orderId_eq_ref]
    exact OrdersRepo.orderId_of_getOrder hcached
  rw [href, hvalid] at hvalid'
  obtain rfl := Option.some.inj hvalid'
  have hsame : order.terms = existing.terms := by
    rw [hterms, horder]
    rfl
  have hlinked := PgDb.linked_of_getOrder hstored
  rw [← h.getLineage] at hlinked
  calc ((order.withStatus .opened).linked (repo.getLineage order.orderId)).unslotted
      = ((existing.withStatus .opened).linked (repo.getLineage order.orderId)).unslotted :=
        opened_of_terms hsame ⟨hfresh.spentAtSlot, hfresh.spentTxHash⟩
          ⟨(h.unspent _ _ hcached).1, hunspent⟩ _
    _ = (existing.unslotted.withStatus .opened).linked (repo.getLineage order.orderId) := rfl
    _ = (stored.unslotted.withStatus .opened).linked (repo.getLineage order.orderId) := by
        rw [heq]
    _ = ((stored.linked (repo.getLineage order.orderId)).withStatus .opened).unslotted := rfl
    _ = (stored.withStatus .opened).unslotted := by rw [hlinked]

/-- An order that is written again is the order that is there, so it does not matter that
the one replaces its row and the other only opens it. -/
theorem upsertOpenOrder (h : InStep mesh opts content repo db) {order row : Order}
    (hvalid : validateAndMap mesh opts (content order.ref) = some row) {slot : ℕ}
    (horder : order = { row with createdAtSlot := some slot }) (hstorable : Storable order)
    (hunspent : ∀ existing, repo.getOrder order.orderId = some existing →
      existing.spentTxHash = none) :
    InStep mesh opts content (repo.upsertOpenOrder order) (db.upsertOpenOrder order).state := by
  have hrow := fresh_of_validateAndMap hvalid
  have hfresh : Fresh order := by
    rw [horder]
    exact ⟨hrow.status, hrow.parent, hrow.root, hrow.spentAtSlot, hrow.spentTxHash,
      hrow.createdTxHash⟩
  have hget := repo.getOrder_upsertOpenOrder hfresh.parent hfresh.root
  refine ⟨?_, ?_, ?_, ?_, ?_⟩
  · have hsome : (repo.getOrder order.orderId).isSome = (db.orders.find? order.orderId).isSome := by
      have hmap := congrArg Option.isSome (h.getOrder order.orderId)
      rwa [Option.isSome_map, Option.isSome_map, PgDb.getOrder, Option.isSome_map] at hmap
    rw [repo.ids_upsertOpenOrder, db.ids_upsertOpenOrder hstorable, hsome, h.ids]
  · intro orderId
    rw [hget, db.getOrder_upsertOpenOrder hstorable]
    split
    · next heq =>
      subst heq
      rw [Option.map_some, Option.map_some, Option.some.injEq, ← h.getLineage]
      cases hcached : repo.getOrder order.orderId with
      | none =>
          rw [h.getOrder_eq_none hcached, Option.map_none, Option.getD_none,
            hfresh.rowToOrder_orderRowOf]
      | some existing =>
          obtain ⟨stored, hstored, heq⟩ := h.exists_stored hcached
          rw [hstored, Option.map_some, Option.getD_some]
          exact h.reopened hvalid horder hfresh hcached (hunspent existing hcached) hstored heq
    · exact h.getOrder orderId
  · intro orderId
    rw [db.getLineage_upsertOpenOrder hstorable]
    exact h.getLineage orderId
  · intro orderId cached hcached
    rw [hget] at hcached
    split at hcached
    · obtain rfl := Option.some.inj hcached
      exact ⟨hfresh.spentAtSlot, fun _ => hfresh.spentTxHash⟩
    · exact h.unspent orderId cached hcached
  · intro orderId cached hcached
    rw [hget] at hcached
    split at hcached
    · obtain rfl := Option.some.inj hcached
      refine ⟨row, hvalid, ?_⟩
      rw [horder]
      rfl
    · exact h.terms orderId cached hcached

/-- A spend is recorded of an open order, which has none yet. -/
theorem markSpent (h : InStep mesh opts content repo db) {orderId : Str}
    (hopen : repo.IsOpen orderId) (status : SpentStatus) (spentTxHash : Option Str) :
    InStep mesh opts content (repo.markSpent orderId status spentTxHash none)
      (db.markSpent orderId status spentTxHash none).state := by
  obtain ⟨order, horder, hstatus⟩ := OrdersRepo.statusOf_eq_some.mp hopen
  have hspent : ∀ orderId', (repo.markSpent orderId status spentTxHash none).getOrder orderId' =
      if orderId' = orderId then some (order.spent status.toOrderStatus spentTxHash none)
      else repo.getOrder orderId' := by
    intro orderId'
    rw [repo.getOrder_markSpent]
    split
    · next heq =>
      -- an open order has no spend that could be kept
      rw [heq, horder, Option.map_some, (h.unspent _ _ horder).2 hstatus, Option.or_none,
        (h.unspent _ _ horder).1]
      rfl
    · rfl
  refine ⟨?_, ?_, ?_, ?_, ?_⟩
  · rw [repo.ids_markSpent, db.ids_markSpent]
    exact h.ids
  · intro orderId'
    rw [hspent, db.getOrder_markSpent]
    split
    · next hid =>
      obtain ⟨stored, hstored, heq⟩ := h.exists_stored horder
      rw [hid, hstored, Option.map_some, Option.map_some, Option.map_some]
      exact congrArg (fun view : Order => some (view.spent status.toOrderStatus spentTxHash none))
        heq.symm
    · exact h.getOrder orderId'
  · intro orderId'
    rw [repo.getLineage_markSpent, db.getLineage_markSpent]
    exact h.getLineage orderId'
  · intro orderId' cached hcached
    rw [hspent] at hcached
    split at hcached
    · obtain rfl := Option.some.inj hcached
      exact ⟨rfl, fun hopened => absurd hopened status.toOrderStatus_ne_opened⟩
    · exact h.unspent orderId' cached hcached
  · intro orderId' cached hcached
    rw [hspent] at hcached
    split at hcached
    · obtain rfl := Option.some.inj hcached
      exact h.terms orderId order horder
    · exact h.terms orderId' cached hcached

/-- A lineage is written once, or again as it was. -/
theorem setLineage (h : InStep mesh opts content repo db) {child parent root : Str}
    (hfirst : ∀ lineage, repo.getLineage child = some lineage → lineage = ⟨parent, root⟩) :
    InStep mesh opts content (repo.setLineage child parent root)
      (db.setLineage child parent root) := by
  have hlineage : ∀ orderId, (repo.setLineage child parent root).getLineage orderId =
      (db.setLineage child parent root).getLineage orderId := by
    intro orderId
    rw [repo.getLineage_setLineage, db.getLineage_setLineage, ← h.getLineage]
    split
    · next heq =>
      rw [heq]
      cases hrecorded : repo.getLineage child with
      | none => rfl
      | some lineage => rw [hfirst lineage hrecorded]; rfl
    · rw [Option.or_none]
  have hrows : ∀ orderId cached,
      (repo.setLineage child parent root).getOrder orderId = some cached →
      ∃ order, repo.getOrder orderId = some order ∧ (cached = order ∨
        cached = order.linked (some ⟨parent, root⟩)) := by
    intro orderId cached hcached
    rw [repo.getOrder_setLineage] at hcached
    split at hcached
    · obtain ⟨order, horder, rfl⟩ := Option.map_eq_some_iff.mp hcached
      exact ⟨order, horder, .inr rfl⟩
    · exact ⟨cached, hcached, .inl rfl⟩
  refine ⟨?_, ?_, hlineage, ?_, ?_⟩
  · rw [repo.ids_setLineage]
    exact h.ids
  · intro orderId
    rw [db.getOrder_setLineage, ← hlineage, repo.getOrder_setLineage, repo.getLineage_setLineage]
    cases hcached : repo.getOrder orderId with
    | none =>
        rw [h.getOrder_eq_none hcached]
        split <;> rfl
    | some order =>
        obtain ⟨stored, hstored, heq⟩ := h.exists_stored hcached
        rw [hstored]
        split
        · exact congrArg (fun view : Order => some (view.linked (some ⟨parent, root⟩))) heq.symm
        · have hlinked := PgDb.linked_of_getOrder hstored
          rw [← h.getLineage] at hlinked
          rw [Option.map_some, Option.map_some, Option.map_some, hlinked, heq]
  · intro orderId cached hcached
    obtain ⟨order, horder, rfl | rfl⟩ := hrows orderId cached hcached
    · exact h.unspent orderId _ horder
    · exact h.unspent orderId order horder
  · intro orderId cached hcached
    obtain ⟨order, horder, rfl | rfl⟩ := hrows orderId cached hcached
    · exact h.terms orderId _ horder
    · exact h.terms orderId order horder

/-- **Step lemma.** -/
theorem call (h : InStep mesh opts content repo db) {call : RepoCall}
    (hissued : Issued mesh opts content repo call) (hharmless : Harmless repo call) :
    InStep mesh opts content (repo.call call) (db.call call) := by
  cases call with
  | upsertOpenOrder order =>
      obtain ⟨row, slot, hvalid, horder⟩ := hissued
      exact h.upsertOpenOrder hvalid horder hharmless.1 hharmless.2
  | markSpent orderId status spentTxHash spentAtSlot =>
      obtain ⟨hopen, rfl⟩ := hissued
      exact h.markSpent hopen status spentTxHash
  | setLineage child parent root => exact h.setLineage hharmless

end InStep

/-!
## Slots

When the two list a pair in the same order.
-/

namespace PgDb

/-- What `listByPair` sorts by, with the pair it is asked for. -/
def pairSlot (row : OrderRow) : Str × Option ℕ := (row.pairId, row.createdAtSlot)

/-- The rows of a pair were first written at later and later slots. -/
def SlotsIncrease (db : PgDb) : Prop :=
  (db.orders.entries.map pairSlot).Pairwise fun a b => a.1 = b.1 → ¬nullsLast b.2 a.2

theorem SlotsIncrease.openRows (h : db.SlotsIncrease) (pairId : Str) :
    (db.openRows pairId).Pairwise fun a b => ¬slotBefore b a := by
  have hrows := (List.pairwise_map.mp h).sublist
    (List.filter_sublist (p := fun row => row.pairId = pairId ∧ row.status = .opened))
  refine hrows.imp_of_mem fun ha hb hslots => hslots ?_
  have hpair := (of_decide_eq_true (List.mem_filter.mp ha).2).1
  have hpair' := (of_decide_eq_true (List.mem_filter.mp hb).2).1
  exact hpair.trans hpair'.symm

/-- The pair is another table's. -/
theorem orders_insertPair (db : PgDb) (order : Order) :
    (db.insertPair order).state.orders = db.orders := by
  unfold insertPair
  split
  · split_ifs <;> rfl
  · rfl

theorem orders_insertOrder (db : PgDb) (order : Order) :
    (db.insertOrder order).state.orders = db.orders ∨
      (db.insertOrder order).state.orders =
        db.orders.set (upsertedRow (db.orders.find? order.orderId) order) := by
  have hid : (orderRowOf order).orderId = order.orderId := rfl
  unfold insertOrder
  dsimp only
  rw [hid]
  split
  · exact .inl rfl
  split
  · exact .inl rfl
  cases db.orders.find? order.orderId with
  | some existing => exact .inr rfl
  | none =>
      dsimp only
      split
      · exact .inl rfl
      · exact .inr rfl

/-- An upsert writes its row or throws before. -/
theorem orders_upsertOpenOrder (db : PgDb) (order : Order) :
    (db.upsertOpenOrder order).state.orders = db.orders ∨
      (db.upsertOpenOrder order).state.orders =
        db.orders.set (upsertedRow (db.orders.find? order.orderId) order) := by
  have hpair := orders_insertPair
    { db with assets := (assetRowsOf order).foldl insertOrIgnore db.assets } order
  cases hinserted : insertPair
      { db with assets := (assetRowsOf order).foldl insertOrIgnore db.assets } order with
  | error thrown =>
      rw [hinserted] at hpair
      rw [upsertOpenOrder, hinserted]
      exact .inl hpair
  | ok db' =>
      rw [hinserted] at hpair
      obtain hpair : db'.orders = db.orders := hpair
      rw [upsertOpenOrder, hinserted, Attempt.andThen, ← hpair]
      exact db'.orders_insertOrder order

theorem pairSlot_updateSpent (db : PgDb) (orderId : Str) (status : SpentStatus)
    (spentTxHash : Option Str) (spentAtSlot : Option ℕ) :
    (db.updateSpent orderId status spentTxHash spentAtSlot).orders.entries.map pairSlot =
      db.orders.entries.map pairSlot := by
  unfold updateSpent
  cases hrow : db.orders.find? orderId with
  | none => rfl
  | some row =>
      obtain rfl : row.orderId = orderId := (KeyedList.find?_eq_some.mp hrow).2
      exact KeyedList.map_entries_set hrow rfl

theorem orders_markSpent (db : PgDb) (orderId : Str) (status : SpentStatus)
    (spentTxHash : Option Str) (spentAtSlot : Option ℕ) :
    (db.markSpent orderId status spentTxHash spentAtSlot).state.orders = db.orders ∨
      (db.markSpent orderId status spentTxHash spentAtSlot).state.orders =
        (db.updateSpent orderId status spentTxHash spentAtSlot).orders := by
  unfold markSpent
  split
  · exact .inl rfl
  · exact .inr (insertHistory_state _ _).1

/-- **Step lemma.** -/
theorem SlotsIncrease.call (h : db.SlotsIncrease) {call : RepoCall} (hcall : InSlotOrder db call) :
    (db.call call).SlotsIncrease := by
  unfold SlotsIncrease at h ⊢
  cases call with
  | upsertOpenOrder order =>
      show ((db.upsertOpenOrder order).state.orders.entries.map _).Pairwise _
      rcases db.orders_upsertOpenOrder order with hsame | hset
      · rw [hsame]
        exact h
      · rw [hset]
        cases hrow : db.orders.find? order.orderId with
        | some existing =>
            -- a row that is written again keeps its place and its slot
            have hid : existing.orderId = order.orderId := (KeyedList.find?_eq_some.mp hrow).2
            have hfound : db.orders.find? (upsertedRow (some existing) order).orderId =
                some existing := hid ▸ hrow
            rw [KeyedList.map_entries_set hfound rfl]
            exact h
        | none =>
            rw [upsertedRow, KeyedList.entries_set_of_none hrow, List.map_append,
              List.pairwise_append]
            refine ⟨h, List.pairwise_singleton _ _, ?_⟩
            intro _ ha _ hb hpair
            obtain ⟨row, hmem, rfl⟩ := List.mem_map.mp ha
            obtain rfl := List.mem_singleton.mp hb
            exact hcall hrow row hmem hpair
  | markSpent orderId status spentTxHash spentAtSlot =>
      show ((db.markSpent orderId status spentTxHash spentAtSlot).state.orders.entries.map
        _).Pairwise _
      rcases db.orders_markSpent orderId status spentTxHash spentAtSlot with hsame | hset
      · rw [hsame]
        exact h
      · rw [hset, pairSlot_updateSpent]
        exact h
  | setLineage child parent root => exact h

end PgDb

/-- **The repositories agree.**  Take a sequence of calls that the indexer issues,
starting from empty, in which every call is harmless.  After every part of it the two
answer alike.  As lists, `listByPair` is the same exactly for the pairs whose open rows
have later and later slots in the order in which they were first written; and it is the
same throughout where orders are first written at later and later slots. -/
theorem repos_agree {calls : List RepoCall}
    (hissued : Along OrdersRepo.call (Issued mesh opts content) .empty calls)
    (hharmless : Along OrdersRepo.call Harmless .empty calls) {before : List RepoCall}
    (hbefore : before <+: calls) :
    let repo := before.foldl OrdersRepo.call .empty
    let db := before.foldl PgDb.call .empty
    Agree repo db ∧
      (∀ pairId, ListsAlike repo db pairId ↔
        (db.openRows pairId).Pairwise fun a b => ¬PgDb.slotBefore b a) ∧
      (Along PgDb.call InSlotOrder .empty calls → ∀ pairId, ListsAlike repo db pairId) := by
  have hcalls := hissued.and hharmless
  have hinStep := lockstep (g := PgDb.call) (R := InStep mesh opts content)
    (fun repo db call h hcall => h.call hcall.1 hcall.2) .empty hcalls hbefore
  refine ⟨hinStep.agree, hinStep.listsAlike_iff, fun hslots pairId => ?_⟩
  have hincrease : (before.foldl PgDb.call .empty).SlotsIncrease :=
    hslots.keeps (fun _ _ h hcall => h.call hcall) List.Pairwise.nil hbefore
  exact (hinStep.listsAlike_iff pairId).mpr (hincrease.openRows pairId)

end

namespace SampleRepos

open SampleChain (mesh opts txId orderAddress orderRef continuationRef datumCbor orderOutput)

/-- The order of the samples, at every output. -/
def content (ref : OutRef) : UTxO :=
  let out := orderOutput 12000000 (datumCbor [0x00, 0x98, 0x96, 0x80] [0x05])
  ⟨ref, out.address, out.amount, out.plutusData⟩

set_option maxRecDepth 100000 in
def row : Order := (validateAndMap mesh opts (content orderRef)).get (by decide)

def order : Order := { row with createdAtSlot := some 4000 }

set_option maxRecDepth 100000 in
def continuationRow : Order := (validateAndMap mesh opts (content continuationRef)).get (by decide)

def continuation : Order := { continuationRow with createdAtSlot := some 4100 }

/-- A partial fill: the order is cached, spent, and continued by one that is cached in a
later pass. -/
def fill : List RepoCall :=
  [.upsertOpenOrder order, .markSpent order.orderId .partiallyFilled (some (txId 0xd2)) none,
    .setLineage continuation.orderId order.orderId order.orderId, .upsertOpenOrder continuation]

/-- The order is taken, and after a reorganisation is there again. -/
def reopened : List RepoCall :=
  [.upsertOpenOrder order, .markSpent order.orderId .taken (some (txId 0xd2)) none,
    .upsertOpenOrder order]

end SampleRepos

section

open SampleChain (mesh opts txId orderRef continuationRef)
open SampleRepos

set_option maxRecDepth 100000 in
theorem validateAndMap_content : validateAndMap mesh opts (content order.ref) = some row := by
  have hvalid : validateAndMap mesh opts (content orderRef) = some row := (Option.some_get _).symm
  have href : order.ref = orderRef := (validateAndMap_eq_some hvalid).1
  rw [href]
  exact hvalid

set_option maxRecDepth 100000 in
theorem validateAndMap_continuation :
    validateAndMap mesh opts (content continuation.ref) = some continuationRow := by
  have hvalid : validateAndMap mesh opts (content continuationRef) = some continuationRow :=
    (Option.some_get _).symm
  have href : continuation.ref = continuationRef := (validateAndMap_eq_some hvalid).1
  rw [href]
  exact hvalid

set_option maxRecDepth 100000 in
theorem storable_order : Storable order where
  fits := by decide
  offered_pos := by decide
  requested_pos := by decide
  pair := ⟨(order.pairId.splitOn '_').getD 0 [], (order.pairId.splitOn '_').getD 1 [], by decide,
    by decide, by decide, by decide⟩

set_option maxRecDepth 100000 in
theorem storable_continuation : Storable continuation where
  fits := by decide
  offered_pos := by decide
  requested_pos := by decide
  pair := ⟨(order.pairId.splitOn '_').getD 0 [], (order.pairId.splitOn '_').getD 1 [], by decide,
    by decide, by decide, by decide⟩

set_option maxRecDepth 100000 in
theorem repos_agree_sample :
    Agree (fill.foldl OrdersRepo.call .empty) (fill.foldl PgDb.call .empty) ∧
    (∀ pairId,
      ListsAlike (fill.foldl OrdersRepo.call .empty) (fill.foldl PgDb.call .empty) pairId) ∧
    ((fill.foldl OrdersRepo.call .empty).listByPair continuation.pairId).map Order.orderId =
      [continuation.orderId] := by
  have hissued : Along OrdersRepo.call (Issued mesh opts content) .empty fill :=
    ⟨⟨row, 4000, validateAndMap_content, rfl⟩, ⟨by decide, rfl⟩, trivial,
      ⟨continuationRow, 4100, validateAndMap_continuation, rfl⟩, trivial⟩
  have hnew : (((fill.take 3).foldl OrdersRepo.call .empty).getOrder continuation.orderId).isNone := by
    decide
  have hharmless : Along OrdersRepo.call Harmless .empty fill := by
    refine ⟨⟨storable_order, fun _ h => (by cases h)⟩, trivial, fun _ h => (by cases h),
      ⟨storable_continuation, fun existing h => ?_⟩, trivial⟩
    have hnone := (Option.isNone_iff_eq_none.mp hnew).symm.trans h
    cases hnone
  have hslots : Along PgDb.call InSlotOrder .empty fill :=
    ⟨fun _ _ h => (by cases h), trivial, trivial, fun _ => by decide, trivial⟩
  obtain ⟨hagree, -, hlists⟩ := repos_agree hissued hharmless List.prefix_rfl
  exact ⟨hagree, hlists hslots, by decide⟩

set_option maxRecDepth 100000 in
/-- **A reopened order keeps its old spend in the database only.** -/
theorem reopened_disagrees :
    Along OrdersRepo.call (Issued mesh opts content) .empty reopened ∧
      ¬Agree (reopened.foldl OrdersRepo.call .empty) (reopened.foldl PgDb.call .empty) := by
  refine ⟨⟨⟨row, 4000, validateAndMap_content, rfl⟩, ⟨by decide, rfl⟩,
    ⟨row, 4000, validateAndMap_content, rfl⟩, trivial⟩, ?_⟩
  intro hagree
  have hspent := congrArg (Option.map Order.spentTxHash) (hagree.getOrder order.orderId)
  revert hspent
  decide

end

end BeaconDex.Backend
