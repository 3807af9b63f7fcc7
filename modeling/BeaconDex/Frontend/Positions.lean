import BeaconDex.Backend.OrdersRepo
import BeaconDex.Library.Grouping
import Mathlib.Data.List.Sort

/-!
# Positions

`frontend/lib/positions.ts`: an owner's order rows, put together to positions.  A
partial fill replaces an order by a continuation under a new id, so one intent of the
seller is a chain of rows linked by their parents.

Rows are grouped by the root they name, and each group is put in order by following
the links from parent to child.  The links are data and may be anything: rows may be
missing, a parent may have several children, the links may go in circles.  Whatever
they are every row ends up in one chain, once; and where they are those of one path the
chain is that path (`groupPositions_partition`).

## Following links that may go in circles

The loop over the links is the library's `trail`, defined by recursion on the links that
were not used yet, so it ends by definition and never visits a row twice.

A position carries what its first and last rows are: `original` and `tip` are fields, as
in the source, and their equations with the chain are fields too.
-/

namespace BeaconDex.Frontend

open Library
open Backend (Str Order orderIdOf)

/-! ## Chains -/

/-- A parent link that is set: neither missing nor the empty string. -/
def parentLink (o : Order) : Option Str := o.parentOrderId.filter fun parent => parent ≠ []

/-- A member under its parent, in the place of any other. -/
def setChild (children : Links Str Order) (m : Order) : Links Str Order :=
  match parentLink m with
  | some parent => children.set (parent, m)
  | none => children

/-- The last of its members under each parent. -/
def childByParent (members : List Order) : Links Str Order := members.foldl setChild .empty

/-- The root row, else a member without a parent in the group, else the first one. -/
def headOf (rootId : Str) (members : List Order) : Option Order :=
  let memberIds := members.map Order.orderId
  ((members.find? fun m => m.orderId = rootId).or
    (members.find? fun m => (parentLink m).all fun parent => parent ∉ memberIds)).or members.head?

/-- The members of a group, from root to tip; those the links do not reach come
last. -/
def orderChain (rootId : Str) (members : List Order) : List Order :=
  let chain := trail Order.orderId (childByParent members) (headOf rootId members) []
  let seen := chain.map Order.orderId
  chain ++ members.filter fun m => m.orderId ∉ seen

/-! ## Positions -/

/-- One intent of the seller: its rows from the first to the current one. -/
structure Position where
  rootId : Str
  chain : List Order
  /-- Its amounts are the original size. -/
  original : Order
  /-- Its amounts are what remains. -/
  tip : Order
  original_eq : chain.head? = some original
  tip_eq : chain.getLast? = some tip

/-- The root a row names, its own id without one. -/
def rootOf (o : Order) : Str := o.rootOrderId.getD o.orderId

variable {orders members path : List Order} {rootId : Str} {o : Order}

/-- The head of a group is one of its members. -/
theorem headOf_mem (h : headOf rootId members = some o) : o ∈ members := by
  unfold headOf at h
  rcases Option.or_eq_some_iff.mp h with h | ⟨-, h⟩
  · rcases Option.or_eq_some_iff.mp h with h | ⟨-, h⟩
    · exact List.mem_of_find?_eq_some h
    · exact List.mem_of_find?_eq_some h
  · exact List.mem_of_head? h

/-- Every group has a head, whatever the links say: the member the group is named after,
or the first one without a parent in it, or just the first. -/
theorem headOf_ne_none (rootId : Str) (h : members ≠ []) : headOf rootId members ≠ none := by
  intro hnone
  unfold headOf at hnone
  rw [Option.or_eq_none_iff, List.head?_eq_none_iff] at hnone
  exact h hnone.2

theorem orderChain_ne_nil (h : members ≠ []) : orderChain rootId members ≠ [] := by
  obtain ⟨head, hhead⟩ := Option.ne_none_iff_exists'.mp (headOf_ne_none rootId h)
  unfold orderChain
  rw [hhead]
  exact List.append_ne_nil_of_left_ne_nil trail_ne_nil _

/-- The position of a group. -/
def positionOf (group : Group Str Order) : Position :=
  have hne : orderChain group.name group.members ≠ [] := orderChain_ne_nil group.members_ne_nil
  { rootId := group.name
    chain := orderChain group.name group.members
    original := (orderChain group.name group.members).head hne
    tip := (orderChain group.name group.members).getLast hne
    original_eq := List.head?_eq_some_head hne
    tip_eq := List.getLast?_eq_some_getLast hne }

/-- The place of each id in the list. -/
def placeOf (orders : List Order) (id : Str) : ℕ :=
  let idx : Links Str ℕ := orders.zipIdx.foldl (fun idx o => idx.set (o.1.orderId, o.2)) .empty
  (idx.next id).getD 0

/-- The first place of a row of the position. -/
def earliest (orders : List Order) (p : Position) : ℕ :=
  (p.chain.map fun o => placeOf orders o.orderId).min?.getD 0

/-- The positions of a list of rows, in the list's order of their first rows. -/
def groupPositions (orders : List Order) : List Position :=
  ((grouped rootOf orders).entries.map positionOf).insertionSort fun a b =>
    earliest orders a ≤ earliest orders b

/-!
## Nothing is lost

Every row is in one group, and in the chain of this group once, in or behind the trail
of the links.
-/

/-- The child of a parent is the last member with that link. -/
theorem next_childByParent (members : List Order) (k : Str) : (childByParent members).next k =
    (members.filter fun m => parentLink m = some k).getLast? := by
  induction members using List.reverseRecOn with
  | nil => rfl
  | append_singleton members m ih =>
      rw [List.filter_append, childByParent, List.foldl_append, List.foldl_cons, List.foldl_nil]
      change Links.next (childByParent members) k = _ at ih
      show Links.next (setChild (childByParent members) m) k = _
      unfold setChild
      cases hlink : parentLink m with
      | none =>
          have hskip : [m].filter (fun m => decide (parentLink m = some k)) = [] := by simp [hlink]
          rw [hskip, List.append_nil]
          exact ih
      | some parent =>
          show (((childByParent members).set (parent, m)).find? k).map Prod.snd = _
          rw [KeyedList.find?_set]
          by_cases hk : k = parent
          · have hkept : [m].filter (fun m => decide (parentLink m = some k)) = [m] := by
              simp [hlink, hk]
            rw [if_pos hk, hkept, List.getLast?_append_of_ne_nil _ (List.cons_ne_nil _ _)]
            rfl
          · have hskip : [m].filter (fun m => decide (parentLink m = some k)) = [] := by
              simp [hlink, Ne.symm hk]
            rw [if_neg hk, hskip, List.append_nil]
            exact ih

theorem next_childByParent_mem {k : Str} (h : (childByParent members).next k = some o) :
    o ∈ members := by
  rw [next_childByParent] at h
  exact (List.mem_filter.mp (List.mem_of_getLast? h)).1

/-- **A chain is its group**, put in order. -/
theorem orderChain_perm (rootId : Str) (hids : (members.map Order.orderId).Nodup) :
    (orderChain rootId members).Perm members := by
  obtain ⟨hnodup, -⟩ := nodup_trail Order.orderId (childByParent members)
    (headOf rootId members) []
  have hsub : trail Order.orderId (childByParent members) (headOf rootId members) [] ⊆ members :=
    trail_subset (fun _ => headOf_mem) fun _ _ => next_childByParent_mem
  have hmembers : members.Nodup := hids.of_map _
  unfold orderChain
  generalize trail Order.orderId (childByParent members) (headOf rootId members) [] = chain at *
  have hchain : (chain ++ members.filter fun m => m.orderId ∉ chain.map Order.orderId).Nodup := by
    rw [List.nodup_append]
    refine ⟨hnodup.of_map _, hmembers.filter _, ?_⟩
    rintro a ha b hb rfl
    exact of_decide_eq_true (List.mem_filter.mp hb).2 (List.mem_map_of_mem ha)
  rw [List.perm_ext_iff_of_nodup hchain hmembers]
  intro a
  rw [List.mem_append, List.mem_filter]
  constructor
  · rintro (ha | ⟨ha, -⟩)
    · exact hsub ha
    · exact ha
  · intro ha
    by_cases hseen : a.orderId ∈ chain.map Order.orderId
    · left
      obtain ⟨b, hb, heq⟩ := List.mem_map.mp hseen
      rwa [← List.inj_on_of_nodup_map hids (hsub hb) ha heq]
    · exact Or.inr ⟨ha, decide_eq_true hseen⟩

/-- There is a position for each group, and no other. -/
theorem mem_groupPositions {p : Position} : p ∈ groupPositions orders ↔
    ∃ group ∈ (grouped rootOf orders).entries, positionOf group = p := by
  rw [groupPositions, List.mem_insertionSort, List.mem_map]

/-- The ids of a group's members are distinct if those of the list are. -/
theorem nodup_members (hids : (orders.map Order.orderId).Nodup) {group : Group Str Order}
    (hgroup : group ∈ (grouped rootOf orders).entries) :
    (group.members.map Order.orderId).Nodup := by
  rw [members_of_mem_grouped hgroup]
  exact hids.sublist (List.filter_sublist.map _)

/-- All orders are in the chains of the positions, each once. -/
theorem chains_perm (hids : (orders.map Order.orderId).Nodup) :
    ((groupPositions orders).flatMap Position.chain).Perm orders := by
  have hsorted : ((groupPositions orders).flatMap Position.chain).Perm
      (((grouped rootOf orders).entries.map positionOf).flatMap Position.chain) :=
    (List.perm_insertionSort _ _).flatMap_right _
  refine hsorted.trans ?_
  rw [List.flatMap_map]
  exact perm_flatMap_grouped (hids.of_map _) fun group hgroup =>
    orderChain_perm group.name (nodup_members hids hgroup)

/-!
## One path

Where the rows of a group are linked as one path, the trail from its root is the path.
-/

/-- The rows of the group of `rootId`, in the order of `path`, are linked as one path
that starts at the root row. -/
structure FormsPath (orders : List Order) (rootId : Str) (path : List Order) : Prop where
  members : path.Perm (orders.filter fun o => rootOf o = rootId)
  root : path.head?.map Order.orderId = some rootId
  links : path.IsChain fun parent child => child.parentOrderId = some parent.orderId
  /-- The root row does not continue a row of the group. -/
  start : ∀ o, path.head? = some o → ∀ m ∈ path, o.parentOrderId ≠ some m.orderId

theorem orderId_ne_nil (o : Order) : o.orderId ≠ [] := by
  rw [o.orderId_eq, orderIdOf]
  exact List.append_ne_nil_of_right_ne_nil _ (List.cons_ne_nil _ _)

/-- A link to a row is one that is set. -/
theorem parentLink_eq_iff {m : Order} :
    parentLink m = some o.orderId ↔ m.parentOrderId = some o.orderId := by
  rw [parentLink, Option.filter_eq_some_iff]
  exact and_iff_left (decide_eq_true (orderId_ne_nil o))

/-- On a path the rows that continue one row are the next one. -/
theorem FormsPath.parent_iff (h : FormsPath orders rootId path)
    (hids : (path.map Order.orderId).Nodup) {i : ℕ} (hi : i < path.length) {m : Order} :
    m ∈ path ∧ m.parentOrderId = some path[i].orderId ↔ path[i + 1]? = some m := by
  have hlinks := List.isChain_iff_getElem.mp h.links
  constructor
  · rintro ⟨hm, hparent⟩
    obtain ⟨j, hj, rfl⟩ := List.mem_iff_getElem.mp hm
    cases j with
    | zero =>
        have hhead : path.head? = some path[0] := by
          rw [List.head?_eq_getElem?, List.getElem?_eq_getElem hj]
        exact absurd hparent (h.start _ hhead _ (List.getElem_mem hi))
    | succ j =>
        have hlink : path[j + 1].parentOrderId = some path[j].orderId := hlinks j hj
        rw [hlink, Option.some.injEq] at hparent
        have hj' : j < (path.map Order.orderId).length := by
          rw [List.length_map]
          omega
        have hi' : i < (path.map Order.orderId).length := by
          rw [List.length_map]
          exact hi
        have hsame : (path.map Order.orderId)[j] = (path.map Order.orderId)[i] := by
          simpa using hparent
        obtain rfl := (hids.getElem_inj_iff).mp hsame
        exact List.getElem?_eq_getElem hj
  · intro hm
    obtain ⟨hj, rfl⟩ := List.getElem?_eq_some_iff.mp hm
    exact ⟨List.getElem_mem hj, hlinks i hj⟩

/-- A list with at most one element ends in it. -/
theorem getLast?_eq_of_mem_iff {α : Type*} {l : List α} {only : Option α}
    (h : ∀ a, a ∈ l ↔ only = some a) : l.getLast? = only := by
  cases hlast : l.getLast? with
  | none =>
      rw [List.getLast?_eq_none_iff] at hlast
      symm
      rw [Option.eq_none_iff_forall_ne_some]
      intro a ha
      exact absurd ((h a).mpr ha) (hlast ▸ List.not_mem_nil)
  | some a => exact ((h a).mp (List.mem_of_getLast? hlast)).symm

/-- The root row, where it is a member, is the head. -/
theorem headOf_eq_some {root : Order} (hids : (members.map Order.orderId).Nodup)
    (hmem : root ∈ members) : headOf root.orderId members = some root := by
  cases hfind : members.find? fun m => m.orderId = root.orderId with
  | none =>
      rw [List.find?_eq_none] at hfind
      exact absurd (decide_eq_true rfl) (hfind root hmem)
  | some m =>
      have hm : m.orderId = root.orderId := by simpa using List.find?_some hfind
      obtain rfl := List.inj_on_of_nodup_map hids (List.mem_of_find?_eq_some hfind) hmem hm
      rw [headOf, hfind]
      rfl

/-- The links lead from each row of a path to the next one. -/
theorem FormsPath.next_eq (h : FormsPath orders rootId path)
    (hids : (path.map Order.orderId).Nodup) (hmembers : path.Perm members) {i : ℕ}
    (hi : i < path.length) : (childByParent members).next path[i].orderId = path[i + 1]? := by
  rw [next_childByParent]
  apply getLast?_eq_of_mem_iff
  intro m
  rw [List.mem_filter, decide_eq_true_eq, parentLink_eq_iff, ← hmembers.mem_iff]
  exact h.parent_iff hids hi

/-- **The chain of a path is the path**, in whatever order its rows come. -/
theorem FormsPath.orderChain_eq (h : FormsPath orders rootId path)
    (hids : (orders.map Order.orderId).Nodup) (hmembers : path.Perm members) :
    orderChain rootId members = path := by
  have hpathIds : (path.map Order.orderId).Nodup := by
    refine ((h.members.map _).nodup_iff).mpr ?_
    exact hids.sublist (List.filter_sublist.map _)
  obtain ⟨root, rest, rfl⟩ : ∃ root rest, path = root :: rest := by
    cases path with
    | nil => exact absurd h.root (by simp)
    | cons root rest => exact ⟨root, rest, rfl⟩
  obtain rfl : root.orderId = rootId := by simpa using h.root
  have hhead : headOf root.orderId members = some root :=
    headOf_eq_some ((hmembers.map _).nodup_iff.mp hpathIds)
      (hmembers.mem_iff.mp List.mem_cons_self)
  have htrail : trail Order.orderId (childByParent members) (some root) [] = root :: rest := by
    apply trail_eq_path hpathIds (fun b _ => List.not_mem_nil)
    · rw [List.isChain_iff_getElem]
      intro i hi
      rw [h.next_eq hpathIds hmembers (by omega), List.getElem?_eq_getElem hi]
    · rw [List.getLast_eq_getElem, h.next_eq hpathIds hmembers (by simp), List.getElem?_eq_none (by simp)]
  have hleft : (members.filter fun m => m.orderId ∉ (root :: rest).map Order.orderId) = [] := by
    rw [List.filter_eq_nil_iff]
    intro m hm hnot
    exact of_decide_eq_true hnot (List.mem_map_of_mem (hmembers.mem_iff.mpr hm))
  rw [orderChain, hhead, htrail]
  show root :: rest ++ members.filter _ = root :: rest
  rw [hleft, List.append_nil]

/-- The position of a group that forms a path. -/
theorem FormsPath.position (h : FormsPath orders rootId path)
    (hids : (orders.map Order.orderId).Nodup) {p : Position} (hp : p ∈ groupPositions orders)
    (hroot : p.rootId = rootId) : p.chain = path := by
  obtain ⟨group, hgroup, rfl⟩ := mem_groupPositions.mp hp
  have hname : group.name = rootId := hroot
  show orderChain group.name group.members = path
  rw [hname]
  apply h.orderChain_eq hids
  rw [members_of_mem_grouped hgroup, hname]
  exact h.members

/-- Orders that form a path are shown as a position under the id of the first. -/
theorem FormsPath.exists_position (h : FormsPath orders rootId path) :
    ∃ p ∈ groupPositions orders, p.rootId = rootId := by
  obtain ⟨o, ho, -⟩ := Option.map_eq_some_iff.mp h.root
  have hmem := h.members.mem_iff.mp (List.mem_of_head? ho)
  rw [List.mem_filter, decide_eq_true_eq] at hmem
  obtain ⟨group, hgroup, hname, -⟩ := exists_group_of_mem rootOf hmem.1
  exact ⟨positionOf group, mem_groupPositions.mpr ⟨group, hgroup, rfl⟩, hname.trans hmem.2⟩

/-- **Positions lose and repeat nothing**: of rows with distinct ids, however they are
linked, each occurs in one chain, once.  A group whose links form one path from its
root row is shown as that path, with the path's ends as its first and current order. -/
theorem groupPositions_partition (hids : (orders.map Order.orderId).Nodup) :
    ((groupPositions orders).flatMap Position.chain).Perm orders ∧
    ((groupPositions orders).flatMap Position.chain).Nodup ∧
    ∀ rootId path, FormsPath orders rootId path →
      (∃ p ∈ groupPositions orders, p.rootId = rootId) ∧
      ∀ p ∈ groupPositions orders, p.rootId = rootId →
        p.chain = path ∧ path.head? = some p.original ∧ path.getLast? = some p.tip := by
  have hperm := chains_perm hids
  refine ⟨hperm, hperm.nodup_iff.mpr (hids.of_map _), ?_⟩
  intro rootId path hpath
  refine ⟨hpath.exists_position, ?_⟩
  intro p hp hroot
  obtain rfl := hpath.position hids hp hroot
  exact ⟨rfl, p.original_eq, p.tip_eq⟩

/-! An order, and the continuation a partial fill of it leaves. -/

namespace SamplePositions

open Backend (OutRef OrderStatus)

/-- A row that sells ADA for a token. -/
def row (ref : OutRef) (status : OrderStatus) (offeredAmount requestedAmount : ℤ)
    (parentOrderId rootOrderId : Option Str) : Order where
  orderId := orderIdOf ref
  txHash := ref.txHash
  outputIndex := ref.outputIndex
  status
  pairId := "aa.54_lovelace".toList
  contractAddress := "addr_test1contract".toList
  ownerStakeCredential := "stake".toList
  paymentAddress := "addr_test1pay".toList
  offeredPolicyId := []
  offeredAssetName := []
  offeredAmount
  requestedPolicyId := "aa".toList
  requestedAssetName := "54".toList
  requestedAmount
  depositLovelace := 2000000
  pairBeacon := []
  offerBeacon := []
  askBeacon := []
  ownerBeacon := []
  expiration := none
  version := .finite 1
  allowPartialFill := true
  parentOrderId
  rootOrderId
  createdAtSlot := none
  spentAtSlot := none
  createdTxHash := none
  spentTxHash := none
  orderId_eq := rfl

def rootRef : OutRef := ⟨Backend.hexOf (List.replicate 32 2), 0⟩

def tipRef : OutRef := ⟨Backend.hexOf (List.replicate 32 9), 2⟩

/-- Ten ADA for five tokens, filled in part. -/
def root : Order := row rootRef .partiallyFilled 10000000 5 none none

/-- What is left after four ADA. -/
def tip (status : OrderStatus) : Order :=
  row tipRef status 6000000 3 (some (orderIdOf rootRef)) (some (orderIdOf rootRef))

theorem formsPath :
    FormsPath [tip .opened, root] (orderIdOf rootRef) [root, tip .opened] where
  members := List.Perm.swap _ _ []
  root := rfl
  links := by
    rw [List.isChain_pair]
    rfl
  start o ho m _ := by
    obtain rfl := Option.some.inj ho
    exact (Option.some_ne_none _).symm

/-- The position of the two rows. -/
def position (status : OrderStatus) : Position where
  rootId := orderIdOf rootRef
  chain := [root, tip status]
  original := root
  tip := tip status
  original_eq := rfl
  tip_eq := rfl

end SamplePositions

open SamplePositions in
theorem groupPositions_partition_sample :
    ((groupPositions [tip .opened, root]).flatMap Position.chain).Perm [tip .opened, root] ∧
      ∃ p ∈ groupPositions [tip .opened, root], p.chain = [root, tip .opened] := by
  obtain ⟨hperm, -, hpaths⟩ := @groupPositions_partition [tip .opened, root] (by decide)
  obtain ⟨⟨p, hp, hroot⟩, hchain⟩ := hpaths _ _ formsPath
  exact ⟨hperm, p, hp, (hchain p hp hroot).1⟩

end BeaconDex.Frontend
