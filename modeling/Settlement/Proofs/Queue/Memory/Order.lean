import Mathlib.Data.List.Sort
import Mathlib.Data.String.Basic
import Settlement.Proofs.Digits
import Settlement.Proofs.Queue.Memory.Places

/-!
# The order of the messages of a broker in memory

`Before deeds m m'` says that `m` was published earlier than `m'`. What waits on a queue is in this
order, and all of it was published after everything that is pending (`InOrder`). A lost connection
is where this could break: the pending messages are kept in no order, and are put back by the texts
of their ids. As these have one length, their order is that of the numbers in them
(`idOf_lt_idOf`), as long as twenty digits suffice.

`oldest_first` adds what comes of it: a fetch returns the oldest messages that wait, and it makes no
difference in which order the pending messages are gone through when the connection is lost.
-/

namespace Settlement.MemoryBroker

open Queue

/-- A message was published earlier than another one. -/
def Before (deeds : List Deed) (m m' : Delivery) : Prop :=
  [m'.id, m.id].Sublist ((posted deeds).map (·.id))

/-- What waits is in the order of publication, behind everything that is pending. -/
structure InOrder (deeds : List Deed) (l : Lane) : Prop where
  waiting : l.ready.Pairwise (Before deeds)
  pending_first : ∀ p ∈ l.pending, ∀ m ∈ l.ready, Before deeds p m

/-- What a fetch of at most `max` messages does with a queue that was `l` before and is `l'` after
it. -/
structure TakesOldest (deeds : List Deed) (l l' : Lane) (max : Nat) (batch : List Delivery) :
    Prop where
  /-- It takes as many messages as it may, from the front. -/
  front : l.ready = batch ++ l'.ready
  full : batch.length = min max l.ready.length
  /-- They come in the order of publication. -/
  inOrder : batch.Pairwise (Before deeds)
  /-- Whatever goes on waiting is younger. -/
  oldest : ∀ m ∈ batch, ∀ later ∈ l'.ready, Before deeds m later

/-- The queue when its pending messages are gone through in some order: sorted, the latest one
first, they are put at the front one after the other. -/
def putBack (order : List Delivery) (l : Lane) : Lane :=
  { l with
    ready := (order.mergeSort fun a b => Lane.idLE b a).foldl
      (fun ready d => { d with redelivered := true } :: ready) l.ready
    pending := [] }

/-- The broker that has lost its connection, when the pending messages of each queue are gone
through in some order. -/
def lost (orders : String → List Delivery) (b : MemoryBroker) : MemoryBroker :=
  { b with
    connected := false
    lanes := b.lanes.map fun (queue, l) => (queue, putBack (orders queue) l) }

/-! ## Ids -/

theorem toList_idOf (n : Nat) : (idOf n).toList = padded 20 n := by
  rw [idOf, String.toList_ofList, padded]

/-- Ids are in the order of their numbers, while these have no more than twenty digits. -/
theorem idOf_lt_idOf {m n : Nat} (h : m < n) (fits : n < 10 ^ 20) : idOf m < idOf n := by
  rw [String.lt_iff_toList_lt, toList_idOf, toList_idOf]
  refine lt_of_ofDigitChars_lt (isDigit_padded 20 m) (isDigit_padded 20 n) ?_ ?_
  · rw [length_padded (by decide) (h.trans fits), length_padded (by decide) fits]
  · rwa [ofDigitChars_padded, ofDigitChars_padded]

section

variable {before deeds : List Deed} {deed : Deed} {queue : String} {l : Lane} {m m' : Delivery}

theorem length_posted (deeds : List Deed) : (posted deeds).length = (broker deeds).published := by
  simpa using congrArg List.length (ids_posted deeds)

theorem before_of_lt {i j : Nat} (hi : i < (broker deeds).published)
    (hj : j < (broker deeds).published) (hm : m.id = idOf (i + 1)) (hm' : m'.id = idOf (j + 1))
    (h : i < j) : Before deeds m m' := by
  have hpair : [j, i].Sublist (List.range (broker deeds).published).reverse := by
    have hnodup : [j, i].Nodup := by simpa using h.ne'
    refine List.sublist_of_subperm_of_pairwise (r := (· ≥ ·))
      (List.subperm_of_subset hnodup ?_) ?_ ?_
    · simp [hi, hj]
    · simpa using h.le
    · exact List.pairwise_reverse.2 (List.pairwise_lt_range.imp Nat.le_of_lt)
  rw [Before, ids_posted, hm, hm']
  exact hpair.map fun n => idOf (n + 1)

/-- Of two published messages, the one with the lesser id was published first. -/
theorem before_of_id_lt (few : (posted deeds).length < twoPow 64)
    (hm : m.id ∈ (posted deeds).map (·.id)) (hm' : m'.id ∈ (posted deeds).map (·.id))
    (h : m.id < m'.id) : Before deeds m m' := by
  rw [ids_posted] at hm hm'
  obtain ⟨i, hi, hid⟩ := List.mem_map.1 hm
  obtain ⟨j, hj, hid'⟩ := List.mem_map.1 hm'
  rw [List.mem_reverse, List.mem_range] at hi hj
  refine before_of_lt hi hj hid.symm hid'.symm ?_
  by_contra hge
  have hfits : i + 1 < 10 ^ 20 := by
    have : twoPow 64 = 18446744073709551616 := rfl
    rw [length_posted] at few
    omega
  rcases Nat.lt_or_eq_of_le (Nat.le_of_not_lt hge) with hlt | rfl
  · have := idOf_lt_idOf (Nat.succ_lt_succ hlt) hfits
    rw [hid, hid'] at this
    exact lt_asymm h this
  · rw [← hid, ← hid'] at h
    exact lt_irrefl _ h

/-! ## What a deed keeps -/

theorem Before.next (h : Before before m m') : Before (deed :: before) m m' := by
  rw [Before, posted_cons, List.map_append]
  exact h.trans (List.sublist_append_right _ _)

/-- A message that is published now comes behind all that were published before. -/
theorem before_new (h : (broker before).posted? deed = some m')
    (hm : m.id ∈ (posted before).map (·.id)) : Before (deed :: before) m m' := by
  rw [Before, posted_cons, h]
  exact (List.singleton_sublist.2 hm).cons_cons m'.id

theorem InOrder.next (h : InOrder before l) : InOrder (deed :: before) l where
  waiting := h.waiting.imp Before.next
  pending_first p hp m hm := (h.pending_first p hp m hm).next

theorem Kept.id_mem (kept : Kept deeds queue l) (hm : m ∈ l.ready ++ l.pending) :
    m.id ∈ (posted deeds).map (·.id) :=
  List.mem_map.2 ⟨original m, (kept.looks m hm).1, rfl⟩

theorem InOrder.publish {body : ByteArray} (h : InOrder before l) (kept : Kept before queue l)
    (posts : (broker before).posted? (.publish queue body) = some m) :
    InOrder (.publish queue body :: before) (l.push m) := by
  have behind : ∀ x ∈ l.ready ++ l.pending, Before (.publish queue body :: before) x m :=
    fun x hx => before_new posts (kept.id_mem hx)
  constructor
  · refine List.pairwise_append.2 ⟨h.next.waiting, List.pairwise_singleton _ _, ?_⟩
    intro x hx y hy
    obtain rfl := List.mem_singleton.1 hy
    exact behind x (List.mem_append_left _ hx)
  · intro p hp x hx
    rcases List.mem_append.1 hx with hx | hx
    · exact h.next.pending_first p hp x hx
    · obtain rfl := List.mem_singleton.1 hx
      exact behind p (List.mem_append_right _ hp)

theorem InOrder.fetch (h : InOrder deeds l) (max : Nat) : InOrder deeds (l.take max).2 := by
  have hsplit := h.waiting
  rw [← List.take_append_drop max l.ready] at hsplit
  obtain ⟨-, hlater, hapart⟩ := List.pairwise_append.1 hsplit
  refine ⟨hlater, fun p hp m hm => ?_⟩
  rcases List.mem_append.1 hp with hp | hp
  · exact h.pending_first p hp m (List.mem_of_mem_drop hm)
  · exact hapart p hp m hm

theorem InOrder.ack (h : InOrder deeds l) (id : String) : InOrder deeds (l.ack id) := by
  unfold Lane.ack
  split
  · exact ⟨h.waiting, fun p hp => h.pending_first p (List.mem_of_mem_filter hp)⟩
  · exact h

theorem idLE_trans (a b c : Delivery) (hab : Lane.idLE a b = true) (hbc : Lane.idLE b c = true) :
    Lane.idLE a c = true := by
  simp only [Lane.idLE, decide_eq_true_eq] at hab hbc ⊢
  exact hab.trans hbc

theorem idLE_total (a b : Delivery) : (Lane.idLE a b || Lane.idLE b a) = true := by
  simpa [Lane.idLE] using le_total a.id b.id

/-- What is put back is sorted by the texts of the ids, which is the order of publication. -/
theorem pairwise_returned (few : (posted deeds).length < twoPow 64) (kept : Kept deeds queue l) :
    ((l.pending.mergeSort Lane.idLE).map fun d => { d with redelivered := true }).Pairwise
      (Before deeds) := by
  have hperm : (l.pending.mergeSort Lane.idLE).Perm l.pending := List.mergeSort_perm _ _
  have hapart : (l.pending.mergeSort Lane.idLE).Pairwise fun a b => a.id ≠ b.id := by
    have hnodup := (List.nodup_append.1 (List.nodup_append.1 kept.nodup).1).2.1
    exact List.pairwise_map.1 ((hperm.map Delivery.id).nodup_iff.2 hnodup)
  have hsorted := (List.pairwise_mergeSort idLE_trans idLE_total l.pending).and hapart
  have hmem : ∀ m ∈ l.pending.mergeSort Lane.idLE, m.id ∈ (posted deeds).map (·.id) :=
    fun m hm => kept.id_mem (List.mem_append_right _ (hperm.subset hm))
  refine List.pairwise_map.2 (hsorted.imp_of_mem fun {a b} ha hb hlt => ?_)
  have hle : a.id ≤ b.id := by simpa [Lane.idLE] using hlt.1
  exact before_of_id_lt few (hmem a ha) (hmem b hb) (lt_of_le_of_ne hle hlt.2)

theorem InOrder.disconnect (few : (posted deeds).length < twoPow 64) (kept : Kept deeds queue l)
    (h : InOrder deeds l) : InOrder deeds l.giveBack := by
  refine ⟨List.pairwise_append.2 ⟨pairwise_returned few kept, h.waiting, ?_⟩, nofun⟩
  intro x hx m hm
  obtain ⟨p, hp, rfl⟩ := List.mem_map.1 hx
  exact h.pending_first p ((List.mergeSort_perm _ _).subset hp) m hm

/-- What one deed keeps. -/
theorem InOrder.after (few : (posted before).length < twoPow 64)
    (h : InOrder before ((broker before).lane queue)) :
    InOrder (deed :: before) ((broker (deed :: before)).lane queue) := by
  have known : Kept before queue ((broker before).lane queue) := kept before queue
  have hchange : Change (broker before) queue deed ((broker (deed :: before)).lane queue) :=
    change _ _ _
  generalize (broker (deed :: before)).lane queue = after at hchange
  cases hchange with
  | none unposted unacked still => exact h.next
  | publish posts => exact h.publish known posts
  | fetch max => exact (h.fetch max).next
  | ack acks here => exact (h.ack _).next
  | disconnect => exact (h.disconnect few known).next

theorem length_posted_le : (posted before).length ≤ (posted (deed :: before)).length := by
  rw [posted_cons, List.length_append]
  exact Nat.le_add_left _ _

/-- What all the deeds keep. -/
theorem inOrder (few : (posted deeds).length < twoPow 64) (queue : String) :
    InOrder deeds ((broker deeds).lane queue) := by
  induction deeds with
  | nil => exact ⟨.nil, nofun⟩
  | cons deed before ih =>
      have hfew := length_posted_le.trans_lt few
      exact (ih hfew).after hfew

/-! ## What comes of the order -/

theorem InOrder.takesOldest (h : InOrder deeds l) (max : Nat) :
    TakesOldest deeds l (l.take max).2 max (l.take max).1 := by
  have hsplit := h.waiting
  rw [← List.take_append_drop max l.ready] at hsplit
  obtain ⟨hfirst, -, hapart⟩ := List.pairwise_append.1 hsplit
  exact ⟨(List.take_append_drop _ _).symm, List.length_take, hfirst, hapart⟩

/-- A fetch over a live connection takes messages off its queue. -/
theorem fetch_of_connected {b : MemoryBroker} (on : b.connected) (queue : String) (max : Nat) :
    b.act? (.fetch queue max) =
      .ok (((b.lane queue).take max).1, b.setLane queue ((b.lane queue).take max).2) := by
  simp [act?, MemoryBroker.fetch, on]

theorem foldl_mark (order ready : List Delivery) :
    order.foldl (fun ready d => { d with redelivered := true } :: ready) ready =
      (order.reverse.map fun d => { d with redelivered := true }) ++ ready := by
  induction order generalizing ready with
  | nil => rfl
  | cons d rest ih => simp [ih]

/-- However the pending messages are gone through, the same is put back. -/
theorem putBack_eq {order : List Delivery} (distinct : (l.pending.map (·.id)).Nodup)
    (perm : order.Perm l.pending) : putBack order l = l.giveBack := by
  have hsorted : (order.mergeSort fun a b => Lane.idLE b a).reverse =
      l.pending.mergeSort Lane.idLE := by
    have hleft : (order.mergeSort fun a b => Lane.idLE b a).reverse.Perm l.pending :=
      (List.reverse_perm _).trans ((List.mergeSort_perm _ _).trans perm)
    have hright : (l.pending.mergeSort Lane.idLE).Perm l.pending := List.mergeSort_perm _ _
    have hdescending := List.pairwise_mergeSort (fun a b c hab hbc => idLE_trans c b a hbc hab)
      (fun a b => idLE_total b a) order
    refine List.Perm.eq_of_pairwise ?_ (List.pairwise_reverse.2 hdescending)
      (List.pairwise_mergeSort idLE_trans idLE_total _) (hleft.trans hright.symm)
    intro a b ha hb hab hba
    simp only [Lane.idLE, decide_eq_true_eq] at hab hba
    exact List.inj_on_of_nodup_map distinct (hleft.subset ha) (hright.subset hb)
      (le_antisymm hab hba)
  rw [putBack, foldl_mark, hsorted, Lane.giveBack]

theorem names_putLane (l : Lane) (lanes : List (String × Lane)) :
    (putLane queue l lanes).map (·.1) =
      if queue ∈ lanes.map (·.1) then lanes.map (·.1) else lanes.map (·.1) ++ [queue] := by
  induction lanes with
  | nil => simp [putLane]
  | cons entry rest ih =>
      obtain ⟨name, old⟩ := entry
      unfold putLane
      by_cases hname : name = queue
      · simp [hname]
      · rw [if_neg hname, List.map_cons, ih, List.map_cons]
        simp only [List.mem_cons, Ne.symm hname, false_or]
        split <;> rfl

/-- A deed changes the messages of one queue, of none, or loses the connection. -/
theorem lanes_after (b : MemoryBroker) (deed : Deed) :
    (b.after deed).lanes = b.lanes ∨ (∃ queue l, (b.after deed).lanes = putLane queue l b.lanes) ∨
      (b.after deed).lanes = b.disconnect.lanes := by
  cases on : b.connected with
  | false =>
      cases call : deed.isCall with
      | true =>
          rw [MemoryBroker.after, (after_of_lost on call).1]
          exact Or.inl rfl
      | false =>
          cases deed with
          | disconnect => exact Or.inr (Or.inr rfl)
          | reconnect => exact Or.inl rfl
          | _ => cases call
  | true =>
      cases deed with
      | disconnect => exact Or.inr (Or.inr rfl)
      | reconnect => exact Or.inl rfl
      | declare q =>
          refine Or.inr (Or.inl ⟨q, b.lane q, ?_⟩)
          simp [MemoryBroker.after, act?, MemoryBroker.declare, on, Except.map, setLane]
      | publish q body =>
          refine Or.inr (Or.inl ⟨q, (b.lane q).push ⟨idOf (b.published + 1), q, body, false⟩, ?_⟩)
          simp [MemoryBroker.after, act?, MemoryBroker.publish, on, Except.map, setLane]
      | fetch q max =>
          refine Or.inr (Or.inl ⟨q, ((b.lane q).take max).2, ?_⟩)
          rw [MemoryBroker.after, fetch_of_connected on]
          rfl
      | ack d =>
          cases held : b.lanes.lookup d.queue with
          | none => simp [MemoryBroker.after, act?, MemoryBroker.ack, on, held, Except.map]
          | some l =>
              refine Or.inr (Or.inl ⟨d.queue, l.ack d.id, ?_⟩)
              simp [MemoryBroker.after, act?, MemoryBroker.ack, on, held, Except.map, setLane]

/-- Each queue is listed once. -/
theorem names_nodup (deeds : List Deed) : ((broker deeds).lanes.map (·.1)).Nodup := by
  induction deeds with
  | nil => exact List.nodup_nil
  | cons deed before ih =>
      rcases lanes_after (broker before) deed with h | ⟨queue, l, h⟩ | h
      · rw [broker, h]
        exact ih
      · rw [broker, h, names_putLane]
        split
        next => exact ih
        next hnew => exact ih.append (List.nodup_singleton _) (by simpa using hnew)
      · rw [broker, h, MemoryBroker.disconnect, List.map_map]
        exact ih

theorem lane_of_mem (nodup : ((broker deeds).lanes.map (·.1)).Nodup)
    (h : (queue, l) ∈ (broker deeds).lanes) : (broker deeds).lane queue = l := by
  obtain ⟨front, rest, hsplit⟩ := List.append_of_mem h
  have hfound : (broker deeds).lanes.lookup queue = some l := by
    refine List.lookup_eq_some_iff.2 ⟨front, rest, hsplit, fun entry hentry => ?_⟩
    rw [hsplit, List.map_append, List.map_cons] at nodup
    have hapart := (List.nodup_append.1 nodup).2.2 entry.1 (List.mem_map_of_mem hentry) queue
      List.mem_cons_self
    simpa using Ne.symm hapart
  rw [lane, hfound, Option.getD_some]

/-- In whatever order the pending messages are gone through when the connection is lost, the broker
is the same afterwards. -/
theorem lost_eq {orders : String → List Delivery}
    (perm : ∀ queue, (orders queue).Perm ((broker deeds).lane queue).pending) :
    lost orders (broker deeds) = (broker deeds).disconnect := by
  have hlanes : ((broker deeds).lanes.map fun (queue, l) => (queue, putBack (orders queue) l)) =
      (broker deeds).lanes.map fun (queue, l) => (queue, l.giveBack) := by
    refine List.map_congr_left fun entry hentry => ?_
    obtain ⟨queue, l⟩ := entry
    have hlane : (broker deeds).lane queue = l := lane_of_mem (names_nodup deeds) hentry
    have hnodup := (List.nodup_append.1 (List.nodup_append.1 (kept deeds queue).nodup).1).2.1
    have hperm := perm queue
    rw [hlane] at hnodup hperm
    exact congrArg (queue, ·) (putBack_eq hnodup hperm)
  rw [lost, hlanes]
  rfl

end

/-- Whatever has been done with a broker to which fewer than `2 ^ 64` messages were published, the
messages that wait on a queue are in the order of publication, and every pending one was published
before all of them. So each fetch over a live connection, whether or not messages were put back
before, returns the oldest of them, the oldest first. And when the connection is lost, it makes no
difference in which order the pending messages are gone through. -/
theorem oldest_first {deeds : List Deed} (few : (posted deeds).length < twoPow 64) :
    (∀ queue, ((broker deeds).lane queue).ready.Pairwise (Before deeds) ∧
      ∀ p ∈ ((broker deeds).lane queue).pending, ∀ m ∈ ((broker deeds).lane queue).ready,
        Before deeds p m) ∧
    (∀ queue max, (broker deeds).connected → ∃ batch b,
      (broker deeds).act? (.fetch queue max) = .ok (batch, b) ∧
        TakesOldest deeds ((broker deeds).lane queue) (b.lane queue) max batch) ∧
    ∀ orders : String → List Delivery,
      (∀ queue, (orders queue).Perm ((broker deeds).lane queue).pending) →
        lost orders (broker deeds) = (broker deeds).disconnect := by
  refine ⟨fun queue => ?_, fun queue max on => ?_, fun orders perm => lost_eq perm⟩
  · obtain ⟨waiting, pending_first⟩ := inOrder few queue
    exact ⟨waiting, pending_first⟩
  · refine ⟨_, _, fetch_of_connected on queue max, ?_⟩
    rw [lane_setLane, if_pos rfl]
    exact (inOrder few queue).takesOldest max

/-! Two messages are fetched, a third one comes in, and the connection is lost and regained. -/

namespace Interrupted

/-- Two messages of the queue are pending and one waits. -/
def held : List Deed :=
  [.publish "payments" "third".toUTF8, .fetch "payments" 2, .publish "payments" "second".toUTF8,
    .publish "other" "apart".toUTF8, .publish "payments" "first".toUTF8]

def deeds : List Deed := .reconnect :: .disconnect :: held

theorem ids_ready : ((broker deeds).lane "payments").ready.map (·.id) =
    [idOf 1, idOf 3, idOf 4] := by
  have hlane : (broker deeds).lane "payments" = ((broker held).lane "payments").giveBack :=
    lane_disconnect
  have hsorted : ((broker held).lane "payments").pending.Pairwise fun a b => Lane.idLE a b := by
    decide +kernel
  rw [hlane, Lane.giveBack, List.mergeSort_of_pairwise hsorted]
  decide +kernel

/-- The pending messages with the latest one first. -/
def backwards (queue : String) : List Delivery := ((broker held).lane queue).pending.reverse

end Interrupted

open Interrupted in
theorem oldest_first_after_disconnect :
    (posted deeds).length < twoPow 64 ∧ (posted held).length < twoPow 64 ∧
    (∃ batch b, (broker deeds).act? (.fetch "payments" 2) = .ok (batch, b) ∧
      batch.map (·.id) = [idOf 1, idOf 3] ∧ batch.Pairwise (Before deeds)) ∧
    lost backwards (broker held) = (broker held).disconnect := by
  have few : (posted deeds).length < twoPow 64 := by decide +kernel
  have few' : (posted held).length < twoPow 64 := by decide +kernel
  obtain ⟨-, fetches, -⟩ := oldest_first few
  obtain ⟨-, -, same⟩ := oldest_first few'
  obtain ⟨batch, b, hact, takes⟩ := fetches "payments" 2 rfl
  have hready := ids_ready
  have hlength : ((broker deeds).lane "payments").ready.length = 3 := by
    simpa using congrArg List.length hready
  have hcount : (batch.map (·.id)).length = 2 := by
    rw [List.length_map, takes.full, hlength]
    rfl
  rw [takes.front, List.map_append] at hready
  have hids : batch.map (·.id) = [idOf 1, idOf 3] := (List.append_inj hready hcount).1
  exact ⟨few, few', ⟨batch, b, hact, hids, takes.inOrder⟩,
    same backwards fun queue => List.reverse_perm _⟩

end Settlement.MemoryBroker
