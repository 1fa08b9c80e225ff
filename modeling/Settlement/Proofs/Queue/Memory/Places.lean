import Mathlib.Data.List.Nodup
import Mathlib.Data.List.Perm.Basic
import Settlement.Proofs.Queue.Memory.Deeds

/-!
# Where the messages of a broker in memory are

A message that was published waits on its queue, is pending, or was acknowledged, and it is in one
of these places only, whatever is done with the broker. `Kept` says so for one queue as a
permutation of ids, together with what a message that waits or is pending still looks like; each
deed keeps it (`Kept.next`), case by case along `change`. `message_in_one_place` puts the queues
together.
-/

namespace Settlement.MemoryBroker

open Queue

/-- A message as it was published. -/
def original (m : Delivery) : Delivery := { m with redelivered := false }

/-- In how many places of a queue an id is: among those that wait, that are pending, and that were
acknowledged. -/
def places (deeds : List Deed) (queue id : String) : Nat :=
  (((broker deeds).lane queue).ready.map (·.id)).count id +
    (((broker deeds).lane queue).pending.map (·.id)).count id + (acks queue deeds).count id

/-- The messages that were published on a queue, latest first. -/
def postedOn (queue : String) (deeds : List Deed) : List Delivery :=
  (posted deeds).filter (·.queue == queue)

/-- What a message that waits or is pending on a queue looks like: as it was published there, and
marked if the connection was lost while it was pending. -/
def Looks (deeds : List Deed) (queue : String) (m : Delivery) : Prop :=
  original m ∈ posted deeds ∧ m.queue = queue ∧ (m.redelivered = true ↔ Dropped deeds queue m.id)

/-- What holds of a queue and its messages. -/
structure Kept (deeds : List Deed) (queue : String) (l : Lane) : Prop where
  placed : (l.ready.map (·.id) ++ l.pending.map (·.id) ++ acks queue deeds).Perm
    ((postedOn queue deeds).map (·.id))
  counted : l.acked = (acks queue deeds).length
  looks : ∀ m ∈ l.ready ++ l.pending, Looks deeds queue m
  dropped : ∀ id, Dropped deeds queue id → id ∈ (posted deeds).map (·.id)

section

variable {before : List Deed} {deed : Deed} {queue : String} {l : Lane}

theorem posted_cons : posted (deed :: before) =
    ((broker before).posted? deed).toList ++ posted before := by
  cases h : (broker before).posted? deed <;> simp [posted, moments, h]

theorem postedOn_cons {m : Delivery} (h : (broker before).posted? deed = some m)
    (here : m.queue = queue) : postedOn queue (deed :: before) = m :: postedOn queue before := by
  simp [postedOn, posted_cons, h, here]

theorem postedOn_of_unposted
    (unposted : ∀ m, (broker before).posted? deed = some m → m.queue ≠ queue) :
    postedOn queue (deed :: before) = postedOn queue before := by
  cases h : (broker before).posted? deed with
  | none => simp [postedOn, posted_cons, h]
  | some m => simp [postedOn, posted_cons, h, unposted m h]

theorem acks_cons {d : Delivery} (h : (broker before).acked? deed = some d)
    (here : d.queue = queue) : acks queue (deed :: before) = d.id :: acks queue before := by
  simp [acks, moments, h, here]

theorem acks_of_unacked
    (unacked : ∀ d, (broker before).acked? deed = some d → d.queue ≠ queue) :
    acks queue (deed :: before) = acks queue before := by
  cases h : (broker before).acked? deed with
  | none => simp [acks, moments, h]
  | some d => simp [acks, moments, h, unacked d h]

theorem dropped_cons {id : String} : Dropped (deed :: before) queue id ↔
    (deed = .disconnect ∧ ∃ m ∈ ((broker before).lane queue).pending, m.id = id) ∨
      Dropped before queue id := by
  constructor
  · rintro ⟨b, hb, m, hm, rfl⟩
    rcases List.mem_cons.1 hb with heq | hb
    · obtain ⟨rfl, rfl⟩ := Prod.mk.inj heq
      exact Or.inl ⟨rfl, m, hm, rfl⟩
    · exact Or.inr ⟨b, hb, m, hm, rfl⟩
  · rintro (⟨rfl, m, hm, rfl⟩ | ⟨b, hb, m, hm, rfl⟩)
    · exact ⟨_, List.mem_cons_self, m, hm, rfl⟩
    · exact ⟨b, List.mem_cons_of_mem _ hb, m, hm, rfl⟩

theorem dropped_of_kept (kept : deed ≠ .disconnect) {id : String} :
    Dropped (deed :: before) queue id ↔ Dropped before queue id := by
  rw [dropped_cons]
  simp [kept]

theorem posted?_eq_some {b : MemoryBroker} {m : Delivery} (h : b.posted? deed = some m) :
    m.id = idOf (b.published + 1) ∧ m.redelivered = false ∧
      (b.after deed).published = b.published + 1 := by
  cases deed with
  | publish queue body =>
      simp only [posted?] at h
      split at h
      next next hok =>
        have on : b.connected := by
          by_contra off
          simp [MemoryBroker.publish, off] at hok
        obtain rfl := Option.some.inj h
        simp [after, act?, MemoryBroker.publish, on, Except.map]
      next => cases h
  | _ => cases h

theorem posted?_queue {b : MemoryBroker} {body : ByteArray} {m : Delivery}
    (h : b.posted? (.publish queue body) = some m) : m.queue = queue := by
  simp only [posted?] at h
  split at h
  next => exact Option.some.inj h ▸ rfl
  next => cases h

theorem acked?_held {b : MemoryBroker} {d : Delivery} (h : b.acked? (.ack d) = some d)
    (here : d.queue = queue) : (b.lane queue).pending.any (·.id == d.id) := by
  subst here
  simp only [acked?] at h
  split at h
  next hheld => exact (Bool.and_eq_true_iff.1 hheld).2
  next => cases h

theorem published_of_unposted {b : MemoryBroker} (h : b.posted? deed = none) :
    (b.after deed).published = b.published := by
  cases on : b.connected with
  | false =>
      cases call : deed.isCall with
      | true => rw [after, (after_of_lost on call).1]
      | false => cases deed <;> first | rfl | cases call
  | true =>
      cases deed with
      | publish queue body => simp [posted?, MemoryBroker.publish, on] at h
      | declare queue => simp [after, act?, MemoryBroker.declare, on, Except.map, setLane]
      | fetch queue max => simp [after, act?, MemoryBroker.fetch, on, setLane]
      | ack d =>
          cases held : b.lanes.lookup d.queue <;>
            simp [after, act?, MemoryBroker.ack, on, held, Except.map, setLane]
      | disconnect => rfl
      | reconnect => rfl

/-- The messages are numbered in the order of their publication. -/
theorem ids_posted (deeds : List Deed) : (posted deeds).map (·.id) =
    (List.range (broker deeds).published).reverse.map fun n => idOf (n + 1) := by
  induction deeds with
  | nil => rfl
  | cons deed before ih =>
      rw [posted_cons]
      cases h : (broker before).posted? deed with
      | none => simpa [broker, published_of_unposted h] using ih
      | some m =>
          obtain ⟨hid, -, hnext⟩ := posted?_eq_some h
          simp [broker, hnext, List.range_succ, hid, ih]

theorem ids_nodup (deeds : List Deed) : ((posted deeds).map (·.id)).Nodup := by
  rw [ids_posted]
  refine (List.nodup_reverse.2 List.nodup_range).map ?_
  exact fun m n h => Nat.succ.inj (idOf_injective h)

/-- The ids of a queue are all different, wherever they are. -/
theorem Kept.nodup (kept : Kept before queue l) :
    (l.ready.map (·.id) ++ l.pending.map (·.id) ++ acks queue before).Nodup :=
  kept.placed.nodup_iff.2 ((ids_nodup before).sublist (List.filter_sublist.map _))

theorem posted_subset : posted before ⊆ posted (deed :: before) := by
  rw [posted_cons]
  exact List.subset_append_right _ _

theorem Looks.next {m : Delivery} (looks : Looks before queue m) (kept : deed ≠ .disconnect) :
    Looks (deed :: before) queue m := by
  obtain ⟨hposted, hqueue, hmark⟩ := looks
  exact ⟨posted_subset hposted, hqueue, hmark.trans (dropped_of_kept kept).symm⟩

theorem Kept.dropped_next (kept : Kept before queue l) (still : deed ≠ .disconnect) (id : String)
    (h : Dropped (deed :: before) queue id) : id ∈ (posted (deed :: before)).map (·.id) :=
  List.map_subset _ posted_subset (kept.dropped id ((dropped_of_kept still).1 h))

/-- Nothing happens to the queue. -/
theorem Kept.none (kept : Kept before queue l) (still : deed ≠ .disconnect)
    (unposted : ∀ m, (broker before).posted? deed = some m → m.queue ≠ queue)
    (unacked : ∀ d, (broker before).acked? deed = some d → d.queue ≠ queue) :
    Kept (deed :: before) queue l where
  placed := by
    rw [postedOn_of_unposted unposted, acks_of_unacked unacked]
    exact kept.placed
  counted := by
    rw [acks_of_unacked unacked]
    exact kept.counted
  looks m hm := (kept.looks m hm).next still
  dropped := kept.dropped_next still

/-- A message that is published has an id of its own, so nothing was said of it before. -/
theorem Kept.publish {body : ByteArray} {m : Delivery} (kept : Kept before queue l)
    (h : (broker before).posted? (.publish queue body) = some m) :
    Kept (.publish queue body :: before) queue (l.push m) := by
  have hqueue : m.queue = queue := posted?_queue h
  have unacked : acks queue (.publish queue body :: before) = acks queue before :=
    acks_of_unacked nofun
  have hnew : m.id ∉ (posted before).map (·.id) := by
    have hnodup := ids_nodup (.publish queue body :: before)
    rw [posted_cons, h] at hnodup
    exact (List.nodup_cons.1 hnodup).1
  constructor
  · rw [postedOn_cons h hqueue, unacked]
    simp only [Lane.push, List.map_append, List.map_cons, List.map_nil, List.append_assoc,
      List.singleton_append]
    refine List.perm_middle.trans (List.Perm.cons _ ?_)
    exact List.append_assoc _ _ _ ▸ kept.placed
  · rw [unacked]
    exact kept.counted
  · intro x hx
    have hx' : x = m ∨ x ∈ l.ready ++ l.pending := by
      simp only [Lane.push, List.mem_append, List.mem_singleton] at hx ⊢
      tauto
    rcases hx' with rfl | hx'
    · have hfresh : x.redelivered = false := (posted?_eq_some h).2.1
      have still : Deed.publish queue body ≠ .disconnect := nofun
      refine ⟨?_, hqueue, ?_⟩
      · rw [posted_cons, h]
        simp [original, ← hfresh]
      · rw [dropped_of_kept still]
        simp only [hfresh, Bool.false_eq_true, false_iff]
        exact fun hdropped => hnew (kept.dropped _ hdropped)
    · exact (kept.looks x hx').next nofun
  · exact kept.dropped_next nofun

/-- A fetch moves messages from the front. -/
theorem Kept.fetch (kept : Kept before queue l) (max : Nat) :
    Kept (.fetch queue max :: before) queue (l.take max).2 := by
  have still : Kept (.fetch queue max :: before) queue l := kept.none nofun nofun nofun
  have hmoved : (l.ready.drop max ++ (l.pending ++ l.ready.take max)).Perm
      (l.ready ++ l.pending) := by
    calc l.ready.drop max ++ (l.pending ++ l.ready.take max)
        = (l.ready.drop max ++ l.pending) ++ l.ready.take max := (List.append_assoc _ _ _).symm
      _ |>.Perm (l.ready.take max ++ (l.ready.drop max ++ l.pending)) := List.perm_append_comm
      _ = l.ready ++ l.pending := by rw [← List.append_assoc, List.take_append_drop]
  constructor
  · refine (List.Perm.append_right _ ?_).trans still.placed
    rw [← List.map_append, ← List.map_append]
    exact hmoved.map _
  · exact still.counted
  · exact fun m hm => still.looks m (hmoved.subset hm)
  · exact still.dropped

/-- An acknowledgement takes the one pending message of its id. -/
theorem Kept.ack {d : Delivery} (kept : Kept before queue ((broker before).lane queue))
    (h : (broker before).acked? (.ack d) = some d) (here : d.queue = queue) :
    Kept (.ack d :: before) queue (((broker before).lane queue).ack d.id) := by
  have held : ((broker before).lane queue).pending.any (·.id == d.id) := acked?_held h here
  generalize (broker before).lane queue = l at kept held
  have hpending : d.id ∈ l.pending.map (·.id) := by
    obtain ⟨m, hm, hid⟩ := List.any_eq_true.1 held
    exact List.mem_map.2 ⟨m, hm, eq_of_beq hid⟩
  have hnodup : (l.pending.map (·.id)).Nodup :=
    (List.nodup_append.1 (List.nodup_append.1 kept.nodup).1).2.1
  have hrest : (l.pending.filter (·.id != d.id)).map (·.id) =
      (l.pending.map (·.id)).erase d.id := by
    rw [hnodup.erase_eq_filter, List.filter_map]
    rfl
  have unposted : postedOn queue (.ack d :: before) = postedOn queue before :=
    postedOn_of_unposted fun m posted => by cases posted
  have still : Deed.ack d ≠ .disconnect := by simp
  rw [Lane.ack, if_pos held]
  constructor
  · rw [unposted, acks_cons h here]
    refine List.Perm.trans ?_ kept.placed
    simp only [hrest, List.append_assoc]
    refine List.Perm.append_left _ ?_
    exact List.perm_middle.trans ((List.perm_cons_erase hpending).symm.append_right _)
  · rw [acks_cons h here, List.length_cons, kept.counted]
  · intro m hm
    refine (kept.looks m ?_).next still
    simp only [List.mem_append, List.mem_filter] at hm ⊢
    tauto
  · exact kept.dropped_next still

theorem dropped_disconnect {id : String} : Dropped (.disconnect :: before) queue id ↔
    id ∈ ((broker before).lane queue).pending.map (·.id) ∨ Dropped before queue id := by
  rw [dropped_cons]
  simp

/-- When the connection is lost, what is pending goes back and is marked. -/
theorem Kept.disconnect (kept : Kept before queue ((broker before).lane queue)) :
    Kept (.disconnect :: before) queue ((broker before).lane queue).giveBack := by
  have unposted : postedOn queue (.disconnect :: before) = postedOn queue before :=
    postedOn_of_unposted nofun
  have unacked : acks queue (.disconnect :: before) = acks queue before := acks_of_unacked nofun
  have hlost : ∀ id, Dropped (.disconnect :: before) queue id ↔
      id ∈ ((broker before).lane queue).pending.map (·.id) ∨ Dropped before queue id :=
    fun id => dropped_disconnect
  generalize (broker before).lane queue = l at kept hlost
  have hsorted : (l.pending.mergeSort Lane.idLE).Perm l.pending := List.mergeSort_perm _ _
  constructor
  · rw [unposted, unacked]
    refine List.Perm.trans (List.Perm.append_right _ ?_) kept.placed
    simp only [Lane.giveBack, List.map_append, List.map_map, List.map_nil, List.append_nil]
    exact (List.perm_append_comm).trans (List.Perm.append_left _ (hsorted.map _))
  · rw [unacked]
    exact kept.counted
  · intro m hm
    simp only [Lane.giveBack, List.append_nil, List.mem_append, List.mem_map] at hm
    rcases hm with ⟨p, hp, rfl⟩ | hm
    · have hmem : p ∈ l.pending := hsorted.subset hp
      obtain ⟨hposted, hqueue, -⟩ := kept.looks p (List.mem_append_right _ hmem)
      refine ⟨posted_subset hposted, hqueue, ?_⟩
      simpa using (hlost p.id).2 (Or.inl (List.mem_map_of_mem hmem))
    · obtain ⟨hposted, hqueue, hmark⟩ := kept.looks m (List.mem_append_left _ hm)
      refine ⟨posted_subset hposted, hqueue, hmark.trans ⟨fun h => (hlost _).2 (Or.inr h), ?_⟩⟩
      intro h
      rcases (hlost _).1 h with hpending | hbefore
      · -- a message that waits is not pending
        have hapart := (List.nodup_append.1 (List.nodup_append.1 kept.nodup).1).2.2
        exact absurd rfl (hapart _ (List.mem_map_of_mem hm) _ hpending)
      · exact hbefore
  · intro id h
    refine List.map_subset _ posted_subset ?_
    rcases (hlost id).1 h with hpending | hbefore
    · obtain ⟨p, hp, rfl⟩ := List.mem_map.1 hpending
      exact List.mem_map.2 ⟨original p, (kept.looks p (List.mem_append_right _ hp)).1, rfl⟩
    · exact kept.dropped id hbefore

/-- What one deed keeps. -/
theorem Kept.next (kept : Kept before queue ((broker before).lane queue)) :
    Kept (deed :: before) queue ((broker (deed :: before)).lane queue) := by
  have hchange : Change (broker before) queue deed ((broker (deed :: before)).lane queue) :=
    change _ _ _
  generalize (broker (deed :: before)).lane queue = after at hchange
  cases hchange with
  | none unposted unacked still => exact kept.none still unposted unacked
  | publish h => exact kept.publish h
  | fetch max => exact kept.fetch max
  | ack h here => exact kept.ack h here
  | disconnect => exact kept.disconnect

/-- What all the deeds keep. -/
theorem kept (deeds : List Deed) (queue : String) :
    Kept deeds queue ((broker deeds).lane queue) := by
  induction deeds with
  | nil => exact ⟨.nil, rfl, nofun, nofun⟩
  | cons deed before ih => exact ih.next

/-- In its own queue the id of a message is in one place, in every other queue in none. -/
theorem places_eq {deeds : List Deed} (kept : Kept deeds queue ((broker deeds).lane queue))
    {m : Delivery} (hm : m ∈ posted deeds) :
    places deeds queue m.id = if m.queue = queue then 1 else 0 := by
  have hcount : places deeds queue m.id = ((postedOn queue deeds).map (·.id)).count m.id := by
    rw [← kept.placed.count_eq, List.count_append, List.count_append]
    rfl
  rw [hcount]
  have hnodup : ((postedOn queue deeds).map (·.id)).Nodup :=
    (ids_nodup deeds).sublist (List.filter_sublist.map _)
  split
  next h =>
    refine List.count_eq_one_of_mem hnodup (List.mem_map_of_mem ?_)
    exact List.mem_filter.2 ⟨hm, beq_iff_eq.2 h⟩
  next h =>
    -- an id names one message, and this one is on another queue
    refine List.count_eq_zero.2 fun hid => h ?_
    obtain ⟨x, hx, hxid⟩ := List.mem_map.1 hid
    obtain ⟨hxposted, hxqueue⟩ := List.mem_filter.1 hx
    have hsame : x = m := List.inj_on_of_nodup_map (ids_nodup deeds) hxposted hm hxid
    exact hsame ▸ eq_of_beq hxqueue

/-- A call fails only while the connection is lost. -/
theorem lost_of_error {b : MemoryBroker} {e : QueueError} (h : b.act? deed = .error e) :
    e = .reconnect ∧ deed.isCall ∧ b.connected = false := by
  cases call : deed.isCall with
  | false => cases deed <;> first | cases h | cases call
  | true =>
      cases on : b.connected with
      | false => exact ⟨Except.error.inj (h.symm.trans (after_of_lost on call).1), rfl, rfl⟩
      | true =>
          cases deed with
          | ack d =>
              cases held : b.lanes.lookup d.queue <;>
                simp [act?, MemoryBroker.ack, on, held, Except.map] at h
          | declare queue => simp [act?, MemoryBroker.declare, on, Except.map] at h
          | publish queue body => simp [act?, MemoryBroker.publish, on, Except.map] at h
          | fetch queue max => simp [act?, MemoryBroker.fetch, on] at h
          | disconnect => cases h
          | reconnect => cases h

end

/-- Whatever is done with a broker, no message is lost, doubled or counted twice. The messages that
wait, that are pending and that were acknowledged are together as many as were published on the
queue; every message has an id of its own, and this is in one place of its own queue and nowhere
else; what waits or is pending is as it was published, and is marked for redelivery if and only if
the connection was lost while it was pending; only an acknowledgement of a pending message over a
live connection counts, and none counts twice; and a deed that fails is a call over a lost
connection and changes nothing. -/
theorem message_in_one_place (deeds : List Deed) :
    (∀ queue, ((broker deeds).lane queue).ready.length +
      ((broker deeds).lane queue).pending.length + ((broker deeds).lane queue).acked =
        (postedOn queue deeds).length) ∧
    ((posted deeds).map (·.id)).Nodup ∧
    (∀ m ∈ posted deeds, ∀ queue, places deeds queue m.id = if m.queue = queue then 1 else 0) ∧
    (∀ queue, ∀ m ∈ ((broker deeds).lane queue).ready ++ ((broker deeds).lane queue).pending,
      original m ∈ posted deeds ∧ m.queue = queue ∧
        (m.redelivered = true ↔ Dropped deeds queue m.id)) ∧
    (∀ queue, ((broker deeds).lane queue).acked = (acks queue deeds).length ∧
      (acks queue deeds).Nodup) ∧
    ∀ deed e, (broker deeds).act? deed = .error e →
      e = .reconnect ∧ deed.isCall ∧ (broker deeds).connected = false ∧
        (broker deeds).after deed = broker deeds := by
  refine ⟨?_, ids_nodup deeds, ?_, ?_, ?_, ?_⟩
  · intro queue
    have hplaced := (kept deeds queue).placed.length_eq
    simp only [List.length_append, List.length_map] at hplaced
    rw [(kept deeds queue).counted, hplaced]
  · intro m hm queue
    exact places_eq (kept deeds queue) hm
  · exact fun queue => (kept deeds queue).looks
  · intro queue
    exact ⟨(kept deeds queue).counted, (List.nodup_append.1 (kept deeds queue).nodup).2.1⟩
  · intro deed e h
    obtain ⟨he, hcall, hlost⟩ := lost_of_error h
    refine ⟨he, hcall, hlost, ?_⟩
    rw [after, h]

end Settlement.MemoryBroker
