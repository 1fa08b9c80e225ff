import Mathlib.Data.List.Basic
import Settlement.Queue.Memory

/-!
# What is done with a broker in memory

A broker is declared to, published to, fetched from, told of acknowledgements, and loses and regains
its connection: one `Deed` after the other, in any order. `broker deeds` is what the deeds, latest
first, make of a new broker, and `moments deeds` are the brokers that they were done to. A fetch
that waits is a row of deeds: it looks for messages whenever something has happened, and each look
is a fetch of its own.

`change` says once what a deed comes to for the messages of one queue.
-/

namespace Settlement.MemoryBroker

open Queue

/-- Something that is done with a broker. -/
inductive Deed where
  | declare (queue : String)
  | publish (queue : String) (body : ByteArray)
  | fetch (queue : String) (max : Nat)
  | ack (d : Delivery)
  | disconnect
  | reconnect

namespace Deed

/-- Losing and regaining the connection are no calls, and never fail. -/
def isCall : Deed → Bool
  | disconnect => false
  | reconnect => false
  | _ => true

end Deed

/-- What comes of a deed: the messages that it fetched and the broker after it, or a failure. -/
def act? (b : MemoryBroker) : Deed → Except QueueError (List Delivery × MemoryBroker)
  | .declare queue => (b.declare queue).map fun b => ([], b)
  | .publish queue body => (b.publish queue body).map fun b => ([], b)
  | .fetch queue max => b.fetch queue max
  | .ack d => (b.ack d).map fun b => ([], b)
  | .disconnect => .ok ([], b.disconnect)
  | .reconnect => .ok ([], b.reconnect)

/-- The broker after a deed; a failure leaves nothing else behind. -/
def after (b : MemoryBroker) (deed : Deed) : MemoryBroker :=
  match b.act? deed with
  | .ok (_, b) => b
  | .error _ => b

/-- A new broker after the deeds, latest first. -/
def broker : List Deed → MemoryBroker
  | [] => .empty
  | deed :: before => (broker before).after deed

/-- The deeds, latest first, each with the broker that it was done to. -/
def moments : List Deed → List (MemoryBroker × Deed)
  | [] => []
  | deed :: before => (broker before, deed) :: moments before

/-- The message that a deed publishes, if it does: the call goes through. -/
def posted? (b : MemoryBroker) : Deed → Option Delivery
  | .publish queue body =>
    match b.publish queue body with
    | .ok _ => some ⟨idOf (b.published + 1), queue, body, false⟩
    | .error _ => none
  | _ => none

/-- The message that a deed takes off its queue, if it does: the broker is connected and the message
is pending. -/
def acked? (b : MemoryBroker) : Deed → Option Delivery
  | .ack d => if b.connected && (b.lane d.queue).pending.any (·.id == d.id) then some d else none
  | _ => none

/-- The messages that were published, latest first. -/
def posted (deeds : List Deed) : List Delivery :=
  (moments deeds).filterMap fun moment => moment.1.posted? moment.2

/-- The ids that were taken off a queue by acknowledgements, latest first. -/
def acks (queue : String) (deeds : List Deed) : List String :=
  (((moments deeds).filterMap fun moment => moment.1.acked? moment.2).filter
    (·.queue == queue)).map (·.id)

/-- The connection was lost while the message was pending. -/
def Dropped (deeds : List Deed) (queue id : String) : Prop :=
  ∃ b, (b, Deed.disconnect) ∈ moments deeds ∧ ∃ m ∈ (b.lane queue).pending, m.id = id

/-- The number in an id. -/
theorem ofDigitChars_idOf (n : Nat) : Nat.ofDigitChars 10 (idOf n).toList 0 = n := by
  simp [idOf, Nat.ofDigitChars_append]

theorem idOf_injective : Function.Injective idOf := by
  intro m n h
  rw [← ofDigitChars_idOf m, ← ofDigitChars_idOf n, h]

section

variable {b : MemoryBroker} {queue : String}

theorem lookup_putLane (l : Lane) (lanes : List (String × Lane)) (other : String) :
    (putLane queue l lanes).lookup other =
      if other = queue then some l else lanes.lookup other := by
  induction lanes with
  | nil =>
      by_cases h : other = queue
      · simp [putLane, h]
      · simp [putLane, h, List.lookup_cons, beq_false_of_ne h]
  | cons entry rest ih =>
      obtain ⟨name, old⟩ := entry
      unfold putLane
      by_cases hname : name = queue
      · subst hname
        by_cases h : other = name
        · simp [h]
        · simp [h, List.lookup_cons, beq_false_of_ne h]
      · rw [if_neg hname, List.lookup_cons, List.lookup_cons, ih]
        by_cases h : other = name
        · simp [h, hname]
        · simp [beq_false_of_ne h]

theorem lane_setLane (l : Lane) (other : String) :
    (b.setLane queue l).lane other = if other = queue then l else b.lane other := by
  unfold lane setLane
  rw [lookup_putLane]
  split <;> rfl

theorem lookup_map (f : Lane → Lane) (lanes : List (String × Lane)) :
    (lanes.map fun entry => (entry.1, f entry.2)).lookup queue = (lanes.lookup queue).map f := by
  induction lanes with
  | nil => rfl
  | cons entry rest ih =>
      rw [List.map_cons, List.lookup_cons, List.lookup_cons, ih]
      cases queue == entry.1 <;> rfl

theorem giveBack_empty : Lane.empty.giveBack = .empty := by
  simp [Lane.giveBack, Lane.empty]

theorem lane_disconnect : b.disconnect.lane queue = (b.lane queue).giveBack := by
  change (((b.lanes.map fun entry => (entry.1, entry.2.giveBack)).lookup queue).getD .empty) = _
  rw [lookup_map, lane]
  cases b.lanes.lookup queue with
  | none => exact giveBack_empty.symm
  | some l => rfl

/-- What a deed comes to for the messages of a queue. -/
inductive Change (b : MemoryBroker) (queue : String) : Deed → Lane → Prop
  | none {deed : Deed} (unposted : ∀ m, b.posted? deed = some m → m.queue ≠ queue)
      (unacked : ∀ d, b.acked? deed = some d → d.queue ≠ queue) (kept : deed ≠ .disconnect) :
      Change b queue deed (b.lane queue)
  | publish {body : ByteArray} {m : Delivery} (h : b.posted? (.publish queue body) = some m) :
      Change b queue (.publish queue body) ((b.lane queue).push m)
  | fetch (max : Nat) : Change b queue (.fetch queue max) ((b.lane queue).take max).2
  | ack {d : Delivery} (h : b.acked? (.ack d) = some d) (here : d.queue = queue) :
      Change b queue (.ack d) ((b.lane queue).ack d.id)
  | disconnect : Change b queue .disconnect (b.lane queue).giveBack

/-- A deed that posts nothing and acknowledges nothing. -/
theorem Change.idle {deed : Deed} {l : Lane} (h : l = b.lane queue)
    (unposted : b.posted? deed = Option.none) (unacked : b.acked? deed = Option.none)
    (kept : deed ≠ .disconnect) : Change b queue deed l := by
  subst h
  exact .none (by simp [unposted]) (by simp [unacked]) kept

/-- While the connection is lost a call does nothing. -/
theorem after_of_lost (lost : b.connected = false) {deed : Deed} (call : deed.isCall) :
    b.act? deed = .error .reconnect ∧ b.posted? deed = none ∧ b.acked? deed = none := by
  cases deed with
  | declare q => simp [act?, MemoryBroker.declare, posted?, acked?, lost, Except.map]
  | publish q body => simp [act?, MemoryBroker.publish, posted?, acked?, lost, Except.map]
  | fetch q max => simp [act?, MemoryBroker.fetch, posted?, acked?, lost]
  | ack d => simp [act?, MemoryBroker.ack, posted?, acked?, lost, Except.map]
  | disconnect => cases call
  | reconnect => cases call

theorem lane_declare (on : b.connected) (q : String) :
    (b.after (.declare q)).lane queue = b.lane queue := by
  simp only [after, act?, MemoryBroker.declare, on, if_true, Except.map, lane_setLane]
  split
  next h => rw [h]
  next => rfl

theorem lane_publish (on : b.connected) (q : String) (body : ByteArray) :
    (b.after (.publish q body)).lane queue =
      if queue = q then (b.lane q).push ⟨idOf (b.published + 1), q, body, false⟩
      else b.lane queue := by
  simp only [after, act?, MemoryBroker.publish, on, if_true, Except.map]
  exact lane_setLane _ _

theorem lane_fetch (on : b.connected) (q : String) (max : Nat) :
    (b.after (.fetch q max)).lane queue =
      if queue = q then ((b.lane q).take max).2 else b.lane queue := by
  simp only [after, act?, MemoryBroker.fetch, on, if_true, lane_setLane]

theorem lane_ack (on : b.connected) (d : Delivery) :
    (b.after (.ack d)).lane queue =
      if queue = d.queue then (b.lane d.queue).ack d.id else b.lane queue := by
  simp only [after, act?, MemoryBroker.ack, on, if_true]
  cases hl : b.lanes.lookup d.queue with
  | some l =>
      have hlane : b.lane d.queue = l := by rw [lane, hl]; rfl
      simp only [Except.map, lane_setLane, hlane]
  | none =>
      -- nothing is pending on a queue that was not declared
      have hempty : b.lane d.queue = .empty := by rw [lane, hl]; rfl
      simp only [Except.map, hempty]
      split
      next h => rw [h, hempty]; rfl
      next => rfl

/-- While the broker is connected a call goes through. -/
theorem change_of_connected (on : b.connected) {deed : Deed} (call : deed.isCall) :
    Change b queue deed ((b.after deed).lane queue) := by
  cases deed with
  | declare q => exact .idle (lane_declare on q) rfl rfl nofun
  | publish q body =>
      have hposted : b.posted? (.publish q body) =
          some ⟨idOf (b.published + 1), q, body, false⟩ := by
        simp [posted?, MemoryBroker.publish, on]
      rw [lane_publish on]
      split
      next h =>
        subst h
        exact .publish hposted
      next h =>
        refine .none ?_ nofun nofun
        rintro m hm
        exact Option.some.inj (hposted.symm.trans hm) ▸ Ne.symm h
  | fetch q max =>
      rw [lane_fetch on]
      split
      next h =>
        subst h
        exact .fetch max
      next => exact .idle rfl rfl rfl nofun
  | ack d =>
      rw [lane_ack on]
      cases held : (b.lane d.queue).pending.any (·.id == d.id) with
      | true =>
          have hacked : b.acked? (.ack d) = some d := by simp [acked?, on, held]
          split
          next h =>
            subst h
            exact .ack hacked rfl
          next h =>
            refine .none nofun ?_ nofun
            rintro d' hd'
            exact Option.some.inj (hacked.symm.trans hd') ▸ Ne.symm h
      | false =>
          have hsame : (b.lane d.queue).ack d.id = b.lane d.queue := by simp [Lane.ack, held]
          refine .idle ?_ rfl (by simp [acked?, held]) nofun
          rw [hsame]
          split
          next h => rw [h]
          next => rfl
  | disconnect => cases call
  | reconnect => cases call

/-- Whatever is done, the messages of a queue change in one of these ways or not at all. -/
theorem change (b : MemoryBroker) (queue : String) (deed : Deed) :
    Change b queue deed ((b.after deed).lane queue) := by
  cases call : deed.isCall with
  | true =>
      cases on : b.connected with
      | true => exact change_of_connected on call
      | false =>
          obtain ⟨hact, unposted, unacked⟩ := after_of_lost on call
          refine .idle (by rw [after, hact]) unposted unacked ?_
          rintro rfl
          cases call
  | false =>
      cases deed with
      | disconnect => exact lane_disconnect (b := b) ▸ .disconnect
      | reconnect => exact .idle rfl rfl rfl nofun
      | declare q => cases call
      | publish q body => cases call
      | fetch q max => cases call
      | ack d => cases call

end

end Settlement.MemoryBroker
