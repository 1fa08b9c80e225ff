import Settlement.Proofs.Queue.Consumer.Handlers
import Settlement.Proofs.Queue.Memory.Places

/-!
# What a consumer leaves unacknowledged

A consumer works on a queue of a broker in memory while others publish, lose and regain the
connection, and use the other queues. `Serves` puts the two together: what happens to the consumer
is what the broker answers it. A message that it fetched stays pending until it is acknowledged, and
a task whose handler abandons its message frees its slot all the same. So what is pending is what
the tasks are at work on and what was abandoned (`Owned`), and nothing else; and while the
connection is kept it is all of that (`Whole`).
-/

namespace Settlement.Consumer

open MemoryBroker (Deed broker)
open Queue (Lane)

/-- What an event asks of the broker. -/
def deed? (c : Consumer) (queue : String) : Event → Option Deed
  | .declared _ => some (.declare queue)
  | .fetched _ =>
    match c.phase with
    | .fetching slots => some (.fetch queue slots)
    | _ => none
  | .acked number _ => (c.task? number).map fun task => .ack task.delivery
  | _ => none

/-- What comes with an event is what the broker answered. -/
def Told (answer : Except QueueError (List Delivery × MemoryBroker)) : Event → Prop
  | .declared r => r = answer.map fun _ => ()
  | .fetched r => r = answer.map Prod.fst
  | .acked _ r => r = answer.map fun _ => ()
  | _ => True

/-- The message that an event abandons. -/
def abandoned (c : Consumer) : Event → List Delivery
  | .handled number .abandon => (c.task? number).toList.map Task.delivery
  | _ => []

/-- Others leave the messages of the queue to its consumer. -/
def Foreign (queue : String) : Deed → Prop
  | .fetch other _ => other ≠ queue
  | .ack d => d.queue ≠ queue
  | _ => True

/-- The abandoned messages that are still unacknowledged after a deed of others. -/
def stillLeft (left : List Delivery) : Deed → List Delivery
  | .disconnect => []
  | _ => left

/-- How a consumer and a broker have come to be what they are: the broker by `deeds`, latest first,
since the consumer began. `left` are the messages that handlers abandoned since the connection was
last lost, latest first. -/
inductive Serves (queue : String) (prefetch : Nat) (opening : List Deed) :
    List Delivery → Consumer → List Deed → Prop
  | start : Serves queue prefetch opening [] (Consumer.start prefetch) []
  | alone {left : List Delivery} {c c' : Consumer} {deeds : List Deed} {event : Event}
      (before : Serves queue prefetch opening left c deeds) (alone : c.deed? queue event = none)
      (h : c.step event = some c') :
      Serves queue prefetch opening (c.abandoned event ++ left) c' deeds
  | asks {left : List Delivery} {c c' : Consumer} {deeds : List Deed} {event : Event} {deed : Deed}
      (before : Serves queue prefetch opening left c deeds)
      (asks : c.deed? queue event = some deed)
      (told : Told ((broker (deeds ++ opening)).act? deed) event) (h : c.step event = some c') :
      Serves queue prefetch opening left c' (deed :: deeds)
  | outside {left : List Delivery} {c : Consumer} {deeds : List Deed} {deed : Deed}
      (before : Serves queue prefetch opening left c deeds) (foreign : Foreign queue deed) :
      Serves queue prefetch opening (stillLeft left deed) c (deed :: deeds)

/-- The ids of the messages that a consumer has to answer for: of those that its tasks are at work
on, and of those that were abandoned. -/
def charged (left : List Delivery) (c : Consumer) : List String :=
  (c.tasks.map (·.delivery) ++ left).map (·.id)

/-- What a step of the two does to the charged ids, from `before` to `after`, and to the pending
messages. -/
inductive Moves (before after : List String) (pending : List Delivery) : List Delivery → Prop
  | none (same : after.Perm before) : Moves before after pending pending
  | fetched {batch : List Delivery} (more : after.Perm (before ++ batch.map (·.id))) :
      Moves before after pending (pending ++ batch)
  | acked {id : String} (less : before.Perm (id :: after)) :
      Moves before after pending (pending.filter (·.id != id))
  | lost {id : String} (less : before.Perm (id :: after)) (gone : pending = []) :
      Moves before after pending pending

/-- Nothing is pending but what is charged. -/
def Owned (charged : List String) (pending : List Delivery) : Prop :=
  ∀ m ∈ pending, m.id ∈ charged

/-- All that is charged is pending, each message charged once. -/
structure Whole (charged : List String) (pending : List Delivery) : Prop where
  apart : charged.Nodup
  held : ∀ id ∈ charged, id ∈ pending.map (·.id)

section

variable {c c' : Consumer} {event : Event} {queue : String} {left : List Delivery}

/-- A task that leaves takes one message along. -/
theorem charged_drop (apart : (c.tasks.map (·.number)).Nodup) {task : Task}
    (mem : task ∈ c.tasks) (left : List Delivery) :
    (charged left c).Perm (task.delivery.id :: charged left (c.drop task.number)) := by
  have hrest : c.tasks.filter (·.number != task.number) = c.tasks.erase task := by
    rw [(List.Nodup.of_map _ apart).erase_eq_filter]
    refine List.filter_congr fun t ht => ?_
    by_cases h : t = task
    · rw [h, bne_self_eq_false, bne_self_eq_false]
    · have hnumber : t.number ≠ task.number :=
        fun heq => h (List.inj_on_of_nodup_map apart ht mem heq)
      rw [bne_iff_ne.2 hnumber, bne_iff_ne.2 h]
  have hperm := ((List.perm_cons_erase mem).map (·.delivery)).append_right left
  rw [← hrest] at hperm
  exact hperm.map _

theorem deliveries_markAcking (number : Nat) (tasks : List Task) :
    (tasks.map (markAcking number)).map (·.delivery) = tasks.map (·.delivery) := by
  rw [List.map_map]
  refine List.map_congr_left fun t _ => ?_
  simp only [Function.comp_apply, markAcking]
  split <;> rfl

theorem deliveries_dispatch (c : Consumer) (slots : Nat) (deliveries : List Delivery) :
    (c.dispatch slots deliveries).tasks.map (·.delivery) =
      c.tasks.map (·.delivery) ++ deliveries.take slots := by
  rw [dispatch, List.map_append, deliveries_tasksFor]

theorem task?_of_mem (apart : (c.tasks.map (·.number)).Nodup) {task : Task}
    (mem : task ∈ c.tasks) : c.task? task.number = some task := by
  cases found : c.task? task.number with
  | none =>
      have hnone := task?_isNone.1 (Option.isNone_iff_eq_none.2 found)
      exact absurd (List.mem_map_of_mem mem) hnone
  | some other =>
      obtain ⟨hother, hnumber⟩ := mem_of_task? found
      exact congrArg some (List.inj_on_of_nodup_map apart hother mem hnumber)

/-- What asks nothing of the broker leaves to be answered for what was. -/
theorem charged_alone (apart : (c.tasks.map (·.number)).Nodup) (alone : c.deed? queue event = none)
    (change : Change c event c') (left : List Delivery) :
    (charged (c.abandoned event ++ left) c').Perm (charged left c) := by
  cases change with
  | accepted mem running =>
      refine .of_eq ?_
      rw [charged, deliveries_markAcking]
      rfl
  | @abandoned task mem running =>
      have hleft : c.abandoned (.handled task.number .abandon) = [task.delivery] := by
        simp [Consumer.abandoned, task?_of_mem apart mem]
      rw [hleft]
      refine List.Perm.trans ?_ (charged_drop apart mem left).symm
      exact List.perm_middle.map _
  | declared now => cases alone
  | undeclared now => cases alone
  | fetched now => simp [deed?, now] at alone
  | unfetched now => simp [deed?, now] at alone
  | acked mem acking => simp [deed?, task?_of_mem apart mem] at alone
  | acquired now => exact .refl _
  | faulted fault reading => exact .refl _
  | shutdown reading => exact .refl _
  | drained now empty => exact .refl _

end

section

variable {b : MemoryBroker} {queue : String} {deed : Deed}

theorem after_of_offline (off : b.connected = false) (call : deed.isCall) : b.after deed = b := by
  rw [MemoryBroker.after, (MemoryBroker.after_of_lost off call).1]

/-- A call leaves the connection as it is. -/
theorem connected_after (call : deed.isCall) : (b.after deed).connected = b.connected := by
  cases on : b.connected with
  | false => rw [after_of_offline on call, on]
  | true =>
      cases deed with
      | declare q =>
          simp [MemoryBroker.after, MemoryBroker.act?, MemoryBroker.declare, on, Except.map,
            MemoryBroker.setLane]
      | publish q body =>
          simp [MemoryBroker.after, MemoryBroker.act?, MemoryBroker.publish, on, Except.map,
            MemoryBroker.setLane]
      | fetch q max =>
          simp [MemoryBroker.after, MemoryBroker.act?, MemoryBroker.fetch, on,
            MemoryBroker.setLane]
      | ack d =>
          cases held : b.lanes.lookup d.queue <;>
            simp [MemoryBroker.after, MemoryBroker.act?, MemoryBroker.ack, on, held, Except.map,
              MemoryBroker.setLane]
      | disconnect => cases call
      | reconnect => cases call

/-- Over a lost connection nothing stays pending. -/
theorem pending_of_offline {opening : List Deed}
    (fresh : ((broker opening).lane queue).pending = []) (deeds : List Deed)
    (off : (broker (deeds ++ opening)).connected = false) :
    ((broker (deeds ++ opening)).lane queue).pending = [] := by
  induction deeds with
  | nil => exact fresh
  | cons deed before ih =>
      change ((broker (before ++ opening)).after deed).connected = false at off
      change (((broker (before ++ opening)).after deed).lane queue).pending = []
      cases call : deed.isCall with
      | true =>
          rw [connected_after call] at off
          rw [after_of_offline off call]
          exact ih off
      | false =>
          cases deed with
          | disconnect =>
              change ((broker (before ++ opening)).disconnect.lane queue).pending = []
              rw [MemoryBroker.lane_disconnect]
              rfl
          | reconnect => cases off
          | _ => cases call

/-- What a fetch told, and what it did. -/
theorem told_fetch {slots : Nat} {r : Except QueueError (List Delivery)}
    (told : Told (b.act? (.fetch queue slots)) (.fetched r)) :
    (r = .ok ((b.lane queue).ready.take slots) ∧
      (b.after (.fetch queue slots)).lane queue = ((b.lane queue).take slots).2) ∨
    (r = .error .reconnect ∧ b.after (.fetch queue slots) = b) := by
  cases on : b.connected with
  | true =>
      refine Or.inl ⟨?_, by rw [MemoryBroker.lane_fetch on, if_pos rfl]⟩
      rw [show r = _ from told]
      simp [MemoryBroker.act?, MemoryBroker.fetch, on, Except.map, Lane.take]
  | false =>
      refine Or.inr ⟨?_, after_of_offline on rfl⟩
      rw [show r = _ from told, (MemoryBroker.after_of_lost on rfl).1]
      rfl

theorem pending_ack (l : Lane) (id : String) :
    (l.ack id).pending = l.pending.filter (·.id != id) := by
  unfold Lane.ack
  split
  next => rfl
  next absent =>
    refine (List.filter_eq_self.2 fun m hm => ?_).symm
    simp only [List.any_eq_true, not_exists, not_and, beq_iff_eq] at absent
    exact bne_iff_ne.2 (absent m hm)

theorem lane_declare_self (b : MemoryBroker) (queue : String) :
    (b.after (.declare queue)).lane queue = b.lane queue := by
  cases on : b.connected with
  | true => exact MemoryBroker.lane_declare on queue
  | false => rw [after_of_offline on rfl]

/-- Deeds of others leave what is pending as it is, or the connection is lost. -/
theorem pending_foreign (foreign : Foreign queue deed) (kept : deed ≠ .disconnect) :
    ((b.after deed).lane queue).pending = (b.lane queue).pending := by
  have change := MemoryBroker.change b queue deed
  generalize (b.after deed).lane queue = l at change
  cases change with
  | none unposted unacked kept => rfl
  | publish h => rfl
  | fetch max => exact absurd rfl foreign
  | ack h here => exact absurd here foreign
  | disconnect => exact absurd rfl kept

end

section

variable {queue : String} {prefetch : Nat} {opening deeds : List Deed} {left : List Delivery}
  {c c' : Consumer} {event : Event} {deed : Deed}

theorem runs_of_serves (serves : Serves queue prefetch opening left c deeds) :
    ∃ events begun, Runs Any prefetch events begun c := by
  induction serves with
  | start => exact ⟨[], [], .start⟩
  | alone before alone h ih =>
      obtain ⟨events, begun, runs⟩ := ih
      exact ⟨_, _, runs.next trivial h⟩
  | asks before asks told h ih =>
      obtain ⟨events, begun, runs⟩ := ih
      exact ⟨_, _, runs.next trivial h⟩
  | outside before foreign ih => exact ih

theorem numbers_of_serves (serves : Serves queue prefetch opening left c deeds) :
    (c.tasks.map (·.number)).Nodup := by
  obtain ⟨events, begun, runs⟩ := runs_of_serves serves
  exact (kept_of_runs runs).2.1.apart

/-- An event that brings no deliveries brings no task. -/
theorem Change.passes (change : Change c event c')
    (unfetched : ∀ deliveries, event ≠ .fetched (.ok deliveries)) :
    c'.tasks.map (·.delivery) ⊆ c.tasks.map (·.delivery) := by
  cases change with
  | fetched now => exact absurd rfl (unfetched _)
  | accepted mem running => exact (deliveries_markAcking _ _).symm ▸ List.Subset.refl _
  | abandoned mem running => exact (List.filter_sublist.map _).subset
  | acked mem acking => exact (note_tasks _).symm ▸ (List.filter_sublist.map _).subset
  | _ => exact List.Subset.refl _

theorem fetching_of_asks {r : Except QueueError (List Delivery)}
    (asks : c.deed? queue (.fetched r) = some deed) :
    ∃ slots, c.phase = .fetching slots ∧ deed = .fetch queue slots := by
  simp only [deed?] at asks
  split at asks
  next slots now => exact ⟨slots, now, (Option.some.inj asks).symm⟩
  next => cases asks

/-- The consumer works on messages of its queue only. -/
theorem ours_of_serves (serves : Serves queue prefetch opening left c deeds) :
    ∀ d ∈ c.tasks.map (·.delivery), d.queue = queue := by
  induction serves with
  | start => exact nofun
  | @alone left c c' deeds event before alone h ih =>
      refine fun d mem => ih d ((change_of_step h).passes ?_ mem)
      rintro deliveries rfl
      cases change_of_step h with
      | fetched now => simp [deed?, now] at alone
  | @asks left c c' deeds event deed before asks told h ih =>
      intro d mem
      cases change_of_step h with
      | @fetched slots deliveries now =>
          obtain ⟨_, now', rfl⟩ := fetching_of_asks asks
          obtain rfl := Phase.fetching.inj (now.symm.trans now')
          rcases told_fetch told with ⟨hr, -⟩ | ⟨hr, -⟩
          · obtain rfl := Except.ok.inj hr
            rw [deliveries_dispatch, List.take_take, Nat.min_self] at mem
            rcases List.mem_append.1 mem with mem | mem
            · exact ih d mem
            · have kept := MemoryBroker.kept (deeds ++ opening) queue
              exact (kept.looks d (List.mem_append_left _ (List.mem_of_mem_take mem))).2.1
          · cases hr
      | acked running acking => exact ih d ((change_of_step h).passes nofun mem)
      | declared now => exact ih d mem
      | undeclared now => exact ih d mem
      | unfetched now => exact ih d mem
      | _ => cases asks
  | outside before foreign ih => exact ih

/-- What the broker answers moves the same messages on both sides. -/
theorem moves_asks (fresh : ((broker opening).lane queue).pending = [])
    (serves : Serves queue prefetch opening left c deeds)
    (asks : c.deed? queue event = some deed)
    (told : Told ((broker (deeds ++ opening)).act? deed) event) (change : Change c event c') :
    Moves (charged left c) (charged left c') ((broker (deeds ++ opening)).lane queue).pending
      ((broker (deed :: deeds ++ opening)).lane queue).pending := by
  have offline := pending_of_offline fresh deeds
  change Moves _ _ _ (((broker (deeds ++ opening)).after deed).lane queue).pending
  have ours := ours_of_serves serves
  have apart := numbers_of_serves serves
  generalize broker (deeds ++ opening) = b at told offline
  cases change with
  | declared now =>
      obtain rfl := Option.some.inj asks
      rw [lane_declare_self]
      exact .none (.refl _)
  | undeclared now =>
      obtain rfl := Option.some.inj asks
      rw [lane_declare_self]
      exact .none (.refl _)
  | @fetched slots deliveries now =>
      obtain ⟨_, now', rfl⟩ := fetching_of_asks asks
      obtain rfl := Phase.fetching.inj (now.symm.trans now')
      rcases told_fetch told with ⟨hr, hlane⟩ | ⟨hr, -⟩
      · obtain rfl := Except.ok.inj hr
        rw [hlane]
        refine .fetched ?_
        rw [charged, deliveries_dispatch, List.take_take, Nat.min_self, List.append_assoc, charged,
          ← List.map_append, List.append_assoc]
        exact (List.perm_append_comm.append_left _).map _
      · cases hr
  | @unfetched slots e now =>
      obtain ⟨_, now', rfl⟩ := fetching_of_asks asks
      rcases told_fetch told with ⟨hr, hlane⟩ | ⟨hr, hsame⟩
      · cases hr
      · rw [hsame]
        exact .none (.refl _)
  | @acked task r mem acking =>
      have hless : (charged left c).Perm
          (task.delivery.id :: charged left ((c.drop task.number).note r)) := by
        unfold charged
        rw [note_tasks]
        exact charged_drop apart mem left
      have hqueue : task.delivery.queue = queue := ours _ (List.mem_map_of_mem mem)
      rw [deed?, task?_of_mem apart mem] at asks
      obtain rfl := Option.some.inj asks
      cases on : b.connected with
      | true =>
          rw [MemoryBroker.lane_ack on, if_pos hqueue.symm, hqueue, pending_ack]
          exact .acked hless
      | false =>
          rw [after_of_offline on rfl]
          exact .lost hless (offline on)
  | _ => cases asks

variable {before after : List String} {pending pending' : List Delivery}

theorem Owned.next (owned : Owned before pending) (moves : Moves before after pending pending') :
    Owned after pending' := by
  cases moves with
  | none same => exact fun m mem => same.mem_iff.2 (owned m mem)
  | fetched more =>
      intro m mem
      refine more.mem_iff.2 (List.mem_append.2 ?_)
      exact (List.mem_append.1 mem).imp (owned m) (fun h => List.mem_map_of_mem h)
  | acked less =>
      intro m mem
      obtain ⟨hmem, hid⟩ := List.mem_filter.1 mem
      exact (List.mem_cons.1 (less.mem_iff.1 (owned m hmem))).resolve_left (bne_iff_ne.1 hid)
  | lost less gone => exact fun m mem => absurd (gone ▸ mem) List.not_mem_nil

theorem Whole.next (whole : Whole before pending) (moves : Moves before after pending pending')
    (ids : (pending'.map (·.id)).Nodup) : Whole after pending' := by
  cases moves with
  | none same => exact ⟨same.nodup_iff.2 whole.apart, fun id h => whole.held id (same.mem_iff.1 h)⟩
  | @fetched batch more =>
      rw [List.map_append] at ids
      obtain ⟨-, hbatch, hfresh⟩ := List.nodup_append.1 ids
      constructor
      · refine more.nodup_iff.2 (List.nodup_append.2 ⟨whole.apart, hbatch, ?_⟩)
        exact fun id h => hfresh id (whole.held id h)
      · intro id h
        rw [List.map_append]
        exact List.mem_append.2 ((List.mem_append.1 (more.mem_iff.1 h)).imp_left (whole.held id))
  | @acked id less =>
      obtain ⟨habsent, hapart⟩ := List.nodup_cons.1 (less.nodup_iff.1 whole.apart)
      refine ⟨hapart, fun other h => ?_⟩
      obtain ⟨m, hm, rfl⟩ := List.mem_map.1
        (whole.held other (less.mem_iff.2 (List.mem_cons_of_mem _ h)))
      refine List.mem_map_of_mem (List.mem_filter.2 ⟨hm, bne_iff_ne.2 ?_⟩)
      rintro rfl
      exact habsent h
  | lost less gone =>
      obtain ⟨-, hapart⟩ := List.nodup_cons.1 (less.nodup_iff.1 whole.apart)
      exact ⟨hapart, fun id h => whole.held id (less.mem_iff.2 (List.mem_cons_of_mem _ h))⟩

theorem owned_of_serves (fresh : ((broker opening).lane queue).pending = [])
    (serves : Serves queue prefetch opening left c deeds) :
    Owned (charged left c) ((broker (deeds ++ opening)).lane queue).pending := by
  induction serves with
  | start => exact fun m mem => absurd (fresh ▸ mem) List.not_mem_nil
  | @alone left _ _ _ _ before alone h ih =>
      have same := charged_alone (numbers_of_serves before) alone (change_of_step h) left
      exact ih.next (.none same)
  | asks before asks told h ih =>
      exact ih.next (moves_asks fresh before asks told (change_of_step h))
  | @outside left c deeds deed before foreign ih =>
      cases deed with
      | disconnect =>
          intro m mem
          change m ∈ ((broker (deeds ++ opening)).disconnect.lane queue).pending at mem
          rw [MemoryBroker.lane_disconnect] at mem
          cases mem
      | _ =>
          refine ih.next ?_
          rw [List.cons_append, broker, pending_foreign foreign (by simp)]
          exact .none (.refl _)

/-- While the connection is kept, all that is charged is pending. -/
theorem whole_of_serves (fresh : ((broker opening).lane queue).pending = [])
    (serves : Serves queue prefetch opening left c deeds) (kept : .disconnect ∉ deeds) :
    Whole (charged left c) ((broker (deeds ++ opening)).lane queue).pending := by
  have hids : ∀ deeds, (((broker deeds).lane queue).pending.map (·.id)).Nodup := fun deeds =>
    (List.nodup_append.1 (List.nodup_append.1 (MemoryBroker.kept deeds queue).nodup).1).2.1
  induction serves with
  | start => exact ⟨.nil, nofun⟩
  | @alone left _ _ _ _ before alone h ih =>
      have same := charged_alone (numbers_of_serves before) alone (change_of_step h) left
      exact (ih kept).next (.none same) (hids _)
  | asks before asks told h ih =>
      have moves := moves_asks fresh before asks told (change_of_step h)
      exact (ih fun mem => kept (List.mem_cons_of_mem _ mem)).next moves (hids _)
  | @outside left c deeds deed before foreign ih =>
      have still : deed ≠ .disconnect := fun h => kept (h ▸ List.mem_cons_self)
      have hleft : stillLeft left deed = left := by
        cases deed <;> first | rfl | exact absurd rfl still
      rw [hleft, List.cons_append, broker, pending_foreign foreign still]
      exact ih fun mem => kept (List.mem_cons_of_mem _ mem)

end

/-- What a consumer leaves unacknowledged on a queue that began with nothing pending: only messages
that its tasks are at work on or that a handler abandoned. The tasks are no more than the prefetch,
or one, allows, so the pending messages are no more than that and the abandoned ones together; and
while the connection is kept they are exactly that many, for an abandoned message stays pending and
its slot goes to the next one. -/
theorem unacknowledged_of_serves {queue : String} {prefetch : Nat} {opening deeds : List Deed}
    {left : List Delivery} {c : Consumer} (fresh : ((broker opening).lane queue).pending = [])
    (serves : Serves queue prefetch opening left c deeds) :
    (∀ m ∈ ((broker (deeds ++ opening)).lane queue).pending,
      (∃ t ∈ c.tasks, t.delivery.id = m.id) ∨ ∃ d ∈ left, d.id = m.id) ∧
    c.tasks.length ≤ max prefetch 1 ∧
    ((broker (deeds ++ opening)).lane queue).pending.length ≤ c.tasks.length + left.length ∧
    (.disconnect ∉ deeds → ((broker (deeds ++ opening)).lane queue).pending.length =
      c.tasks.length + left.length) := by
  have owned := owned_of_serves fresh serves
  have hids : (((broker (deeds ++ opening)).lane queue).pending.map (·.id)).Nodup :=
    (List.nodup_append.1 (List.nodup_append.1
      (MemoryBroker.kept (deeds ++ opening) queue).nodup).1).2.1
  have hcharged : (charged left c).length = c.tasks.length + left.length := by simp [charged]
  have hsubset : ((broker (deeds ++ opening)).lane queue).pending.map (·.id) ⊆ charged left c := by
    rintro id hid
    obtain ⟨m, hm, rfl⟩ := List.mem_map.1 hid
    exact owned m hm
  have hle := (List.subperm_of_subset hids hsubset).length_le
  rw [List.length_map, hcharged] at hle
  refine ⟨?_, ?_, hle, ?_⟩
  · intro m hm
    simpa [charged, or_comm] using owned m hm
  · obtain ⟨events, begun, runs⟩ := runs_of_serves serves
    obtain ⟨limit, room⟩ := (kept_of_runs runs).1
    omega
  · intro kept
    have whole := whole_of_serves fresh serves kept
    have hge := (List.subperm_of_subset whole.apart whole.held).length_le
    rw [List.length_map, hcharged] at hge
    omega

namespace Sample

/-- Two messages that wait on the queue. -/
def waiting : List Deed := [.publish "payments" .empty, .publish "payments" .empty]

def earlier : Delivery := ⟨MemoryBroker.idOf 1, "payments", .empty, false⟩

def later : Delivery := ⟨MemoryBroker.idOf 2, "payments", .empty, false⟩

/-- Both are fetched one at a time. -/
def twice : List Deed := [.fetch "payments" 1, .fetch "payments" 1, .declare "payments"]

/-- Each message is abandoned before the next one is fetched. -/
theorem serves_twice :
    Serves "payments" 1 waiting [later, earlier] ⟨1, .acquiring, [], 2, none⟩ twice := by
  have declared := @Serves.asks "payments" 1 waiting _ _ ⟨1, .acquiring, [], 0, none⟩ _
    (.declared (.ok ())) _ .start rfl rfl rfl
  have taken := @Serves.alone "payments" 1 waiting _ _ ⟨1, .fetching 1, [], 0, none⟩ _
    .acquired declared rfl rfl
  have fetched := @Serves.asks "payments" 1 waiting _ _
    ⟨1, .acquiring, [⟨0, earlier, false⟩], 1, none⟩ _ (.fetched (.ok [earlier])) _ taken rfl rfl rfl
  have abandoned := @Serves.alone "payments" 1 waiting _ _ ⟨1, .acquiring, [], 1, none⟩ _
    (.handled 0 .abandon) fetched rfl rfl
  have takenAgain := @Serves.alone "payments" 1 waiting _ _ ⟨1, .fetching 1, [], 1, none⟩ _
    .acquired abandoned rfl rfl
  have fetchedAgain := @Serves.asks "payments" 1 waiting _ _
    ⟨1, .acquiring, [⟨1, later, false⟩], 2, none⟩ _ (.fetched (.ok [later])) _ takenAgain
    rfl rfl rfl
  exact @Serves.alone "payments" 1 waiting _ _ _ _ (.handled 1 .abandon) fetchedAgain rfl rfl

end Sample

open Sample in
theorem unacknowledged_of_serves_two_abandoned :
    ((broker waiting).lane "payments").pending = [] ∧
    Serves "payments" 1 waiting [later, earlier] ⟨1, .acquiring, [], 2, none⟩ twice ∧
    ((broker (twice ++ waiting)).lane "payments").pending.length = 2 := by
  have fresh : ((broker waiting).lane "payments").pending = [] := rfl
  obtain ⟨-, -, -, held⟩ := unacknowledged_of_serves fresh serves_twice
  exact ⟨fresh, serves_twice, held (by simp [twice])⟩

end Settlement.Consumer
