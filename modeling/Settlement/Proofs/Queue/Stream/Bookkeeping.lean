import Settlement.Proofs.Queue.Stream.Replay

/-!
# The books of a replay

What the log of a run tells of its fetches: the reads of pending entries, the messages that were
handed out, the ids that were acknowledged, and the commands that a fetch has sent.

`Known` is what every event preserves. The reads make a trail that has come to where the replay
goes on; what they returned balances with what was handed out and acknowledged (`Books`); and the
commands that a fetch has sent and can still send are bounded by twice the number of the entries.
-/

namespace Settlement.Queue.Stream.Replay

open Redis (Command Reply)

namespace Event

/-- The read of pending entries that the event is. -/
def read? : Event → Option PendingRead
  | asked pending (.readPending _ _ _ after count) _ => some ⟨after, count, pending⟩
  | _ => none

/-- The messages that a fetch hands out. -/
def delivered : Event → List Delivery
  | ended (.ok batch) => batch
  | _ => []

/-- The ids that a fetch acknowledges. -/
def acknowledged : Event → List String
  | asked _ command _ => command.acknowledged
  | _ => []

/-- What the reply to a take-over or to a read of new entries returns: messages, and the ids of
entries without one. -/
def beyond (queue : String) : Event → List Delivery × List String
  | asked _ (.takeOver _ _ _ _ _ _) r => split queue true (taken r)
  | asked _ (.readNew _ _ _ _ _) r => split queue false (entries r)
  | _ => ([], [])

/-- The event is not one of the replay: a take-over, a read of new entries, or the end of a fetch
that has no message. -/
def Beyond : Event → Prop
  | asked _ (.takeOver _ _ _ _ _ _) _ => True
  | asked _ (.readNew _ _ _ _ _) _ => True
  | ended (.ok batch) => batch = []
  | ended (.error _) => True
  | _ => False

end Event

/-- The reads of pending entries, in their order. -/
def reads (log : List Event) : List PendingRead := log.filterMap Event.read?

def delivered (log : List Event) : List Delivery := log.flatMap Event.delivered

def acknowledged (log : List Event) : List String := log.flatMap Event.acknowledged

/-- The number of commands since a fetch began last. -/
def sent (log : List Event) : Nat :=
  log.foldl (fun n event => match event with
    | .begun => 0
    | .asked _ _ _ => n + 1
    | _ => n) 0

namespace Activity

def ahead : Activity → Option String
  | idle position => position.replay
  | fetching _ _ f => Replay.ahead f

def owed (queue : String) : Activity → List Delivery × List String
  | idle _ => ([], [])
  | fetching _ _ f => Replay.owed queue f.stage

def Sound : Activity → Prop
  | idle _ => True
  | fetching max _ f => 0 < max ∧ Replay.Sound f

end Activity

section

variable {α : Type} [LinearOrder α] (place : String → α) (s : StreamReader) (initial : List Entry)

/-- The commands that a stage may still send, acknowledging its own entries aside. -/
def reach (f : Fetch) : Nat :=
  match ahead f with
  | some after => 2 * behind place initial after + 5
  | none => room f.stage

/-- The commands that an activity may still send. -/
def weight : Activity → Nat
  | .idle _ => 0
  | .fetching _ _ f =>
    (if (owed s.queue f.stage).2 = [] then 0 else 1) + reach place initial f

/-- The books balance: what was handed out and acknowledged, with what is owed, is what the reads of
the backlog returned, and behind it what was returned beyond. -/
structure Books (queue : String) (log : List Event) (owes : List Delivery × List String) :
    Prop where
  handed : delivered log ++ owes.1 =
    (returned place (reads log)).filterMap (Entry.delivery? queue true) ++
      log.flatMap fun event => (event.beyond queue).1
  settled : acknowledged log ++ owes.2 =
    ((returned place (reads log)).filter fun e => e.body?.isNone).map (·.id) ++
      log.flatMap fun event => (event.beyond queue).2

/-- What is known of a run. -/
structure Known (log : List Event) (pending : List Entry) (activity : Activity) : Prop where
  trail : Trail place initial (reads log) activity.ahead
  held : activity.ahead ≠ none → pending.Sublist initial
  sound : activity.Sound
  books : Books place s.queue log (activity.owed s.queue)
  guarded : ∀ before event after, log = before ++ event :: after → event.Beyond →
    Trail place initial (reads before) none
  brief : sent log + weight place s initial activity ≤ 2 * initial.length + 5

end

section

variable {log : List Event} {event : Event}

theorem reads_append (h : event.read? = none) : reads (log ++ [event]) = reads log := by
  simp [reads, h]

theorem reads_append_page (pending : List Entry) (queue group consumer after : String)
    (count : Nat) (r : Redis.Result) :
    reads (log ++ [.asked pending (.readPending queue group consumer after count) r]) =
      reads log ++ [⟨after, count, pending⟩] := by
  simp [reads, Event.read?]

theorem delivered_append (event : Event) :
    delivered (log ++ [event]) = delivered log ++ event.delivered := by
  simp [delivered]

theorem acknowledged_append (event : Event) :
    acknowledged (log ++ [event]) = acknowledged log ++ event.acknowledged := by
  simp [acknowledged]

theorem sent_begun : sent (log ++ [.begun]) = 0 := by simp [sent]

theorem sent_asked (pending : List Entry) (command : Command) (r : Redis.Result) :
    sent (log ++ [.asked pending command r]) = sent log + 1 := by
  simp [sent]

theorem sent_acked (ids : List String) : sent (log ++ [.acked ids]) = sent log := by
  simp [sent]

theorem sent_ended (result : Except QueueError (List Delivery)) :
    sent (log ++ [.ended result]) = sent log := by
  simp [sent]

/-- What has to come before some events stays so when an event is added. -/
theorem guarded_append {P : List Event → Prop}
    (old : ∀ before event after, log = before ++ event :: after → event.Beyond → P before)
    (new : event.Beyond → P log) :
    ∀ before event' after, log ++ [event] = before ++ event' :: after → event'.Beyond →
      P before := by
  intro before event' after heq hbeyond
  rcases List.eq_nil_or_concat after with rfl | ⟨rest, final, rfl⟩
  · obtain ⟨rfl, hlast⟩ := List.append_inj' heq rfl
    obtain rfl := List.singleton_inj.1 hlast
    exact new hbeyond
  · rw [List.concat_eq_append, ← List.cons_append, ← List.append_assoc] at heq
    exact old before event' rest (List.append_inj' heq rfl).1 hbeyond

theorem beyond_eq {queue : String} (h : ¬event.Beyond) : event.beyond queue = ([], []) := by
  cases event with
  | asked pending command r =>
      cases command with
      | takeOver => exact absurd trivial h
      | readNew => exact absurd trivial h
      | _ => rfl
  | _ => rfl

end

section

variable {α : Type} [LinearOrder α] {place : String → α} {s : StreamReader} {initial : List Entry}
  {log : List Event} {pending pending' : List Entry} {activity : Activity} {max : Nat}
  {block : Duration} {now : Instant} {f : Fetch} {position : Position}

theorem reach_of_ahead {after : String} (goes : ahead f = some after) :
    reach place initial f = 2 * behind place initial after + 5 := by
  rw [reach, goes]

theorem reach_over (finished : ahead f = none) : reach place initial f = room f.stage := by
  rw [reach, finished]

namespace Books

variable {queue : String} {owes owes' : List Delivery × List String} {event : Event}

theorem append (books : Books place queue log owes) (h : event.read? = none)
    (handed : owes.1 ++ (event.beyond queue).1 = event.delivered ++ owes'.1)
    (settled : owes.2 ++ (event.beyond queue).2 = event.acknowledged ++ owes'.2) :
    Books place queue (log ++ [event]) owes' where
  handed := by
    rw [delivered_append, List.append_assoc, ← handed, ← List.append_assoc, books.handed,
      reads_append h, List.flatMap_append, List.flatMap_singleton, List.append_assoc]
  settled := by
    rw [acknowledged_append, List.append_assoc, ← settled, ← List.append_assoc, books.settled,
      reads_append h, List.flatMap_append, List.flatMap_singleton, List.append_assoc]

/-- A page is owed before anything beyond has been returned. -/
theorem page (books : Books place queue log ([], []))
    (quiet : ∀ event ∈ log, event.beyond queue = ([], [])) (pending : List Entry)
    (group consumer after : String) (count : Nat) (r : Redis.Result) :
    Books place queue (log ++ [.asked pending (.readPending queue group consumer after count) r])
      (split queue true (PendingRead.page place ⟨after, count, pending⟩)) where
  handed := by
    have hquiet : (log.flatMap fun event => (event.beyond queue).1) = [] :=
      List.flatMap_eq_nil_iff.2 fun event mem => by rw [quiet event mem]
    have hold := books.handed
    rw [hquiet, List.append_nil, List.append_nil] at hold
    rw [delivered_append, hold, reads_append_page, returned_append, List.filterMap_append,
      List.flatMap_append, hquiet]
    simp [Event.delivered, Event.beyond, split]
  settled := by
    have hquiet : (log.flatMap fun event => (event.beyond queue).2) = [] :=
      List.flatMap_eq_nil_iff.2 fun event mem => by rw [quiet event mem]
    have hold := books.settled
    rw [hquiet, List.append_nil, List.append_nil] at hold
    rw [acknowledged_append, hold, reads_append_page, returned_append, List.filter_append,
      List.map_append, List.flatMap_append, hquiet]
    simp [Event.acknowledged, Event.beyond, split, Command.acknowledged]

end Books

namespace Known

theorem start : Known place s initial [] initial (.idle .start) where
  trail := .start
  held _ := List.Sublist.refl _
  sound := trivial
  books := ⟨rfl, rfl⟩
  guarded := by simp
  brief := Nat.zero_le _

/-- While the replay goes on, nothing has been taken over and nothing new has been read. -/
theorem beyond_nil (known : Known place s initial log pending activity)
    (sorted : InOrder place initial) {after : String} (goes : activity.ahead = some after) :
    ∀ event ∈ log, event.beyond s.queue = ([], []) := by
  intro event mem
  refine beyond_eq fun hbeyond => ?_
  obtain ⟨before, rest, rfl⟩ := List.append_of_mem mem
  obtain ⟨read, hread, hempty⟩ := (known.guarded _ _ _ rfl hbeyond).exists_empty
  have trail := known.trail
  rw [goes] at trail
  have hmem : read ∈ reads (before ++ event :: rest) := by
    rw [reads, List.filterMap_append]
    exact List.mem_append_left _ hread
  obtain ⟨last, hlast, -⟩ := trail.le_of_mem sorted read hmem
  rw [PendingRead.last_eq_none.2 hempty] at hlast
  cases hlast

theorem acked (known : Known place s initial log pending activity) (ids : List String) :
    Known place s initial (log ++ [.acked ids]) (without ids pending) activity where
  trail := by
    rw [reads_append rfl]
    exact known.trail
  held goes := List.filter_sublist.trans (known.held goes)
  sound := known.sound
  books := known.books.append rfl (List.append_nil _) (List.append_nil _)
  guarded := guarded_append known.guarded False.elim
  brief := by
    rw [sent_acked]
    exact known.brief

theorem begins (known : Known place s initial log pending (.idle position)) (positive : 0 < max) :
    Known place s initial (log ++ [.begun]) pending
      (.fetching max block ⟨position, .choosing⟩) where
  trail := by
    rw [reads_append rfl]
    exact known.trail
  held := known.held
  sound := ⟨positive, trivial⟩
  books := known.books.append rfl rfl rfl
  guarded := guarded_append known.guarded False.elim
  brief := by
    rw [sent_begun, weight, owed, if_pos rfl]
    cases hreplay : position.replay with
    | some after =>
        have hbehind : behind place initial after ≤ initial.length := List.countP_le_length
        rw [reach_of_ahead (f := ⟨position, .choosing⟩) hreplay]
        omega
    | none =>
        have hroom : room .choosing = 4 := rfl
        rw [reach_over (f := ⟨position, .choosing⟩) hreplay, hroom]
        omega

theorem ends {fetched : Fetched} (known : Known place s initial log pending (.fetching max block f))
    (turn : s.fetchTurn max block now f = .done fetched) :
    Known place s initial (log ++ [.ended fetched.result]) pending (.idle fetched.position) := by
  have acts : Acts s max now f (s.fetchTurn max block now f) := acts_fetchTurn known.sound.2
  rw [turn] at acts
  have trail := known.trail
  have books := known.books
  have brief : sent (log ++ [.ended fetched.result]) + 0 ≤ 2 * initial.length + 5 := by
    rw [sent_ended]
    exact Nat.le_trans (Nat.add_le_add_left (Nat.zero_le _) _) known.brief
  cases acts with
  | @hands batch position owes goes filled =>
      rw [Activity.owed, owes] at books
      rw [Activity.ahead, ← goes] at trail
      refine ⟨?_, fun h => known.held (goes.symm.trans_ne h), trivial, ?_, ?_, brief⟩
      · rw [reads_append rfl]
        exact trail
      · exact books.append rfl rfl rfl
      · refine guarded_append known.guarded fun hbeyond => ?_
        have finished : position.replay = none := by
          by_contra hsome
          exact filled (goes.symm.trans_ne hsome) hbeyond
        rwa [finished] at trail
  | fails free finished done =>
      rw [Activity.owed, free] at books
      rw [Activity.ahead, finished, ← done] at trail
      refine ⟨?_, fun h => absurd done h, trivial, ?_, ?_, brief⟩
      · rw [reads_append rfl]
        exact trail
      · exact books.append rfl rfl rfl
      · refine guarded_append known.guarded fun _ => ?_
        rwa [done] at trail

theorem settles {stage : FetchStage} {r : Redis.Result}
    (known : Known place s initial log pending (.fetching max block f))
    (unread : (owed s.queue f.stage).2 ≠ []) (goes : ahead ⟨f.position, stage⟩ = ahead f)
    (owes : owed s.queue stage = ((owed s.queue f.stage).1, []))
    (rooms : room stage = room f.stage) (sound : Sound ⟨f.position, stage⟩) :
    Known place s initial
      (log ++ [.asked pending (.acknowledge s.queue s.group (owed s.queue f.stage).2) r])
      (without (owed s.queue f.stage).2 pending) (.fetching max block ⟨f.position, stage⟩) where
  trail := by
    rw [reads_append rfl, Activity.ahead, goes]
    exact known.trail
  held h := by
    rw [Activity.ahead, goes] at h
    exact List.filter_sublist.trans (known.held h)
  sound := ⟨known.sound.1, sound⟩
  books := by
    rw [Activity.owed, owes]
    exact known.books.append rfl (List.append_nil _) rfl
  guarded := guarded_append known.guarded False.elim
  brief := by
    have brief := known.brief
    rw [weight, if_neg unread, reach] at brief
    rw [sent_asked, weight, if_pos (by rw [owes]), reach, goes, rooms]
    omega

theorem replays {after : String} {r : Redis.Result} (sorted : InOrder place initial)
    (known : Known place s initial log pending (.fetching max block f))
    (free : owed s.queue f.stage = ([], [])) (goes : ahead f = some after)
    (page : r.bind readEntries = .ok (PendingRead.page place ⟨after, max, pending⟩)) :
    Known place s initial
      (log ++ [.asked pending (.readPending s.queue s.group s.consumer after max) r]) pending
      (.fetching max block ⟨position, .replayed r⟩) := by
  have hpage := entries_eq page
  have trail := known.trail
  rw [Activity.ahead, goes] at trail
  have held : pending.Sublist initial := known.held fun h => by
    rw [Activity.ahead, goes] at h
    cases h
  have next : Trail place initial (reads log ++ [⟨after, max, pending⟩])
      (PendingRead.last place ⟨after, max, pending⟩) := .next trail known.sound.1 held
  have hahead : ahead ⟨position, .replayed r⟩ = PendingRead.last place ⟨after, max, pending⟩ := by
    rw [ahead_replayed, hpage, PendingRead.last]
  refine ⟨?_, fun _ => held, ⟨known.sound.1, _, page⟩, ?_,
    guarded_append known.guarded False.elim, ?_⟩
  · rw [reads_append_page, Activity.ahead, hahead]
    exact next
  · have books := known.books
    rw [Activity.owed, free] at books
    rw [Activity.owed, owed, hpage]
    exact books.page (known.beyond_nil sorted goes) pending _ _ _ _ r
  · have brief := known.brief
    rw [weight, if_pos (by rw [free]), reach_of_ahead goes] at brief
    rw [sent_asked, weight]
    cases hlast : PendingRead.last place ⟨after, max, pending⟩ with
    | none =>
        have hempty : owed s.queue (.replayed r) = ([], []) := by
          rw [owed, hpage, PendingRead.last_eq_none.1 hlast]
          rfl
        have hroom : room (.replayed r) = 4 := rfl
        rw [if_pos (by rw [hempty]), reach_over (hahead.trans hlast), hroom]
        omega
    | some last =>
        have hlt := behind_lt sorted held hlast
        rw [reach_of_ahead (hahead.trans hlast)]
        dsimp only at hlt
        split <;> omega

/-- Behind the replay, what a reply returns is owed whatever is pending. -/
theorem passes {command : Command} {r : Redis.Result} {stage : FetchStage}
    (known : Known place s initial log pending (.fetching max block f))
    (free : owed s.queue f.stage = ([], [])) (finished : ahead f = none)
    (read : Event.read? (.asked pending command r) = none) (asks : command.acknowledged = [])
    (owes : Event.beyond s.queue (.asked pending command r) = owed s.queue stage)
    (passed : ahead ⟨position, stage⟩ = none) (sound : Sound ⟨position, stage⟩)
    (rooms : room stage + 2 ≤ room f.stage) :
    Known place s initial (log ++ [.asked pending command r]) pending'
      (.fetching max block ⟨position, stage⟩) := by
  have trail := known.trail
  rw [Activity.ahead, finished] at trail
  have books := known.books
  rw [Activity.owed, free] at books
  refine ⟨?_, fun h => absurd passed h, ⟨known.sound.1, sound⟩, ?_,
    guarded_append known.guarded fun _ => trail, ?_⟩
  · rw [reads_append read, Activity.ahead, passed]
    exact trail
  · rw [Activity.owed]
    exact books.append read (by rw [owes]; rfl) (by rw [owes, Event.acknowledged, asks])
  · have brief := known.brief
    rw [weight, if_pos (by rw [free]), reach_over finished] at brief
    rw [sent_asked, weight, reach_over passed]
    dsimp only
    split <;> omega

/-- What is known stays known when a fetch asks something and is answered. -/
theorem asks {command : Command} {cut : Option (Cut Fetch)} {resume : Redis.Result → Fetch}
    {r : Redis.Result} (sorted : InOrder place initial)
    (known : Known place s initial log pending (.fetching max block f))
    (turn : s.fetchTurn max block now f = .ask command cut resume)
    (answers : Answers place s pending command r pending') :
    Known place s initial (log ++ [.asked pending command r]) pending'
      (.fetching max block (resume r)) := by
  have acts : Acts s max now f (s.fetchTurn max block now f) := acts_fetchTurn known.sound.2
  rw [turn] at acts
  cases acts with
  | settles unread goes owes rooms sound =>
      cases answers with
      | @acknowledged _ _ n h =>
          exact known.settles unread (goes r) (owes r) (rooms r) (sound r n h)
  | replays free goes =>
      cases answers with
      | page h => exact known.replays sorted free goes h
  | sweeps free finished done rooms =>
      cases answers with
      | tookOver =>
          exact known.passes free finished rfl rfl rfl rfl done (Nat.le_of_eq rooms.symm)
  | polls free finished done rooms =>
      cases answers with
      | readNew => exact known.passes free finished rfl rfl rfl rfl done rooms

theorem of_runs (sorted : InOrder place initial)
    (runs : Runs place s initial log pending activity) :
    Known place s initial log pending activity := by
  induction runs with
  | start => exact start
  | acked before ids ih => exact ih.acked ids
  | begins before positive block ih => exact ih.begins positive
  | asks before now turn answers ih => exact ih.asks sorted turn answers
  | ends before now turn ih => exact ih.ends turn

end Known

end

end Settlement.Queue.Stream.Replay
