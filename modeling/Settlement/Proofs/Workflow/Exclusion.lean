import Settlement.Proofs.Workflow.Guild

/-!
# One verification of a payment at a time

Any number of messages are worked on over one table of locks, on a clock. The table is held to what
it does; chains, store and mailbox may answer anything, and the chains may take as long as they take
(`LockTable.Answers`). The workers begin at any instants and may be cancelled at any.
-/

namespace Settlement.Workflow

open Settlement.System

/-- The workers begin at any instants and have asked for nothing. The table may hold any keys. -/
structure Dawn (start : Guild) : Prop where
  fresh : start.log = []
  begins : ∀ worker ∈ start.workers, worker.status.stage? = some .received

section

variable {verifier : Nat → Verifier} {body : Nat → ByteArray} {start sys : Guild}

theorem Dawn.received (dawn : Dawn start) {i : Nat} {wake : Instant} {stage : Stage}
    (hturn : start.turn? i = some (wake, stage)) : stage = .received := by
  obtain ⟨worker, hworker, hstage⟩ := turn?_eq_some hturn
  have hbegins := dawn.begins worker (List.mem_of_getElem? hworker)
  exact Option.some.inj (hstage.symm.trans hbegins)

theorem Dawn.orderly (dawn : Dawn start) : Orderly verifier body start := by
  have empty : ∀ entry, entry ∉ start.log := by
    intro entry hentry
    rw [dawn.fresh] at hentry
    cases hentry
  have idle : ∀ i lease, ¬ Carries start i lease := by
    rintro i lease ⟨wake, stage, hturn, hlease⟩
    rw [dawn.received hturn] at hlease
    cases hlease
  exact {
    idle := fun _ _ _ entry hentry => absurd hentry (empty entry)
    kept := fun _ _ _ _ granted => absurd granted (empty _)
    lasts := fun _ _ _ _ granted => absurd granted (empty _)
    held := fun i lease h => absurd h (idle i lease)
    apart := fun i _ _ lease _ h => absurd h (idle i lease) }

theorem orderly_of_ticks (dawn : Dawn start)
    (h : Ticks (turns verifier body) LockTable.Answers start sys) : Orderly verifier body sys := by
  induction h with
  | refl => exact dawn.orderly
  | tail _ beat ih =>
      obtain ⟨index, beat⟩ := beat
      have instantly : ∀ now locks (call : Call) (answer : Answer LockTable call.Reply),
          LockTable.Answers now locks call answer → call.Prompt → answer.delay.nanos = 0 :=
        fun _ _ _ _ => LockTable.instantly_of_answers
      obtain ⟨now, stage, due, clock, others, stroke⟩ := beat.spec instantly
      exact ih.next due others (shift_of_stroke stroke clock)

/-- Whoever is at work on a granted lease carries it. -/
theorem Orderly.carries (order : Orderly verifier body sys) {i : Nat} {lease : Lease}
    (h : Holds sys i lease) : Carries sys i lease := by
  obtain ⟨⟨first, ttl, granted⟩, kept, wake, stage, hturn⟩ := h
  rcases order.kept i first ttl lease granted wake stage hturn with carried | given
  · exact ⟨wake, stage, hturn, carried⟩
  · exact absurd given kept

/-- No two workers on the same payment of a chain are ever at work between the grant of a lease and
the moment it is given back. -/
theorem Orderly.excludes (order : Orderly verifier body sys) {i j : Nat}
    {request request' : Request} {lease lease' : Lease} (hij : i ≠ j)
    (hi : Reads verifier body i request) (hj : Reads verifier body j request')
    (chain : (verifier i).chain = (verifier j).chain) (user : request.user = request'.user)
    (number : request.number = request'.number) : ¬ (Holds sys i lease ∧ Holds sys j lease') := by
  rintro ⟨hlease, hlease'⟩
  have key : ∀ {k : Nat} {r : Request} {l : Lease}, Reads verifier body k r → Holds sys k l →
      l.key = lockKey (verifier k).chain.name r.user r.number := by
    intro k r l hread holds
    obtain ⟨-, -, r', -, -, hread', hkey, -⟩ := order.held k l (order.carries holds)
    obtain rfl : r = r' := Except.ok.inj (hread.symm.trans hread')
    exact hkey
  refine order.apart i j hij _ _ (order.carries hlease) (order.carries hlease') ?_
  rw [key hi hlease, key hj hlease', chain, user, number]

/-- A worker that is at work is in time. -/
theorem Orderly.now_le (order : Orderly verifier body sys) {i : Nat} {first : Instant}
    {ttl length : Duration} {lease : Lease} (granted : Granted sys i first ttl lease)
    (longest : (verifier i).maxDuration? = some length) {due : Instant × Stage}
    (hturn : sys.turn? i = some due) : sys.now ≤ first + length.nanos := by
  obtain ⟨length', longest', -, -, lasts⟩ := order.lasts i first ttl lease granted
  obtain rfl := Option.some.inj (longest.symm.trans longest')
  exact Nat.le_trans (now_le_turn? hturn) ((lasts due.1 due.2 hturn).le longest)

theorem released_of_ticks (dawn : Dawn start)
    (h : Ticks (turns verifier body) LockTable.Answers start sys) {i : Nat} {first : Instant}
    {ttl : Duration} {lease : Lease} (granted : Granted sys i first ttl lease) {outcome : Outcome}
    (ended : sys.result? i = some outcome) :
    ∃ r before, sys.askedBy i = Contact.release lease r :: before ∧
      ∀ a ∈ before, ∀ other, a.call ≠ .release other := by
  have done := done_of_ends (ends_of_begun h.reaches dawn.fresh dawn.begins ended)
  have hasked : Contact.acquire lease.key ttl (.ok (some lease)) ∈ sys.askedBy i :=
    mem_askedBy.2 (List.mem_map_of_mem granted)
  exact released_of_done done hasked

variable (verifier body) in
/-- However the chains answer and however long they take, whenever the workers begin and are
cancelled: no two workers on the same payment of a chain are ever both at work on it under a lease.
The lease lasts strictly longer than a verification may; whoever is granted one asks for nothing
after that time, nor is at work then; and at the end the lease has been given back, once and after
everything else. -/
theorem lease_excludes (dawn : Dawn start)
    (h : Ticks (turns verifier body) LockTable.Answers start sys) :
    (∀ i j request request' lease lease', i ≠ j → Reads verifier body i request →
      Reads verifier body j request' → (verifier i).chain = (verifier j).chain →
      request.user = request'.user → request.number = request'.number →
      ¬ (Holds sys i lease ∧ Holds sys j lease')) ∧
    ∀ i first ttl lease, Granted sys i first ttl lease →
      (∃ length, (verifier i).maxDuration? = some length ∧ length.nanos < ttl.nanos ∧
        (∀ entry ∈ sys.log, entry.worker = i → entry.instant ≤ first + length.nanos) ∧
        ∀ due, sys.turn? i = some due → sys.now ≤ first + length.nanos) ∧
      ∀ outcome, sys.result? i = some outcome →
        ∃ r before, sys.askedBy i = Contact.release lease r :: before ∧
          ∀ a ∈ before, ∀ other, a.call ≠ .release other := by
  have order := orderly_of_ticks dawn h
  refine ⟨?_, ?_⟩
  · intro i j request request' lease lease' hij hi hj chain user number
    exact order.excludes hij hi hj chain user number
  · intro i first ttl lease granted
    refine ⟨?_, fun outcome ended => released_of_ticks dawn h granted ended⟩
    obtain ⟨length, longest, httl, inTime, -⟩ := order.lasts i first ttl lease granted
    have hslack : 0 < lockSlack.nanos := by decide
    refine ⟨length, longest, by omega, inTime, ?_⟩
    exact fun due hturn => order.now_le granted longest hturn

end

/-- A table of locks beside a node and a store that always answer the same. -/
def lockAnswer (node : Rehearsal.Node) (store : Store) (now : Instant) :
    (call : Call) → LockTable → Answer LockTable call.Reply
  | .acquire key ttl, locks =>
    ⟨.ok (locks.acquire now key ttl).1, ⟨0⟩, (locks.acquire now key ttl).2⟩
  | .release lease, locks => ⟨.ok (), ⟨0⟩, locks.release lease⟩
  | call, locks => ⟨(answerAt node call store).reply, (answerAt node call store).delay, locks⟩

theorem answers_lockAnswer (node : Rehearsal.Node) (store : Store) (now : Instant)
    (locks : LockTable) (call : Call) :
    LockTable.Answers now locks call (lockAnswer node store now call locks) := by
  cases call with
  | acquire key ttl => exact ⟨rfl, rfl, rfl⟩
  | release lease => exact ⟨rfl, rfl, rfl⟩
  | ethereum query => exact ⟨nofun, rfl⟩
  | dash query => exact ⟨nofun, rfl⟩
  | bitcoinCash query => exact ⟨nofun, rfl⟩
  | _ => exact ⟨fun _ => rfl, rfl⟩

namespace LateDelivery

def verifier : Verifier := .dash Sample.dashConfirmer

def body : ByteArray := "[1,\"alice\",\"forward\",1]".toUTF8

/-- A service that takes its time to answer. -/
def node : Rehearsal.Node :=
  { Sample.dashNode with forwards := some [⟨⟨5⟩, .ok [⟨"deposit", 100000000⟩]⟩] }

def machine : Machine Call Call.Reply LockTable Stage Outcome where
  turn := turn verifier body
  answer := fun now call locks =>
    lockAnswer node (Sample.store [Sample.dashPayment 1 "forward"]) now call locks

/-- A message, and a second delivery of it that comes a little later. -/
def start : Guild :=
  ⟨0, .empty, [.begin .received none, ⟨none, false, .waiting 2 0 .received⟩], 1, []⟩

def lease : Lease := ⟨"payment-lock:dash:alice:1", 0⟩

/-- The second delivery has asked for the lock. -/
def refused : Guild := run machine 4 start

def last : Guild := run machine 40 refused

theorem dawn_start : Dawn start where
  fresh := rfl
  begins := by
    intro worker hworker
    rcases List.mem_cons.1 hworker with rfl | hworker
    · rfl
    · rw [List.mem_singleton.1 hworker]
      rfl

end LateDelivery

open LateDelivery in
/-- While a message is worked on under a lease, a second delivery of it is not; at the end the lease
has been given back. -/
theorem lease_excludes_late_delivery :
    Dawn start ∧
      Ticks (turns (fun _ => verifier) (fun _ => body)) LockTable.Answers start refused ∧
      Ticks (turns (fun _ => verifier) (fun _ => body)) LockTable.Answers start last ∧
      Holds refused 0 lease ∧ (∀ lease', ¬ Holds refused 1 lease') ∧
      last.result? 0 = some (.confirmed ⟨20, 0⟩) ∧
      ∃ r before, last.askedBy 0 = Contact.release lease r :: before ∧
        ∀ a ∈ before, ∀ other, a.call ≠ .release other := by
  have keeps : machine.Keeps LockTable.Answers := fun now locks call =>
    answers_lockAnswer node (Sample.store [Sample.dashPayment 1 "forward"]) now locks call
  have h : Ticks (turns (fun _ => verifier) (fun _ => body)) LockTable.Answers start refused :=
    ticks_run keeps 4 start
  have h' : Ticks (turns (fun _ => verifier) (fun _ => body)) LockTable.Answers refused last :=
    ticks_run keeps 40 refused
  have hlease : (refused.turn? 0).bind (fun due => due.2.lease?) = some lease := by decide +kernel
  obtain ⟨⟨wake, stage⟩, hturn, carried⟩ := Option.bind_eq_some_iff.1 hlease
  obtain ⟨first, ttl, request, token, granted, read, -⟩ :=
    (orderly_of_ticks dawn_start h).held 0 lease ⟨wake, stage, hturn, carried⟩
  have kept : ∀ entry ∈ refused.log, ¬ (entry.worker = 0 ∧ entry.call = .release lease) := by
    decide +kernel
  have holds : Holds refused 0 lease := by
    refine ⟨⟨first, ttl, granted⟩, ?_, wake, stage, hturn⟩
    rintro ⟨entry, hentry, hback⟩
    exact kept entry hentry hback
  have ended : last.result? 0 = some (.confirmed ⟨20, 0⟩) := by decide +kernel
  obtain ⟨excludes, -⟩ := lease_excludes (fun _ => verifier) (fun _ => body) dawn_start h
  obtain ⟨-, released⟩ := lease_excludes (fun _ => verifier) (fun _ => body) dawn_start (h.trans h')
  refine ⟨dawn_start, h, h.trans h', holds, ?_, ended, ?_⟩
  · intro lease' holds'
    exact excludes 0 1 request request lease lease' (by decide) read read rfl rfl rfl
      ⟨holds, holds'⟩
  · exact (released 0 first ttl lease (h'.mem_log granted)).2 _ ended

end Settlement.Workflow
