import Settlement.Proofs.Locks.History
import Settlement.Proofs.Locks.Keys
import Settlement.Proofs.Workflow.Exclusion

/-!
# Who is refused a lock

A key tells the chain, the user and the number of its payment (`lockKey_eq_iff`), so a lock that is
held keeps out the work on the same payment and nothing else. The log of the calls tells the history
of the table (`history_of_ticks`), and for each call in it what its worker had asked before
(`call_of_log`). So a worker is refused the lock of its payment exactly when another one on that
payment occupies it: it was granted a lease, the lease has not ended, and it has not given it back.

Nothing is assumed of how long a call takes, and calls to the table may fail.
-/

namespace Settlement

namespace Entry

/-- A worker asked for the lock of a key, for a time. -/
abbrev acquire (now : Instant) (worker : Nat) (key : String) (ttl : Duration)
    (r : Except LockError (Option Lease)) : Entry Call Call.Reply :=
  ⟨now, worker, .acquire key ttl, r⟩

abbrev release (now : Instant) (worker : Nat) (lease : Lease) (r : Except LockError Unit) :
    Entry Call Call.Reply :=
  ⟨now, worker, .release lease, r⟩

end Entry

namespace Workflow

open LockTable (Deed History Live MayAnswer)
open Settlement.System

/-- The calls that workers have made, latest first. -/
abbrev Log := List (Entry Call Call.Reply)

/-- What was done with the table by a call; a call that failed has done nothing. -/
def deed? : Entry Call Call.Reply → Option Deed
  | ⟨now, _, .acquire key ttl, .ok granted⟩ => some (.ofAcquire key now ttl granted)
  | ⟨_, _, .release lease, .ok ()⟩ => some (.returned lease)
  | _ => none

/-- What was done with the table, latest first. -/
def deeds (log : Log) : List Deed := log.filterMap deed?

/-- At `now` the worker at `i` occupies the lock of its payment: it was granted a lease that has not
ended, and it has not given it back. -/
def Occupies (log : Log) (now : Instant) (i : Nat) : Prop :=
  ∃ first ttl lease, .acquire first i lease.key ttl (.ok (some lease)) ∈ log ∧
    now < first + ttl.nanos ∧ ∀ instant, .release instant i lease (.ok ()) ∉ log

/-- The messages of two workers are for one payment: on one chain, of one user, and of one
number. -/
def SamePayment (verifier : Nat → Verifier) (body : Nat → ByteArray) (i j : Nat) : Prop :=
  ∃ request request', Reads verifier body i request ∧ Reads verifier body j request' ∧
    (verifier i).chain = (verifier j).chain ∧ request.user = request'.user ∧
    request.number = request'.number

/-- What the worker at `i` may ask of the locks after the calls in the log: first of all for the
lock of the payment of its request, and later to take back the lease that it was granted. -/
def Rightful (verifier : Nat → Verifier) (body : Nat → ByteArray) (log : Log) (i : Nat) :
    Call → Prop
  | .acquire key _ => (∀ entry ∈ log, entry.worker ≠ i) ∧ ∃ request,
      Reads verifier body i request ∧
        key = lockKey (verifier i).chain.name request.user request.number
  | .release lease => ∃ first key ttl, .acquire first i key ttl (.ok (some lease)) ∈ log
  | _ => True

/-- What a turn of the worker at `i` comes to for the table and the log. -/
inductive Dealing (verifier : Nat → Verifier) (body : Nat → ByteArray) (i : Nat)
    (before after : Guild) : Prop
  | still (log : after.log = before.log) (world : after.world = before.world)
  | asks {call : Call} {answer : Answer LockTable call.Reply}
      (rightful : Rightful verifier body before.log i call)
      (log : after.log = ⟨after.now, i, call, answer.reply⟩ :: before.log)
      (allowed : MayAnswer after.now before.world call answer)
      (world : after.world = answer.world)

section

variable {verifier : Nat → Verifier} {body : Nat → ByteArray} {start sys before after : Guild}
  {log earlier later : Log} {lease : Lease} {first first' since now : Instant}
  {ttl ttl' : Duration} {key key' : String} {i j : Nat}

/-! ## The log and the history of the table -/

theorem granted_mem_deeds : .granted lease since ttl ∈ deeds log ↔
    ∃ i key, .acquire since i key ttl (.ok (some lease)) ∈ log := by
  rw [deeds, List.mem_filterMap]
  constructor
  · rintro ⟨⟨instant, i, call, r⟩, hentry, hdeed⟩
    cases call with
    | acquire key' ttl' =>
        rcases r with e | _ | lease'
        · cases hdeed
        · cases hdeed
        · cases hdeed
          exact ⟨i, key', hentry⟩
    | release lease' => rcases r with e | ⟨⟩ <;> cases hdeed
    | _ => cases hdeed
  · rintro ⟨i, key, hentry⟩
    exact ⟨_, hentry, rfl⟩

theorem returned_mem_deeds : .returned lease ∈ deeds log ↔
    ∃ instant i, .release instant i lease (.ok ()) ∈ log := by
  rw [deeds, List.mem_filterMap]
  constructor
  · rintro ⟨⟨instant, i, call, r⟩, hentry, hdeed⟩
    cases call with
    | acquire key ttl => rcases r with e | _ | lease' <;> cases hdeed
    | release lease' =>
        rcases r with e | ⟨⟩
        · cases hdeed
        · cases hdeed
          exact ⟨instant, i, hentry⟩
    | _ => cases hdeed
  · rintro ⟨instant, i, hentry⟩
    exact ⟨_, hentry, rfl⟩

/-- Whoever begins has asked for nothing yet; whoever has a lease was granted it. -/
theorem rightful_of_custody {stage next : Stage} {call : Call} {r : call.Reply}
    (track : Track (verifier i) (body i) (sys.askedBy i) stage)
    (custody : Custody (verifier i) (body i) stage [⟨call, r⟩] next) :
    Rightful verifier body sys.log i call := by
  generalize hasked : ([⟨call, r⟩] : List Contact) = asked at custody
  cases custody with
  | @takes request ttl r' first read length =>
      cases hasked
      subst first
      refine ⟨?_, request, read, rfl⟩
      rintro ⟨instant, worker, call, r⟩ hentry rfl
      have hmem : (⟨call, r⟩ : Contact) ∈ sys.askedBy worker :=
        mem_askedBy.2 (List.mem_map_of_mem hentry)
      generalize sys.askedBy worker = asked at track hmem
      cases track
      cases hmem
  | @gives lease outcome r' held =>
      cases hasked
      obtain ⟨key, ttl, hfilter⟩ := leased_of_track track held
      have hgranted : Contact.acquire key ttl (.ok (some lease)) ∈ sys.askedBy i := by
        apply List.mem_of_mem_filter
        rw [hfilter]
        exact List.mem_singleton_self _
      obtain ⟨⟨first, worker, call, r⟩, hentry, heq⟩ := List.mem_map.1 (mem_askedBy.1 hgranted)
      cases heq
      exact ⟨first, key, ttl, hentry⟩
  | keeps unlocking same begun =>
      subst hasked
      have hcall := unlocking _ List.mem_cons_self
      cases call with
      | acquire key ttl => cases hcall
      | release lease => cases hcall
      | _ => trivial

/-- What a turn that is due comes to. -/
theorem dealing_of_beat (dawn : Dawn start)
    (h : Ticks (turns verifier body) MayAnswer start before)
    (beat : Beats (turns verifier body) MayAnswer i before after) :
    before.now ≤ after.now ∧ Dealing verifier body i before after := by
  -- no call has to be prompt
  have noPrompt : ∀ now locks (call : Call) (answer : Answer LockTable call.Reply),
      MayAnswer now locks call answer → False → answer.delay.nanos = 0 :=
    fun _ _ _ _ _ => False.elim
  obtain ⟨now, stage, due, clock, -, stroke⟩ := beat.spec noPrompt
  refine ⟨clock ▸ now_le_turn? due.1, ?_⟩
  have track : Track (verifier i) (body i) (before.askedBy i) stage :=
    track_of_course (course_of_begun h.reaches dawn.fresh dawn.begins due.1)
  cases stroke with
  | ends turn log world => exact .still log world
  | waits turn goes log world => exact .still log world
  | asks turn goes log allowed world =>
      exact .asks (rightful_of_custody track (custody_of_leads goes.leads)) log allowed world

theorem Dealing.history (dealing : Dealing verifier body i before after)
    (history : History before.world after.now (deeds before.log)) :
    History after.world after.now (deeds after.log) := by
  cases dealing with
  | still log world =>
      rw [log, world]
      exact history
  | @asks call answer rightful log allowed world =>
      rw [log, world]
      obtain ⟨r, delay, locks⟩ := answer
      cases call with
      | acquire key ttl =>
          rcases allowed with ⟨hr, hlocks⟩ | ⟨⟨e, hr⟩, hlocks⟩
          · cases hr
            cases hlocks
            exact history.acquire key ttl
          · cases hr
            cases hlocks
            exact history
      | release lease =>
          rcases allowed with ⟨hr, hlocks⟩ | ⟨⟨e, hr⟩, hlocks⟩
          · cases hr
            cases hlocks
            obtain ⟨first, key, ttl, hgranted⟩ := rightful
            exact history.release (granted_mem_deeds.2 ⟨i, key, hgranted⟩)
          · cases hr
            cases hlocks
            exact history
      | _ =>
          cases allowed
          exact history

/-- The log tells the history of a table that was empty at first. -/
theorem history_of_ticks (dawn : Dawn start) (empty : start.world = .empty)
    (h : Ticks (turns verifier body) MayAnswer start sys) :
    History sys.world sys.now (deeds sys.log) := by
  induction h with
  | refl =>
      rw [empty, dawn.fresh]
      exact .start _
  | tail ticks beat ih =>
      obtain ⟨index, beat⟩ := beat
      obtain ⟨le, dealing⟩ := dealing_of_beat dawn ticks beat
      exact dealing.history (ih.wait le)

/-- A call in the log was one that its worker might make, and the table answered it as it was after
the calls before. -/
theorem call_of_log (dawn : Dawn start) (h : Ticks (turns verifier body) MayAnswer start sys)
    {entry : Entry Call Call.Reply} (log : sys.log = later ++ entry :: earlier) :
    ∃ before delay world, Ticks (turns verifier body) MayAnswer start before ∧
      before.log = earlier ∧ before.now ≤ entry.instant ∧
      Rightful verifier body earlier entry.worker entry.call ∧
      MayAnswer entry.instant before.world entry.call ⟨entry.reply, delay, world⟩ := by
  obtain ⟨index, before, after, ticks, beat, rfl, hafter⟩ := h.exists_beat dawn.fresh log
  obtain ⟨le, dealing⟩ := dealing_of_beat dawn ticks beat
  cases dealing with
  | still same => simp [same] at hafter
  | asks rightful grown allowed =>
      obtain ⟨rfl, -⟩ := List.cons.inj (hafter.symm.trans grown)
      exact ⟨before, _, _, ticks, rfl, le, rightful, allowed⟩

/-- Whoever is told about a lock has asked for that of its payment, and for nothing before. -/
theorem acquired_of_log (dawn : Dawn start) (h : Ticks (turns verifier body) MayAnswer start sys)
    {r : Option Lease} (log : sys.log = later ++ Entry.acquire now i key ttl (.ok r) :: earlier) :
    ∃ before, Ticks (turns verifier body) MayAnswer start before ∧ before.log = earlier ∧
      before.now ≤ now ∧ Rightful verifier body earlier i (.acquire key ttl) ∧
      (before.world.acquire now key ttl).1 = r := by
  obtain ⟨before, delay, world, ticks, hlog, le, rightful, allowed⟩ := call_of_log dawn h log
  rcases allowed with ⟨hr, -⟩ | ⟨⟨e, hr⟩, -⟩
  · exact ⟨before, ticks, hlog, le, rightful, (Except.ok.inj hr).symm⟩
  · cases hr

/-! ## Leases and their holders -/

/-- A lease is for the key of the payment of its holder. -/
theorem key_of_granted (dawn : Dawn start) (h : Ticks (turns verifier body) MayAnswer start sys)
    (granted : .acquire first i key ttl (.ok (some lease)) ∈ sys.log) :
    lease.key = key ∧ ∃ request, Reads verifier body i request ∧
      key = lockKey (verifier i).chain.name request.user request.number := by
  obtain ⟨later, earlier, log⟩ := List.append_of_mem granted
  obtain ⟨before, -, -, -, ⟨-, own⟩, hacquire⟩ := acquired_of_log dawn h log
  exact ⟨(LockTable.acquired hacquire).1, own⟩

/-- A lease that is granted was not granted before. -/
theorem new_of_granted (dawn : Dawn start) (empty : start.world = .empty)
    (h : Ticks (turns verifier body) MayAnswer start sys)
    (log : sys.log = later ++ Entry.acquire first i key ttl (.ok (some lease)) :: earlier) :
    .acquire first' j key' ttl' (.ok (some lease)) ∉ earlier := by
  intro hmem
  obtain ⟨before, ticks, rfl, le, -, hacquire⟩ := acquired_of_log dawn h log
  have faithful := ((history_of_ticks dawn empty ticks).wait le).faithful
  obtain ⟨-, apart⟩ := faithful.new_of_acquire hacquire
  exact apart lease first' ttl' (granted_mem_deeds.2 ⟨j, key', hmem⟩) rfl

/-- A lease has one holder. -/
theorem holder_unique (dawn : Dawn start) (empty : start.world = .empty)
    (h : Ticks (turns verifier body) MayAnswer start sys)
    (granted : .acquire first i key ttl (.ok (some lease)) ∈ sys.log)
    (granted' : .acquire first' j key' ttl' (.ok (some lease)) ∈ sys.log) : i = j := by
  obtain ⟨later, earlier, log⟩ := List.append_of_mem granted
  rw [log] at granted'
  rcases List.mem_append.1 granted' with hlater | hearlier
  · -- the second grant is the later one, and the first one lies before it
    obtain ⟨later, between, rfl⟩ := List.append_of_mem hlater
    rw [List.append_assoc, List.cons_append] at log
    exact absurd (List.mem_append_right between List.mem_cons_self)
      (new_of_granted dawn empty h log)
  · rcases List.mem_cons.1 hearlier with heq | hearlier
    · cases heq
      rfl
    · exact absurd hearlier (new_of_granted dawn empty h log)

/-- A lease is given back by its holder only. -/
theorem holder_of_returned (dawn : Dawn start) (empty : start.world = .empty)
    (h : Ticks (turns verifier body) MayAnswer start sys) {instant : Instant}
    {r : Except LockError Unit} (granted : .acquire first i key ttl (.ok (some lease)) ∈ sys.log)
    (returned : .release instant j lease r ∈ sys.log) : i = j := by
  obtain ⟨later, earlier, log⟩ := List.append_of_mem returned
  obtain ⟨-, -, -, -, -, -, ⟨first', key', ttl', hearlier⟩, -⟩ := call_of_log dawn h log
  have granted' : .acquire first' j key' ttl' (.ok (some lease)) ∈ sys.log := by
    rw [log]
    exact List.mem_append_right _ (List.mem_cons_of_mem _ hearlier)
  exact holder_unique dawn empty h granted granted'

/-- The lock of a payment has a live lease exactly while a worker on that payment occupies it. -/
theorem live_iff_occupies (dawn : Dawn start) (empty : start.world = .empty)
    (h : Ticks (turns verifier body) MayAnswer start sys) {request : Request}
    (read : Reads verifier body j request) :
    (∃ lease, lease.key = lockKey (verifier j).chain.name request.user request.number ∧
      Live (deeds sys.log) now lease) ↔
      ∃ i, SamePayment verifier body i j ∧ Occupies sys.log now i := by
  constructor
  · rintro ⟨lease, hkey, first, ttl, hgranted, kept, hnow⟩
    obtain ⟨i, key, granted⟩ := granted_mem_deeds.1 hgranted
    obtain ⟨rfl, request', read', hkey'⟩ := key_of_granted dawn h granted
    have same := lockKey_eq_iff.1 (hkey'.symm.trans hkey)
    refine ⟨i, ⟨request', request, read', read, same⟩, first, ttl, lease, granted, hnow, ?_⟩
    exact fun instant returned => kept (returned_mem_deeds.2 ⟨instant, i, returned⟩)
  · rintro ⟨i, ⟨request', other, read', hother, same⟩, first, ttl, lease, granted, hnow, kept⟩
    obtain rfl : request = other := Except.ok.inj (read.symm.trans hother)
    obtain ⟨-, own, hown, hkey⟩ := key_of_granted dawn h granted
    obtain rfl : request' = own := Except.ok.inj (read'.symm.trans hown)
    refine ⟨lease, hkey.trans (lockKey_eq_iff.2 same), first, ttl,
      granted_mem_deeds.2 ⟨i, _, granted⟩, ?_, hnow⟩
    intro hreturned
    obtain ⟨instant, k, returned⟩ := returned_mem_deeds.1 hreturned
    obtain rfl := holder_of_returned dawn empty h granted returned
    exact kept instant returned

end

/-- The keys of two payments are the same only if their chains, users and numbers are, whatever the
names of the users. So whenever a worker is told about the lock that it has asked for, that is the
lock of its payment, and the worker is refused it exactly if another one on the same payment
occupies it. -/
theorem refused_iff_occupied :
    (∀ (chain chain' : Blockchain) (user user' : String) (number number' : Int),
      lockKey chain.name user number = lockKey chain'.name user' number' ↔
        chain = chain' ∧ user = user' ∧ number = number') ∧
    ∀ (verifier : Nat → Verifier) (body : Nat → ByteArray) (start sys : Guild), Dawn start →
      start.world = .empty → Ticks (turns verifier body) MayAnswer start sys →
      ∀ (later earlier : Log) (now : Instant) (j : Nat) (key : String) (ttl : Duration)
        (r : Option Lease), sys.log = later ++ Entry.acquire now j key ttl (.ok r) :: earlier →
        (∃ request, Reads verifier body j request ∧
          key = lockKey (verifier j).chain.name request.user request.number) ∧
        (r = none ↔ ∃ i, i ≠ j ∧ SamePayment verifier body i j ∧ Occupies earlier now i) := by
  refine ⟨fun _ _ _ _ _ _ => lockKey_eq_iff, ?_⟩
  intro verifier body start sys dawn empty h later earlier now j key ttl r log
  obtain ⟨before, ticks, rfl, le, ⟨fresh, request, read, rfl⟩, rfl⟩ := acquired_of_log dawn h log
  have faithful := ((history_of_ticks dawn empty ticks).wait le).faithful
  refine ⟨⟨request, read, rfl⟩, ?_⟩
  rw [← Option.not_isSome_iff_eq_none, faithful.isSome_acquire_iff, not_not,
    live_iff_occupies dawn empty ticks read]
  constructor
  · rintro ⟨i, same, occupies⟩
    have hother : i ≠ j := by
      obtain ⟨first, ttl', lease, granted, -⟩ := occupies
      exact fresh _ granted
    exact ⟨i, hother, same, occupies⟩
  · rintro ⟨i, -, same, occupies⟩
    exact ⟨i, same, occupies⟩

/-! Two deliveries for one payment, and between them one for the payment of a user whose name goes
on where the key of that payment ends. -/

namespace SimilarNames

def verifier : Nat → Verifier := fun _ => .dash Sample.dashConfirmer

def request : Nat → Request
  | 1 => .dash ⟨1, "alice:-1", "forward", 1⟩
  | _ => .dash ⟨1, "alice", "forward", -1⟩

def body : Nat → ByteArray
  | 1 => "[1,\"alice:-1\",\"forward\",1]".toUTF8
  | _ => "[1,\"alice\",\"forward\",-1]".toUTF8

def machine (i : Nat) : Machine Call Call.Reply LockTable Stage Outcome where
  turn := turn (verifier i) (body i)
  answer := fun now call locks => lockAnswer Sample.dashNode (Sample.store []) now call locks

def key (i : Nat) : String := lockKey "dash" (request i).user (request i).number

def ttl : Duration := ⟨300000001000⟩

/-- The worker at `i` takes its first turn. -/
def ask (i : Nat) (sys : Guild) : Guild := advance (machine i) sys i .received

def start : Guild :=
  ⟨0, .empty, [.begin .received none, .begin .received none, .begin .received none], 0, []⟩

def first : Guild := ask 0 start

def second : Guild := ask 1 first

def third : Guild := ask 2 second

def told (i : Nat) (r : Option Lease) : Entry Call Call.Reply := .acquire 0 i (key i) ttl (.ok r)

theorem dawn : Dawn start where
  fresh := rfl
  begins := by
    intro worker hworker
    simp only [start, List.mem_cons, List.not_mem_nil, or_false, or_self] at hworker
    rw [hworker]
    rfl

theorem reads : ∀ i < 3, Request.ofBody? .dash (body i) = .ok (request i) := by decide +kernel

theorem turn_received {i : Nat} (h : i < 3) (now : Instant) : (machine i).turn now .received =
    .ask (.acquire (key i) ttl) none (.leased (request i)) := by
  have hread : Request.ofBody? (verifier i).chain (body i) = .ok (request i) := reads i h
  have hversion : (request i).version = messageVersion := by
    unfold request
    split <;> rfl
  have hlength : lockTtl? (verifier i) = some ttl :=
    (by decide +kernel : lockTtl? (.dash Sample.dashConfirmer) = some ttl)
  simp only [machine, turn, receive, hread, hversion, hlength, ne_eq, not_true_eq_false, if_false]
  rfl

theorem ask_spec {i : Nat} (h : i < 3) (sys : Guild) (hnow : sys.now = 0) :
    (ask i sys).now = 0 ∧ (ask i sys).world = (sys.world.acquire 0 (key i) ttl).2 ∧
      (ask i sys).log = told i (sys.world.acquire 0 (key i) ttl).1 :: sys.log := by
  simp only [ask, advance, turn_received h, hnow]
  exact ⟨hnow, rfl, rfl⟩

theorem beat {i : Nat} {sys : Guild} (hnow : sys.now = 0)
    (hturn : sys.turn? i = some (0, .received)) :
    Beats (turns verifier body) MayAnswer i sys (ask i sys) := by
  refine ⟨machine i, 0, .received, rfl, ?_, ⟨hturn, fun _ _ _ _ => Nat.zero_le _⟩, ?_⟩
  · exact fun now locks call => LockTable.mayAnswer_of_answers (answers_lockAnswer _ _ _ _ _)
  · rw [← hnow]
    rfl

theorem ticks : Ticks (turns verifier body) MayAnswer start third := by
  have hzero : (0 : Nat) < 3 := by decide
  have hone : (1 : Nat) < 3 := by decide
  have hfirst : first.now = 0 := (ask_spec hzero start rfl).1
  have hsecond : second.now = 0 := (ask_spec hone first hfirst).1
  have hturn : first.turn? 1 = some (0, .received) := by
    simp only [first, ask, advance, turn_received hzero]
    rfl
  have hturn' : second.turn? 2 = some (0, .received) := by
    simp only [second, first, ask, advance, turn_received hzero, turn_received hone]
    rfl
  have h : Ticks (turns verifier body) MayAnswer start first := .single ⟨0, beat rfl rfl⟩
  exact (h.tail ⟨1, beat hfirst hturn⟩).tail ⟨2, beat hsecond hturn'⟩

theorem log_third : third.log =
    [told 2 none, told 1 (some ⟨key 1, 1⟩), told 0 (some ⟨key 0, 0⟩)] := by
  obtain ⟨hfirst, hworld, hlog⟩ := ask_spec (by decide : 0 < 3) start rfl
  obtain ⟨hsecond, hworld', hlog'⟩ := ask_spec (by decide : 1 < 3) first hfirst
  obtain ⟨-, -, hlog''⟩ := ask_spec (by decide : 2 < 3) second hsecond
  rw [third, hlog'', second, hworld', hlog', first, hworld, hlog]
  have granted : (start.world.acquire 0 (key 0) ttl).1 = some ⟨key 0, 0⟩ := by decide +kernel
  have granted' : ((start.world.acquire 0 (key 0) ttl).2.acquire 0 (key 1) ttl).1 =
      some ⟨key 1, 1⟩ := by decide +kernel
  have refused : (((start.world.acquire 0 (key 0) ttl).2.acquire 0 (key 1) ttl).2.acquire 0
      (key 2) ttl).1 = none := by decide +kernel
  rw [granted, granted', refused]
  rfl

end SimilarNames

open SimilarNames in
/-- The second delivery is let in, for nobody is on its payment; the third one is refused, because
the first one is on the same payment. -/
theorem refused_iff_occupied_similar_names :
    Dawn start ∧ start.world = .empty ∧ Ticks (turns verifier body) MayAnswer start third ∧
      third.log = [told 2 none, told 1 (some ⟨key 1, 1⟩), told 0 (some ⟨key 0, 0⟩)] ∧
      (∃ i, i ≠ 2 ∧ SamePayment verifier body i 2 ∧
        Occupies [told 1 (some ⟨key 1, 1⟩), told 0 (some ⟨key 0, 0⟩)] 0 i) ∧
      ¬ ∃ i, i ≠ 1 ∧ SamePayment verifier body i 1 ∧
        Occupies [told 0 (some ⟨key 0, 0⟩)] 0 i := by
  refine ⟨dawn, rfl, ticks, log_third, ?_, ?_⟩
  · obtain ⟨-, refused⟩ := refused_iff_occupied.2 verifier body start third dawn rfl ticks []
      [told 1 (some ⟨key 1, 1⟩), told 0 (some ⟨key 0, 0⟩)] 0 2 (key 2) ttl none log_third
    exact refused.1 rfl
  · obtain ⟨-, granted⟩ := refused_iff_occupied.2 verifier body start third dawn rfl ticks
      [told 2 none] [told 0 (some ⟨key 0, 0⟩)] 0 1 (key 1) ttl (some ⟨key 1, 1⟩) log_third
    exact fun occupied => nomatch granted.2 occupied

end Workflow

end Settlement
