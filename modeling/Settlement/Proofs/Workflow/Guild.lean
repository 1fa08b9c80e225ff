import Settlement.Proofs.Clock
import Settlement.Proofs.Workflow.Crowd
import Settlement.Proofs.Workflow.Custody

/-!
# Workers and the locks they hold

`Orderly` is what every turn keeps of workers on messages over a table of locks: a lease was granted
to whoever carries it and still holds its key in the table, the work of its holder is in time, and
two holders have different keys. `Shift` lists what a turn does to the locks. A lease is never taken
over by another, because it ends later than the work can last (`Orderly.isHeld`).
-/

namespace Settlement

namespace Workflow

open Settlement.System

/-- Workers on messages over a table of locks. -/
abbrev Guild := System Call Call.Reply LockTable Stage Outcome

/-- The worker at `i` was granted a lease at `first` for the time `ttl`. -/
def Granted (sys : Guild) (i : Nat) (first : Instant) (ttl : Duration) (lease : Lease) : Prop :=
  (⟨first, i, .acquire lease.key ttl,
    (.ok (some lease) : Except LockError (Option Lease))⟩ : Entry Call Call.Reply) ∈ sys.log

/-- The worker at `i` has given a lease back. -/
def GaveBack (sys : Guild) (i : Nat) (lease : Lease) : Prop :=
  ∃ entry ∈ sys.log, entry.worker = i ∧ entry.call = .release lease

/-- The worker at `i` is at work between the grant of a lease and the moment it gives it back. -/
def Holds (sys : Guild) (i : Nat) (lease : Lease) : Prop :=
  (∃ first ttl, Granted sys i first ttl lease) ∧ ¬ GaveBack sys i lease ∧
    ∃ wake stage, sys.turn? i = some (wake, stage)

/-- The worker at `i` is at a stage at which it has a lease. -/
def Carries (sys : Guild) (i : Nat) (lease : Lease) : Prop :=
  ∃ wake stage, sys.turn? i = some (wake, stage) ∧ stage.lease? = some lease

/-- The request of the message that the worker at `i` is on. -/
def Reads (verifier : Nat → Verifier) (body : Nat → ByteArray) (i : Nat) (request : Request) :
    Prop :=
  Request.ofBody? (verifier i).chain (body i) = .ok request

/-- The worker at `i`, which was granted a lease at `first` for the time `ttl`, goes on in time and
has asked for nothing after it. -/
def InTime (verifier : Nat → Verifier) (sys : Guild) (i : Nat) (first : Instant) (ttl : Duration) :
    Prop :=
  ∃ length, (verifier i).maxDuration? = some length ∧
    ttl.nanos = length.nanos + lockSlack.nanos ∧
    (∀ entry ∈ sys.log, entry.worker = i → entry.instant ≤ first + length.nanos) ∧
    ∀ wake stage, sys.turn? i = some (wake, stage) → Lasts (verifier i) first length stage wake

/-- What holds of the workers and the locks at any time. -/
structure Orderly (verifier : Nat → Verifier) (body : Nat → ByteArray) (sys : Guild) : Prop where
  idle : ∀ i wake, sys.turn? i = some (wake, .received) → ∀ entry ∈ sys.log, entry.worker ≠ i
  kept : ∀ i first ttl lease, Granted sys i first ttl lease → ∀ wake stage,
    sys.turn? i = some (wake, stage) → stage.lease? = some lease ∨ GaveBack sys i lease
  lasts : ∀ i first ttl lease, Granted sys i first ttl lease → InTime verifier sys i first ttl
  held : ∀ i lease, Carries sys i lease → ∃ first ttl request token,
    Granted sys i first ttl lease ∧ Reads verifier body i request ∧
      lease.key = lockKey (verifier i).chain.name request.user request.number ∧
      sys.world.hold? lease.key = some ⟨token, first + ttl.nanos⟩
  apart : ∀ i j, i ≠ j → ∀ lease lease', Carries sys i lease → Carries sys j lease' →
    lease.key ≠ lease'.key

/-- The worker at `index` is granted a lease for the payment of its request. -/
structure Takes (verifier : Nat → Verifier) (body : Nat → ByteArray) (index : Nat) (now : Instant)
    (stage : Stage) (ttl : Duration) (lease : Lease) (request : Request) (sys sys' : Guild) :
    Prop where
  first : stage = .received
  read : Reads verifier body index request
  length : lockTtl? (verifier index) = some ttl
  key : lease.key = lockKey (verifier index).chain.name request.user request.number
  granted : (sys.world.acquire now lease.key ttl).1 = some lease
  turn : sys'.turn? index = some (now, .leased request (.ok (some lease)))
  log : sys'.log = ⟨now, index, .acquire lease.key ttl,
    (.ok (some lease) : Except LockError (Option Lease))⟩ :: sys.log
  world : sys'.world = (sys.world.acquire now lease.key ttl).2

/-- What a turn of the worker at `index` does to the locks, and what becomes of the worker. -/
inductive Shift (verifier : Nat → Verifier) (body : Nat → ByteArray) (index : Nat) (now : Instant)
    (stage : Stage) (sys sys' : Guild) : Prop
  | ends (turn : sys'.turn? index = none) (log : sys'.log = sys.log)
      (world : sys'.world = sys.world)
  | takes {ttl : Duration} {lease : Lease} {request : Request}
      (takes : Takes verifier body index now stage ttl lease request sys sys')
  | gives {lease : Lease} {outcome : Outcome} {wake : Instant} {asked : List Contact}
      (held : stage.lease? = some lease)
      (goes : (Workflow.turn (verifier index) (body index) now stage).Goes Call.Prompt now asked
        (.released outcome) wake)
      (turn : sys'.turn? index = some (wake, .released outcome))
      (log : sys'.log = ⟨now, index, .release lease, (.ok () : Except LockError Unit)⟩ :: sys.log)
      (world : sys'.world = sys.world.release lease)
  | keeps {next : Stage} {wake : Instant} {asked : List Contact}
      (same : next.lease? = stage.lease?) (begun : next ≠ .received)
      (goes : (Workflow.turn (verifier index) (body index) now stage).Goes Call.Prompt now asked
        next wake)
      (turn : sys'.turn? index = some (wake, next))
      (log : sys'.log = sys.log ∨ ∃ a : Contact,
        (∀ key ttl lease, a ≠ .acquire key ttl (.ok (some lease))) ∧
          sys'.log = ⟨now, index, a.call, a.reply⟩ :: sys.log)
      (world : sys'.world = sys.world)

section

variable {verifier : Nat → Verifier} {body : Nat → ByteArray} {index : Nat} {now : Instant}
  {stage : Stage} {sys sys' : Guild}

/-- The lock is asked for at once. -/
theorem goes_received {v : Verifier} {bytes : ByteArray} {asked : List Contact} {next : Stage}
    {wake : Instant}
    (goes : (turn v bytes now .received).Goes Call.Prompt now asked next wake) : wake = now := by
  have prompt : ∀ key ttl, (Call.acquire key ttl).Prompt := fun _ _ => rfl
  simp only [turn, receive] at goes
  split at goes
  next => exact goes.elim
  next =>
    split at goes
    next => exact goes.elim
    next =>
      split at goes
      next => exact goes.elim
      next => exact Turn.goes_prompt (prompt _ _) goes

/-- The lock is taken, or it is held and nothing changes. -/
theorem shift_of_acquire {ttl : Duration} {key : String} {request : Request}
    {asked : List Contact} {r : Option Lease} (read : Reads verifier body index request)
    (length : lockTtl? (verifier index) = some ttl)
    (hkey : key = lockKey (verifier index).chain.name request.user request.number)
    (acquire : (sys.world.acquire now key ttl).1 = r)
    (goes : (Workflow.turn (verifier index) (body index) now .received).Goes Call.Prompt now asked
      (.leased request (.ok r)) now)
    (turn : sys'.turn? index = some (now, .leased request (.ok r)))
    (log : sys'.log =
      ⟨now, index, .acquire key ttl, (.ok r : Except LockError (Option Lease))⟩ :: sys.log)
    (world : sys'.world = (sys.world.acquire now key ttl).2) :
    Shift verifier body index now .received sys sys' := by
  cases r with
  | none =>
      rw [LockTable.world_of_acquire acquire] at world
      refine .keeps ?_ ?_ goes turn (Or.inr ⟨.acquire key ttl (.ok none), ?_, log⟩) world
      · rfl
      · exact nofun
      · intro key' ttl' lease heq
        obtain ⟨-, -, hr⟩ := Contact.acquire_inj heq
        cases hr
  | some lease =>
      obtain rfl : lease.key = key := (LockTable.acquired acquire).1
      exact .takes ⟨rfl, read, length, hkey, acquire, turn, log, world⟩

/-- What a turn comes to is one of these. -/
theorem shift_of_stroke
    (h : Stroke Call.Prompt LockTable.Answers index (turns verifier body index now stage) sys sys')
    (clock : sys'.now = now) : Shift verifier body index now stage sys sys' := by
  subst clock
  cases h with
  | ends turn log world => exact .ends turn log world
  | waits turn goes log world =>
      generalize hasked : ([] : List Contact) = asked at goes
      cases custody_of_leads goes.leads with
      | takes r first read length => cases hasked
      | gives r held => cases hasked
      | keeps unlocking same begun => exact .keeps same begun goes turn (Or.inl log) world
  | @asks next wake call answer turn goes log allowed world =>
      obtain ⟨reply, delay, locks⟩ := answer
      generalize hasked : ([⟨call, reply⟩] : List Contact) = asked at goes
      cases custody_of_leads goes.leads with
      | @takes request ttl r first read length =>
          subst first
          obtain rfl := goes_received goes
          cases hasked
          obtain ⟨rfl, -, rfl⟩ := allowed
          exact shift_of_acquire read length rfl rfl goes turn log world
      | gives r held =>
          cases hasked
          obtain ⟨rfl, -, rfl⟩ := allowed
          exact .gives held goes turn log world
      | keeps unlocking same begun =>
          obtain rfl := hasked
          have hcall : call.isLock = false := unlocking _ List.mem_cons_self
          refine .keeps same begun goes turn (Or.inr ⟨⟨call, reply⟩, ?_, log⟩)
            (world.trans (LockTable.world_of_answers allowed hcall))
          intro key ttl lease heq
          obtain rfl : call = .acquire key ttl := congrArg Asked.call heq
          cases hcall

/-- A turn leaves the log as it is or adds what the worker has asked for. -/
theorem Shift.log (shift : Shift verifier body index now stage sys sys') :
    sys'.log = sys.log ∨ ∃ entry : Entry Call Call.Reply,
      entry.worker = index ∧ entry.instant = now ∧ sys'.log = entry :: sys.log := by
  cases shift with
  | ends turn log => exact Or.inl log
  | takes takes => exact Or.inr ⟨_, rfl, rfl, takes.log⟩
  | gives held goes turn log => exact Or.inr ⟨_, rfl, rfl, log⟩
  | keeps same begun goes turn log =>
      rcases log with log | ⟨a, -, log⟩
      · exact Or.inl log
      · exact Or.inr ⟨_, rfl, rfl, log⟩

theorem Shift.mem_log (shift : Shift verifier body index now stage sys sys')
    {entry : Entry Call Call.Reply} (h : entry ∈ sys.log) : entry ∈ sys'.log := by
  rcases shift.log with log | ⟨added, -, -, log⟩
  · rwa [log]
  · rw [log]
    exact List.mem_cons_of_mem _ h

theorem Shift.of_mem_log (shift : Shift verifier body index now stage sys sys')
    {entry : Entry Call Call.Reply} (h : entry ∈ sys'.log) :
    entry ∈ sys.log ∨ entry.worker = index ∧ entry.instant = now := by
  rcases shift.log with log | ⟨added, hworker, hinstant, log⟩
  · exact Or.inl (by rwa [log] at h)
  · rw [log] at h
    rcases List.mem_cons.1 h with rfl | h
    · exact Or.inr ⟨hworker, hinstant⟩
    · exact Or.inl h

/-- A lease that has been granted was granted before, or this turn takes it. -/
theorem Shift.granted (shift : Shift verifier body index now stage sys sys') {i : Nat}
    {first : Instant} {ttl : Duration} {lease : Lease} (h : Granted sys' i first ttl lease) :
    Granted sys i first ttl lease ∨ i = index ∧ first = now ∧
      ∃ request, Takes verifier body index now stage ttl lease request sys sys' := by
  unfold Granted at h
  cases shift with
  | ends turn log => exact Or.inl (by rwa [log] at h)
  | takes takes =>
      rw [takes.log] at h
      rcases List.mem_cons.1 h with heq | h
      · have hworker := congrArg Entry.worker heq
        have hinstant := congrArg Entry.instant heq
        have hasked := congrArg (fun entry => (⟨entry.call, entry.reply⟩ : Contact)) heq
        obtain ⟨-, rfl, hr⟩ := Contact.acquire_inj hasked
        obtain rfl := Option.some.inj (Except.ok.inj hr)
        exact Or.inr ⟨hworker, hinstant, _, takes⟩
      · exact Or.inl h
  | gives held goes turn log =>
      rw [log] at h
      rcases List.mem_cons.1 h with heq | h
      · cases heq
      · exact Or.inl h
  | keeps same begun goes turn log =>
      rcases log with log | ⟨a, other, log⟩
      · exact Or.inl (by rwa [log] at h)
      · rw [log] at h
        rcases List.mem_cons.1 h with heq | h
        · obtain ⟨call, r⟩ := a
          cases heq
          exact absurd rfl (other _ _ _)
        · exact Or.inl h

/-- A lease that is carried was carried before, or this turn takes it. -/
theorem Shift.carries (shift : Shift verifier body index now stage sys sys')
    (due : sys.Due index now stage) (others : ∀ i, i ≠ index → sys'.turn? i = sys.turn? i)
    {i : Nat} {lease : Lease} (h : Carries sys' i lease) :
    Carries sys i lease ∨ i = index ∧
      ∃ ttl request, Takes verifier body index now stage ttl lease request sys sys' := by
  obtain ⟨wake, stage', hturn, hlease⟩ := h
  by_cases hi : i = index
  · subst hi
    cases shift with
    | ends turn =>
        rw [turn] at hturn
        cases hturn
    | takes takes =>
        rw [takes.turn] at hturn
        cases hturn
        obtain rfl := Option.some.inj hlease
        exact Or.inr ⟨rfl, _, _, takes⟩
    | gives held goes turn =>
        rw [turn] at hturn
        cases hturn
        cases hlease
    | keeps same begun goes turn =>
        rw [turn] at hturn
        cases hturn
        exact Or.inl ⟨now, stage, due.1, same ▸ hlease⟩
  · rw [others i hi] at hturn
    exact Or.inl ⟨wake, stage', hturn, hlease⟩

/-- Whoever carries a lease holds its key in the table. -/
theorem Orderly.isHeld (order : Orderly verifier body sys) (due : sys.Due index now stage) {j : Nat}
    {lease : Lease} (h : Carries sys j lease) : sys.world.isHeld now lease.key := by
  obtain ⟨first, ttl, request, token, granted, -, -, hold⟩ := order.held j lease h
  obtain ⟨length, longest, httl, -, lasts⟩ := order.lasts j first ttl lease granted
  obtain ⟨wake, stage', hturn, -⟩ := h
  have hnow : now ≤ wake := due.2 j wake stage' hturn
  have hwake : wake ≤ first + length.nanos := (lasts wake stage' hturn).le longest
  have hslack : 0 < lockSlack.nanos := by decide
  refine LockTable.isHeld_of_hold? hold ?_
  rw [httl]
  grind

/-- What is granted is no key of a lease that is carried. -/
theorem Takes.key_ne {ttl : Duration} {lease lease' : Lease} {request : Request}
    (takes : Takes verifier body index now stage ttl lease request sys sys')
    (order : Orderly verifier body sys) (due : sys.Due index now stage) {j : Nat}
    (h : Carries sys j lease') : lease.key ≠ lease'.key := by
  intro heq
  have held := order.isHeld due h
  rw [← heq, (LockTable.acquired takes.granted).2.1] at held
  cases held

/-- A lease that is carried on keeps its key in the table. -/
theorem Shift.hold? (shift : Shift verifier body index now stage sys sys')
    (order : Orderly verifier body sys) (due : sys.Due index now stage) {j : Nat} {lease : Lease}
    (h : Carries sys j lease) (h' : Carries sys' j lease) :
    sys'.world.hold? lease.key = sys.world.hold? lease.key := by
  cases shift with
  | ends turn log world => rw [world]
  | takes takes =>
      rw [takes.world]
      exact LockTable.hold?_acquire_of_ne (takes.key_ne order due h).symm
  | @gives released outcome wake asked held goes turn log world =>
      have hj : j ≠ index := by
        rintro rfl
        obtain ⟨wake', stage', hturn, hlease⟩ := h'
        rw [turn] at hturn
        cases hturn
        cases hlease
      have carried : Carries sys index released := ⟨now, stage, due.1, held⟩
      rw [world]
      exact LockTable.hold?_release_of_ne (order.apart j index hj lease released h carried)
  | keeps same begun goes turn log world => rw [world]

theorem Shift.idle (shift : Shift verifier body index now stage sys sys')
    (order : Orderly verifier body sys) (others : ∀ i, i ≠ index → sys'.turn? i = sys.turn? i)
    {i : Nat} {wake : Instant} (hturn : sys'.turn? i = some (wake, .received)) :
    ∀ entry ∈ sys'.log, entry.worker ≠ i := by
  by_cases hi : i = index
  · subst hi
    -- no turn leads back to the beginning
    cases shift with
    | ends turn => cases turn.symm.trans hturn
    | takes takes => cases takes.turn.symm.trans hturn
    | gives held goes turn => cases turn.symm.trans hturn
    | keeps same begun goes turn =>
        cases turn.symm.trans hturn
        exact absurd rfl begun
  · rw [others i hi] at hturn
    intro entry hentry
    rcases shift.of_mem_log hentry with hentry | ⟨hworker, -⟩
    · exact order.idle i wake hturn entry hentry
    · exact hworker ▸ Ne.symm hi

theorem GaveBack.next (shift : Shift verifier body index now stage sys sys') {i : Nat}
    {lease : Lease} (h : GaveBack sys i lease) : GaveBack sys' i lease := by
  obtain ⟨entry, hentry, hworker, hcall⟩ := h
  exact ⟨entry, shift.mem_log hentry, hworker, hcall⟩

/-- A worker that takes its lease has asked for nothing before. -/
theorem Takes.inTime {ttl : Duration} {lease : Lease} {request : Request}
    (takes : Takes verifier body index now stage ttl lease request sys sys')
    (shift : Shift verifier body index now stage sys sys') (order : Orderly verifier body sys)
    (due : sys.Due index now stage) : InTime verifier sys' index now ttl := by
  have hreceived : sys.turn? index = some (now, .received) := takes.first ▸ due.1
  obtain ⟨length, longest, httl⟩ := nanos_lockTtl? takes.length
  refine ⟨length, longest, httl, ?_, ?_⟩
  · intro entry hentry hworker
    rcases shift.of_mem_log hentry with hentry | ⟨-, hnow⟩
    · exact absurd hworker (order.idle index now hreceived entry hentry)
    · rw [hnow]
      exact Nat.le_add_right _ _
  · intro wake stage' hturn
    cases takes.turn.symm.trans hturn
    exact Nat.le_refl now

theorem InTime.next {i : Nat} {first : Instant} {ttl : Duration}
    (inTime : InTime verifier sys i first ttl)
    (shift : Shift verifier body index now stage sys sys') (due : sys.Due index now stage)
    (others : ∀ i, i ≠ index → sys'.turn? i = sys.turn? i) : InTime verifier sys' i first ttl := by
  obtain ⟨length, longest, httl, before, lasts⟩ := inTime
  refine ⟨length, longest, httl, ?_, ?_⟩
  · intro entry hentry hworker
    rcases shift.of_mem_log hentry with hentry | ⟨hindex, hnow⟩
    · exact before entry hentry hworker
    · obtain rfl : i = index := hworker.symm.trans hindex
      rw [hnow]
      exact (lasts now stage due.1).le longest
  · intro wake stage' hturn
    by_cases hi : i = index
    · subst hi
      have hlasts := lasts now stage due.1
      cases shift with
      | ends turn => cases turn.symm.trans hturn
      | takes takes =>
          rw [takes.first] at hlasts
          exact hlasts.elim
      | gives held goes turn =>
          cases turn.symm.trans hturn
          exact lasts_of_goes hlasts longest goes
      | keeps same begun goes turn =>
          cases turn.symm.trans hturn
          exact lasts_of_goes hlasts longest goes
    · exact lasts wake stage' (others i hi ▸ hturn)

section

-- a turn that is due is taken in good order; the other workers stay where they are
variable (shift : Shift verifier body index now stage sys sys')
  (order : Orderly verifier body sys) (due : sys.Due index now stage)
  (others : ∀ i, i ≠ index → sys'.turn? i = sys.turn? i)

include shift order due others

theorem Shift.kept {i : Nat} {first wake : Instant} {ttl : Duration} {lease : Lease}
    {stage' : Stage} (granted : Granted sys' i first ttl lease)
    (hturn : sys'.turn? i = some (wake, stage')) :
    stage'.lease? = some lease ∨ GaveBack sys' i lease := by
  rcases shift.granted granted with granted | ⟨rfl, -, request, takes⟩
  · by_cases hi : i = index
    · subst hi
      have kept := order.kept i first ttl lease granted now stage due.1
      have back : GaveBack sys i lease → GaveBack sys' i lease := .next shift
      cases shift with
      | ends turn => cases turn.symm.trans hturn
      | takes takes =>
          have hreceived : sys.turn? i = some (now, .received) := takes.first ▸ due.1
          exact absurd rfl (order.idle i now hreceived _ granted)
      | gives held goes turn log =>
          refine Or.inr ?_
          rcases kept with carried | given
          · obtain rfl := Option.some.inj (held.symm.trans carried)
            exact ⟨_, log ▸ List.mem_cons_self, rfl, rfl⟩
          · exact back given
      | keeps same begun goes turn =>
          cases turn.symm.trans hturn
          rw [same]
          exact kept.imp_right back
    · rw [others i hi] at hturn
      exact (order.kept i first ttl lease granted wake stage' hturn).imp_right (.next shift)
  · cases takes.turn.symm.trans hturn
    exact Or.inl rfl

theorem Shift.lasts {i : Nat} {first : Instant} {ttl : Duration} {lease : Lease}
    (granted : Granted sys' i first ttl lease) : InTime verifier sys' i first ttl := by
  rcases shift.granted granted with granted | ⟨rfl, rfl, request, takes⟩
  · exact (order.lasts i first ttl lease granted).next shift due others
  · exact takes.inTime shift order due

theorem Shift.held {i : Nat} {lease : Lease} (h : Carries sys' i lease) :
    ∃ first ttl request token,
    Granted sys' i first ttl lease ∧ Reads verifier body i request ∧
      lease.key = lockKey (verifier i).chain.name request.user request.number ∧
      sys'.world.hold? lease.key = some ⟨token, first + ttl.nanos⟩ := by
  rcases shift.carries due others h with carried | ⟨rfl, ttl, request, takes⟩
  · obtain ⟨first, ttl, request, token, granted, read, hkey, hold⟩ := order.held i lease carried
    refine ⟨first, ttl, request, token, shift.mem_log granted, read, hkey, ?_⟩
    rw [shift.hold? order due carried h]
    exact hold
  · obtain ⟨-, -, token, hold⟩ := LockTable.acquired takes.granted
    refine ⟨now, ttl, request, token, ?_, takes.read, takes.key, ?_⟩
    · rw [Granted, takes.log]
      exact List.mem_cons_self
    · rw [takes.world]
      exact hold

theorem Shift.apart {i j : Nat} (hij : i ≠ j) {lease lease' : Lease}
    (hi : Carries sys' i lease) (hj : Carries sys' j lease') : lease.key ≠ lease'.key := by
  rcases shift.carries due others hi with carried | ⟨rfl, ttl, request, takes⟩
  · rcases shift.carries due others hj with carried' | ⟨rfl, ttl, request, takes⟩
    · exact order.apart i j hij lease lease' carried carried'
    · exact (takes.key_ne order due carried).symm
  · rcases shift.carries due others hj with carried' | ⟨rfl, -⟩
    · exact takes.key_ne order due carried'
    · exact absurd rfl hij

end

theorem Orderly.next (order : Orderly verifier body sys) (due : sys.Due index now stage)
    (others : ∀ i, i ≠ index → sys'.turn? i = sys.turn? i)
    (shift : Shift verifier body index now stage sys sys') : Orderly verifier body sys' where
  idle _ _ hturn := shift.idle order others hturn
  kept _ _ _ _ granted _ _ hturn := shift.kept order due others granted hturn
  lasts _ _ _ _ granted := shift.lasts order due others granted
  held _ _ h := shift.held order due others h
  apart _ _ hij _ _ hi hj := shift.apart order due others hij hi hj

end

end Workflow

end Settlement
