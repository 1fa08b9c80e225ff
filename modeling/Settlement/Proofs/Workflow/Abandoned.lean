import Settlement.Proofs.Locks.History
import Settlement.Proofs.Verifier.Cancellation
import Settlement.Proofs.Workflow.Errand

/-!
# Work that is abandoned

The work on a message is abandoned if its lock is not granted, or if its verification is cancelled,
in whatever pause (`pauses_turn`) and in whatever part of it (`Cancelled`). It has then done nothing
but take the lock, and give it back (`Abandons`). So when the message is delivered again and the
lock is free, it fares as if it had never been worked on (`Fate.again`).
-/

namespace Settlement.Workflow

open Settlement.Rehearsal

/-! ## Cancellations -/

/-- The verification ends at the stage as cancelled, or a part of it has ended so. -/
inductive Cancelled (v : Verifier) (now : Instant) : Stage → Prop
  | atOnce {request : Request} {lease : Lease} {payment : Payment}
      (fits : refusal? v request payment = none)
      (ends : v.begin request payment now = .done Verifier.cancelled) :
      Cancelled v now (.found request lease (.ok (some payment)))
  | later {request : Request} {lease : Lease} {payment : Payment} {s : VerifierStage}
      (ends : v.turn payment now s = .done Verifier.cancelled) :
      Cancelled v now (.verifying request lease payment s)
  | within {request : Request} {lease : Lease} {payment : Payment} {s : VerifierStage}
      (breaks : v.Breaks payment now s) : Cancelled v now (.verifying request lease payment s)

/-- When the pause is over that the work comes to, if it comes to one. -/
def Errand.wakes? {N : Type} (t : Errand N) (x : Point Call Call.Reply (N × World) Stage) :
    Option Instant :=
  match turn t.verifier t.body x.instant x.stage with
  | .pause length cut woken _ => some (endOfWait x.instant (x.instant + length.nanos) cut woken).1
  | _ => none

/-- The work is in a pause when it is cancelled, or is cancelled already when it comes to one. -/
def Errand.Interrupted {N : Type} (t : Errand N) (x : Point Call Call.Reply (N × World) Stage)
    (instant : Instant) : Prop :=
  t.cancelAt = some instant ∧ ∃ wake ∈ t.wakes? x, instant ≤ wake

section

variable {N : Type} {t : Errand N} {v : Verifier} {body : ByteArray} {stage : Stage}
  {now instant : Instant} {x : Point Call Call.Reply (N × World) Stage} {w : N × World}

/-- A verification that was cancelled is abandoned. -/
theorem Cancelled.turn_eq (cancelled : Cancelled v now stage) (body : ByteArray) :
    ∃ lease, turn v body now stage = finish lease .abandoned := by
  cases cancelled with
  | @atOnce request lease payment fits ends =>
      refine ⟨lease, ?_⟩
      simp only [turn, fits, ends]
      rfl
  | @later request lease payment s ends =>
      refine ⟨lease, ?_⟩
      simp only [turn, ends]
      rfl
  | @within request lease payment s breaks =>
      refine ⟨lease, ?_⟩
      simp only [turn, breaks.turn_eq]
      rfl

theorem pauses_verification {request : Request} {lease : Lease} {payment : Payment}
    {s : Step VerifierStage Verdict} (interruptible : v.Interruptible payment s) :
    (s.andThen (.verifying request lease payment) (afterVerdict lease payment)).Pauses
      fun _ next => ∃ lease, ∀ later, turn v body later next = finish lease .abandoned := by
  refine Turn.pauses_andThen (interruptible.imp fun _ next ends => ⟨lease, fun later => ?_⟩) ?_
  · simp only [turn, ends later]
    rfl
  · intro verdict
    unfold afterVerdict
    split <;> trivial

/-- Wherever the work pauses, a cancellation makes it give its lock back and abandon the message. -/
theorem pauses_turn (v : Verifier) (body : ByteArray) (now : Instant) (stage : Stage) :
    (turn v body now stage).Pauses fun _ next =>
      ∃ lease, ∀ later, turn v body later next = finish lease .abandoned := by
  cases stage with
  | received =>
      rcases receive_cases v body with ⟨outcome, h⟩ | ⟨-, h⟩ | ⟨request, ttl, -, h⟩
      all_goals
        rw [turn, h]
        trivial
  | leased request r => rcases r with e | _ | lease <;> trivial
  | found request lease r =>
      rcases r with e | _ | payment
      · trivial
      · trivial
      · simp only [turn]
        split
        · trivial
        · exact pauses_verification (v.pauses_begin _ _ _)
  | verifying request lease payment s => exact pauses_verification (v.pauses_turn _ _ _)
  | confirmed lease payment r => rcases r with e | _ | _ <;> trivial
  | credited lease payment r => rcases r with e | _ | _ <;> trivial
  | mailing lease outcome notice r =>
      rcases r with e | _ | user
      · trivial
      · trivial
      · simp only [turn]
        split <;> trivial
  | mailed lease outcome => trivial
  | released outcome => trivial

theorem closes_cancelled (cancelled : Cancelled t.verifier x.instant x.stage) :
    ∃ w', t.machine.Closes t.cancelAt x (some .abandoned) x.instant w' := by
  obtain ⟨lease, turn⟩ := cancelled.turn_eq t.body
  exact ⟨_, (closes_finish turn).2 ⟨rfl, rfl, rfl⟩⟩

theorem pause_of_wakes {wake : Instant} (h : wake ∈ t.wakes? x) : ∃ length cut woken next,
    turn t.verifier t.body x.instant x.stage = .pause length cut woken next ∧
      (endOfWait x.instant (x.instant + length.nanos) cut woken).1 = wake := by
  unfold Errand.wakes? at h
  split at h
  next length cut woken next turn => exact ⟨length, cut, woken, next, turn, Option.some.inj h⟩
  next => cases h

theorem closes_interrupted (interrupted : t.Interrupted x instant) :
    ∃ w', t.machine.Closes t.cancelAt x (some .abandoned) (max x.instant instant) w' := by
  obtain ⟨cancel, wake, wakes, strikes⟩ := interrupted
  obtain ⟨length, cut, woken, next, turn, rfl⟩ := pause_of_wakes wakes
  have pauses := pauses_turn t.verifier t.body x.instant x.stage
  rw [turn] at pauses
  obtain ⟨lease, ends⟩ := pauses
  have ends_pause : endOfPause x.instant (x.instant + length.nanos) cut woken next t.cancelAt =
      (max x.instant instant, next) := by
    rw [cancel]
    exact if_pos (max_le (le_endOfWait cut woken (Nat.le_add_right _ _)) strikes)
  have step : t.machine.after? t.cancelAt x =
      some ⟨max x.instant instant, x.world, next, x.log⟩ := by
    rw [Machine.after?_pause turn, ends_pause]
  exact ⟨_, (Machine.closes_iff_of_after step).2 ((closes_finish (ends _)).2 ⟨rfl, rfl, rfl⟩)⟩

end

/-! ## What is left of abandoned work -/

section

variable {locks : LockTable} {now : Instant} {key : String} {ttl : Duration} {lease : Lease}

/-- A lease that is given back at the end leaves its key without a holder. -/
theorem hold?_returned (granted : (locks.acquire now key ttl).1 = some lease) (other : String) :
    ((locks.acquire now key ttl).2.release lease).hold? other =
      if other = key then none else locks.hold? other := by
  obtain ⟨rfl, free, -⟩ := LockTable.acquired granted
  rw [LockTable.acquire_free free] at granted
  have token := congrArg Lease.token (Option.some.inj granted)
  split
  next own =>
    subst own
    refine LockTable.hold?_release ⟨now + ttl.nanos, ?_⟩
    rw [LockTable.hold?_acquire free, ← token]
  next ne =>
    rw [LockTable.hold?_release_of_ne ne, LockTable.hold?_acquire_of_ne ne]

end

/-- The world that abandoned work leaves: nothing but the locks may have changed. The lock of its
payment is free only if it was free before, other locks are as they were, and no lease is left
behind unless it cannot be given back. -/
structure Abandons (key : String) (later : Instant) (w v : World) : Prop where
  world : v = { w with locks := v.locks }
  others : ∀ other, other ≠ key → v.locks.hold? other = w.locks.hold? other
  returned : w.faults.release = none → ∀ name hold, v.locks.hold? name = some hold →
    w.locks.hold? name = some hold
  free : ∀ b, later ≤ b → v.locks.isHeld b key = false → w.locks.isHeld b key = false

section

variable {N : Type} {t : Errand N} {n : N} {w v : World} {now later b : Instant} {key : String}
  {request : Request} {ttl : Duration} {lease : Lease} {outcome : Outcome} {u : N × World}
  {d : Decision}

theorem abandons_refl (key : String) (later : Instant) (w : World) : Abandons key later w w :=
  ⟨rfl, fun _ _ => rfl, fun _ _ _ h => h, fun _ _ h => h⟩

/-- The lock was taken and nothing else was done. -/
theorem abandons_giveBack (granted : (w.locks.acquire now key ttl).1 = some lease)
    (le : now ≤ later) : Abandons key later w
      (giveBack { w with locks := (w.locks.acquire now key ttl).2 } lease) := by
  obtain ⟨own, free, -⟩ := LockTable.acquired granted
  have left : (giveBack { w with locks := (w.locks.acquire now key ttl).2 } lease).locks =
      if w.faults.release = none then (w.locks.acquire now key ttl).2.release lease
      else (w.locks.acquire now key ttl).2 :=
    locks_left (.silent .abandoned) { w with locks := (w.locks.acquire now key ttl).2 } lease
  refine ⟨?_, fun other ne => ?_, fun released name hold h => ?_, fun b hb _ => ?_⟩
  · unfold giveBack
    split <;> rfl
  · rw [left]
    split
    · rw [hold?_returned granted, if_neg ne]
    · exact LockTable.hold?_acquire_of_ne ne
  · rw [left, if_pos released, hold?_returned granted] at h
    split at h
    · cases h
    · exact h
  · exact LockTable.isHeld_later (Nat.le_trans le hb) free

theorem abandons_of_fate (fate : t.Fate now (n, w) .abandoned later u) :
    ∃ request ttl, t.Reads request ttl ∧ Abandons (t.key request) later w u.2 := by
  generalize houtcome : Outcome.abandoned = outcome at fate
  cases fate with
  | illegible turn =>
      obtain ⟨reason, rfl, -⟩ := rejected_of_receive turn
      cases houtcome
  | unlocked reads refused => exact ⟨_, _, reads, abandons_refl _ _ _⟩
  | @decided request ttl lease d later n' s reads reached granted decides =>
      have le : now ≤ later := by
        obtain ⟨y, comes, -, rfl, -⟩ := decides
        exact comes.instant_le
      have justified := justified_of_decides decides
      dsimp only at justified ⊢
      cases justified with
      | silent unconfirmed other kept =>
          rw [kept houtcome.symm]
          exact ⟨request, ttl, reads, abandons_giveBack granted le⟩
      | failed fits other => cases houtcome
      | granted fits contacts => cases houtcome

/-! ## The same message again -/

/-- The worlds are the same but for the locks. That of a key is free in both of them, and the other
ones have the same holders. -/
structure SameButLock (key : String) (b : Instant) (w v : World) : Prop where
  world : v = { w with locks := v.locks }
  others : ∀ other, other ≠ key → v.locks.hold? other = w.locks.hold? other
  free : w.locks.isHeld b key = false
  free' : v.locks.isHeld b key = false

/-- The same is left of the chain, the store and the mails, and the same locks are free from `b`
on. -/
structure SameEffects (b : Instant) (u u' : N × World) : Prop where
  node : u'.1 = u.1
  store : u'.2.store = u.2.store
  broker : u'.2.broker = u.2.broker
  locks : ∀ key instant, b ≤ instant →
    u'.2.locks.isHeld instant key = u.2.locks.isHeld instant key

theorem SameButLock.symm (same : SameButLock key b w v) : SameButLock key b v w := by
  refine ⟨?_, fun other ne => (same.others other ne).symm, same.free', same.free⟩
  rw [same.world]

theorem SameButLock.isHeld {instant : Instant} (same : SameButLock key b w v) (le : b ≤ instant)
    (name : String) : v.locks.isHeld instant name = w.locks.isHeld instant name := by
  by_cases own : name = key
  · rw [own, LockTable.isHeld_later le same.free, LockTable.isHeld_later le same.free']
  · exact LockTable.isHeld_congr (same.others name own)

theorem SameEffects.symm {u' : N × World} (same : SameEffects b u u') : SameEffects b u' u :=
  ⟨same.node.symm, same.store.symm, same.broker.symm,
    fun key instant le => (same.locks key instant le).symm⟩

theorem Abandons.same (abandons : Abandons key later w v) (hb : later ≤ b)
    (free : v.locks.isHeld b key = false) : SameButLock key b w v :=
  ⟨abandons.world, abandons.others, abandons.free b hb free, free⟩

/-- The mails do not depend on the locks. -/
theorem Decision.tell_locks (d : Decision) (w : World) (g : LockTable) :
    d.tell { w with locks := g } = { d.tell w with locks := g } := by
  have send : ∀ email, (World.send { w with locks := g } email).world =
      { (w.send email).world with locks := g } := by
    intro email
    unfold World.send
    dsimp only
    split
    · rfl
    · split <;> rfl
  have reply : ∀ name, userReply { w with locks := g } name = userReply w name := fun _ => rfl
  unfold tell
  split
  · rfl
  · rw [reply]
    split
    · split
      · exact send _
      · rfl
    · rfl

theorem broker_left (d : Decision) (w : World) (lease : Lease) :
    (giveBack (d.tell w) lease).broker = (d.tell w).broker := by
  unfold giveBack
  split <;> rfl

/-- The work sends the same mails, whatever table it begins with. -/
theorem broker_again {s : Store} (same : SameButLock key b w v) (g g' : LockTable) :
    (d.tell { v with store := s, locks := g' }).broker =
      (d.tell { w with store := s, locks := g }).broker := by
  have mixed : ({ v with store := s, locks := g' } : World) =
      { ({ w with store := s, locks := g } : World) with locks := g' } := by
    rw [same.world]
  rw [mixed, Decision.tell_locks]

/-- The work leaves the same locks free, whatever table it begins with. -/
theorem locks_again {s : Store} {lease' : Lease} (same : SameButLock key b w v)
    (granted : (w.locks.acquire b key ttl).1 = some lease)
    (granted' : (v.locks.acquire b key ttl).1 = some lease') (name : String) (instant : Instant) :
    (giveBack (d.tell { v with store := s, locks := (v.locks.acquire b key ttl).2 })
        lease').locks.isHeld instant name =
      (giveBack (d.tell { w with store := s, locks := (w.locks.acquire b key ttl).2 })
        lease).locks.isHeld instant name := by
  have faults : v.faults = w.faults := (congrArg World.faults same.world :)
  rw [locks_left, locks_left, faults]
  dsimp only
  split
  next =>
    refine LockTable.isHeld_congr ?_
    rw [hold?_returned granted, hold?_returned granted']
    split
    next => rfl
    next ne => exact same.others name ne
  next =>
    by_cases own : name = key
    · subst own
      rw [LockTable.isHeld, LockTable.isHeld, LockTable.hold?_acquire same.free,
        LockTable.hold?_acquire same.free']
    · refine LockTable.isHeld_congr ?_
      rw [LockTable.hold?_acquire_of_ne own, LockTable.hold?_acquire_of_ne own]
      exact same.others name own

/-- What becomes of the message does not depend on the locks if its own one is free. -/
theorem Errand.Fate.again (reads : t.Reads request ttl)
    (same : SameButLock (t.key request) b w v) (fate : t.Fate b (n, w) outcome later u) :
    ∃ u', t.Fate b (n, v) outcome later u' ∧ SameEffects b u u' := by
  have store : v.store = w.store := (congrArg World.store same.world :)
  have broker : v.broker = w.broker := (congrArg World.broker same.world :)
  have faults : v.faults = w.faults := (congrArg World.faults same.world :)
  cases fate with
  | illegible turn =>
      rw [reads.turn] at turn
      cases turn
  | @unlocked request' ttl' reads' refused =>
      obtain ⟨rfl, rfl⟩ := reads.unique reads'
      -- the lock is free, so it could not even be asked for
      have unreached : w.faults.acquire ≠ none := by
        intro reached
        have granted := refused reached
        rw [LockTable.acquire_free same.free] at granted
        cases granted
      refine ⟨(n, v), .unlocked reads fun reached => absurd (faults ▸ reached) unreached, rfl,
        store, broker, fun name instant le => same.isHeld le name⟩
  | @decided request' ttl' lease d later n' s reads' reached granted decides =>
      obtain ⟨rfl, rfl⟩ := reads.unique reads'
      have granted' : (v.locks.acquire b (t.key request') ttl').1 =
          some ⟨t.key request', v.locks.next⟩ := by
        rw [LockTable.acquire_free same.free']
      have decides' : t.Decides b (n, v) request' d later (n', s) := by
        unfold Errand.Decides
        rw [faults, store]
        exact decides
      refine ⟨_, .decided reads (faults ▸ reached) granted' decides', rfl, ?_, ?_, ?_⟩
      · rw [store_left, store_left]
      · rw [broker_left, broker_left]
        exact broker_again same _ _
      · intro name instant _
        exact locks_again same granted granted' name instant

/-- The lock for the message is free. -/
def Errand.LockFree (t : Errand N) (b : Instant) (w : World) : Prop :=
  ∀ request, Request.ofBody? t.verifier.chain t.body = .ok request →
    w.locks.isHeld b (t.key request) = false

/-- Whatever becomes of the message in one world becomes of it in the other one. -/
def Errand.FaresAlike (t : Errand N) (b : Instant) (n : N) (w v : World) : Prop :=
  ∀ outcome later u, t.Ends b (n, w) outcome later u →
    ∃ u', t.Ends b (n, v) outcome later u' ∧ SameEffects b u u'

theorem faresAlike_of_same (reads : t.Reads request ttl)
    (same : SameButLock (t.key request) b w v) : t.FaresAlike b n w v := by
  intro outcome later u ends
  obtain ⟨u', fate, effects⟩ := (ends_iff.1 ends).again reads same
  exact ⟨u', ends_iff.2 fate, effects⟩

/-- Nothing is left of the work that was abandoned, unless its lease cannot be given back. If the
lock is free when the message is delivered again, the same becomes of it, whatever the chain
answers then, as if it came for the first time. -/
structure Traceless (t : Errand N) (later : Instant) (w v : World) : Prop where
  store : v.store = w.store
  mails : v.broker = w.broker
  locks : w.faults.release = none → ∀ key hold, v.locks.hold? key = some hold →
    w.locks.hold? key = some hold
  again : ∀ (M : Type) (again : Errand M) (m : M) (b : Instant), again.verifier = t.verifier →
    again.body = t.body → later ≤ b → again.LockFree b v →
      again.FaresAlike b m v w ∧ again.FaresAlike b m w v

theorem traceless_of_fate (fate : t.Fate now (n, w) .abandoned later u) :
    Traceless t later w u.2 := by
  obtain ⟨request, ttl, reads, abandons⟩ := abandons_of_fate fate
  refine ⟨?_, ?_, abandons.returned, ?_⟩
  · rw [abandons.world]
  · rw [abandons.world]
  · rintro M ⟨verifier, body, chain, cancelAt⟩ m b rfl rfl hb free
    have same : SameButLock (t.key request) b w u.2 := abandons.same hb (free request reads.read)
    have reads' : Errand.Reads ⟨t.verifier, t.body, chain, cancelAt⟩ request ttl :=
      ⟨reads.read, reads.turn⟩
    exact ⟨faresAlike_of_same reads' same.symm, faresAlike_of_same reads' same⟩

/-- If the work on a message is abandoned, nothing is left of it, and the message fares as if for
the first time when it comes again. It is abandoned, and never refused, whenever its verification
ends as cancelled or a part of it does so, and in whatever pause it is cancelled. -/
theorem abandoned_leaves_nothing (t : Errand N) (now : Instant) (n : N) (w : World) :
    (∀ later u, t.Ends now (n, w) .abandoned later u → Traceless t later w u.2) ∧
    (∀ x, t.machine.Comes t.cancelAt ⟨now, (n, w), .received, []⟩ x →
      (Cancelled t.verifier x.instant x.stage → ∃ u, t.Ends now (n, w) .abandoned x.instant u) ∧
      ∀ instant, t.Interrupted x instant →
        ∃ u, t.Ends now (n, w) .abandoned (max x.instant instant) u) ∧
    ∀ outcome later u, t.Ends now (n, w) outcome later u →
      outcome ≠ .rejected (.verification .cancelled) := by
  refine ⟨fun later u ends => traceless_of_fate (ends_iff.1 ends), fun x comes => ⟨?_, ?_⟩,
    fun outcome later u ends => (ends_iff.1 ends).not_cancelled⟩
  · intro cancelled
    obtain ⟨u, closes⟩ := closes_cancelled cancelled
    exact ⟨u, comes.closes_iff.2 closes⟩
  · intro instant interrupted
    obtain ⟨u, closes⟩ := closes_interrupted interrupted
    exact ⟨u, comes.closes_iff.2 closes⟩

end

namespace Shutdown

/-- A user owes a payment. -/
def world : World := ⟨.empty, Sample.store [Sample.dashPayment 1 "invoice"], .empty, .empty, .none⟩

/-- The deposit for it has not been seen often enough. -/
def young : Node :=
  { Sample.dashNode with dashTransactions := [("deposit", [⟨⟨0⟩, .ok ⟨"deposit", 0, 1⟩⟩])] }

def errand : Errand Node := Sample.errand (some 10)

/-- Where the work is after some turns. -/
def point (turns : Nat) : Point Call Call.Reply (Node × World) Stage :=
  errand.machine.follow errand.cancelAt turns ⟨0, (young, world), .received, []⟩

/-- The deposit that was being settled has been given up. -/
def givenUp : Stage → Bool
  | .verifying _ _ _ (.dash _ (.running _ (.settling _ _ _ .interrupted))) => true
  | _ => false

theorem interrupted : errand.Interrupted (point 10) 10 := by
  unfold Errand.Interrupted
  decide +kernel

theorem cancelled : Cancelled errand.verifier (point 11).instant (point 11).stage := by
  have h : givenUp (point 11).stage := by decide +kernel
  unfold givenUp at h
  split at h
  next stage => exact stage ▸ .within (.deposit rfl)
  next => cases h

/-- The message comes again a minute later. -/
def again : Errand Node := Sample.errand none

def later : Instant := 60000000000

theorem ends_again :
    ∃ i u, again.Ends later (Sample.dashNode, world) (.confirmed ⟨20, 0⟩) i u :=
  ⟨_, _, Errand.ends_last (by decide +kernel)⟩

end Shutdown

open Shutdown in
/-- A message is abandoned in the pause before its deposit is looked at again: nothing is left of
the work, and the message is confirmed when it comes again. -/
theorem abandoned_leaves_nothing_shutdown :
    (∃ u, errand.Ends 0 (young, world) .abandoned (max (point 10).instant 10) u) ∧
    ∃ u, errand.Ends 0 (young, world) .abandoned (point 11).instant u ∧
      u.2.store = world.store ∧ (∀ key, u.2.locks.hold? key = none) ∧
      ∃ i u', again.Ends later (Sample.dashNode, u.2) (.confirmed ⟨20, 0⟩) i u' := by
  obtain ⟨left, ends, -⟩ := abandoned_leaves_nothing errand 0 young world
  obtain ⟨u, ended⟩ := (ends (point 11) (Machine.comes_follow _ _ _ _)).1 cancelled
  have traceless := left _ u ended
  have free : ∀ key, u.2.locks.hold? key = none := by
    intro key
    by_contra held
    obtain ⟨hold, h⟩ := Option.ne_none_iff_exists'.1 held
    cases traceless.locks rfl key hold h
  refine ⟨(ends (point 10) (Machine.comes_follow _ _ _ _)).2 10 interrupted, u, ended,
    traceless.store, free, ?_⟩
  have unlocked : again.LockFree later u.2 := by
    intro request _
    simp only [LockTable.isHeld, free]
  have alike := (traceless.again Node again Sample.dashNode later rfl rfl (by decide +kernel)
    unlocked).2
  obtain ⟨i, v, fares⟩ := ends_again
  obtain ⟨u', ends', -⟩ := alike _ _ _ fares
  exact ⟨i, u', ends'⟩

end Settlement.Workflow
