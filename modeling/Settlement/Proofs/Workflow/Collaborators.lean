import Settlement.Proofs.Locks.Answers
import Settlement.Rehearsal.World

/-!
# What collaborators in memory answer

Where the store does not fail and locks can be taken (`Reliable`), each call of a worker does what
the store or the table of locks does, and at once. Beside the calls for its own payment, the work on
a message leaves the other locks as they are (`Aside`), whether mails can be sent and locks be given
back or not.
-/

namespace Settlement.Workflow

open Settlement.Rehearsal

/-- The store and the taking of locks never fail. Mails may, and so may giving a lock back. -/
structure Reliable (faults : Faults) : Prop where
  acquire : faults.acquire = none
  findPayment : faults.findPayment = none
  paymentOwner : faults.paymentOwner = none
  confirmPayment : faults.confirmPayment = none
  addCredits : faults.addCredits = none
  findAddress : faults.findAddress = none
  findUser : faults.findUser = none

section

variable {w : World} (now : Instant)

theorem answer_acquire (reliable : Reliable w.faults) (key : String) (ttl : Duration) :
    w.answer now (.acquire key ttl) = ⟨.ok (w.locks.acquire now key ttl).1, ⟨0⟩,
      { w with locks := (w.locks.acquire now key ttl).2 }⟩ := by
  simp [World.answer, reliable.acquire]

theorem answer_findPayment (reliable : Reliable w.faults) (user : String) (number : Int) :
    w.answer now (.findPayment user number) = ⟨.ok (w.store.findPayment user number), ⟨0⟩, w⟩ := by
  have howned : w.owned = id := by
    funext payment
    simp [World.owned, reliable.paymentOwner]
  change w.ofStore w.faults.findPayment
    (.ok ((w.store.findPayment user number).map w.owned), w.store) = _
  rw [reliable.findPayment, howned, Option.map_id]
  rfl

theorem answer_confirmPayment (reliable : Reliable w.faults) (hash : String) :
    w.answer now (.confirmPayment hash) = ⟨.ok (w.store.confirm hash).1, ⟨0⟩,
      { w with store := (w.store.confirm hash).2 }⟩ := by
  change w.ofStore w.faults.confirmPayment
    (.ok (w.store.confirm hash).1, (w.store.confirm hash).2) = _
  rw [reliable.confirmPayment]
  rfl

theorem answer_addCredits (reliable : Reliable w.faults) (user : String) (amount : Decimal) :
    w.answer now (.addCredits user amount) = ⟨(w.store.addCredits user amount).1, ⟨0⟩,
      { w with store := (w.store.addCredits user amount).2 }⟩ := by
  change w.ofStore w.faults.addCredits (w.store.addCredits user amount) = _
  rw [reliable.addCredits]
  rfl

theorem answer_findAddress (reliable : Reliable w.faults) (user : String) :
    w.answer now (.findAddress user) = ⟨.ok (w.store.findAddress user), ⟨0⟩, w⟩ := by
  change w.ofStore w.faults.findAddress (.ok (w.store.findAddress user), w.store) = _
  rw [reliable.findAddress]
  rfl

theorem answer_findUser (reliable : Reliable w.faults) (user : String) :
    w.answer now (.findUser user) = ⟨.ok (w.store.findUser user), ⟨0⟩, w⟩ := by
  change w.ofStore w.faults.findUser (.ok (w.store.findUser user), w.store) = _
  rw [reliable.findUser]
  rfl

/-- What happens beside a message: only its own lock is taken and given back. -/
structure Aside (key : String) (v w : World) : Prop where
  faults : w.faults = v.faults
  holds : ∀ other, other ≠ key → w.locks.hold? other = v.locks.hold? other

theorem Aside.refl (key : String) (v : World) : Aside key v v := ⟨rfl, fun _ _ => rfl⟩

theorem Aside.acquire {key : String} {v : World} (aside : Aside key v w) (ttl : Duration) :
    Aside key v { w with locks := (w.locks.acquire now key ttl).2 } where
  faults := aside.faults
  holds := fun other ne => (LockTable.hold?_acquire_of_ne ne).trans (aside.holds other ne)

/-- Giving a lock back changes nothing else, whether it succeeds or not. -/
theorem answer_release {key : String} {v : World} (aside : Aside key v w)
    {lease : Lease} (own : lease.key = key) :
    ∃ r u, w.answer now (.release lease) = ⟨r, ⟨0⟩, u⟩ ∧ u.store = w.store ∧ Aside key v u := by
  simp only [World.answer]
  split
  next => exact ⟨_, _, rfl, rfl, aside⟩
  next =>
    refine ⟨_, _, rfl, rfl, aside.faults, fun other ne => ?_⟩
    exact (LockTable.hold?_release_of_ne (own ▸ ne)).trans (aside.holds other ne)

theorem answer_notify {key : String} {v : World} (aside : Aside key v w)
    (email : Email) :
    ∃ r u, w.answer now (.notify email) = ⟨r, ⟨0⟩, u⟩ ∧ u.store = w.store ∧ Aside key v u := by
  change ∃ r u, w.send email = ⟨r, ⟨0⟩, u⟩ ∧ u.store = w.store ∧ Aside key v u
  unfold World.send
  split
  next => exact ⟨_, _, rfl, rfl, aside⟩
  next =>
    split
    next => exact ⟨_, _, rfl, rfl, aside.faults, aside.holds⟩
    next => exact ⟨_, _, rfl, rfl, aside⟩

end

end Settlement.Workflow
