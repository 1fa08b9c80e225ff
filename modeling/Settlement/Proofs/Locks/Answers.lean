import Settlement.Proofs.Verifier.Span

/-!
# What a table of locks does

A table is held to what it does, and at once; whatever else is asked may be answered in any way
(`LockTable.Answers`). Where time does not matter the table may take its time, and it may fail as
long as it then does nothing (`LockTable.MayAnswer`). A lease that is granted holds its key, for
which nothing was held before (`acquired`); other keys are not touched.
-/

namespace Settlement

/-- The call is one to the locks. -/
def Call.isLock : Call → Bool
  | acquire _ _ => true
  | release _ => true
  | _ => false

namespace LockTable

/-- The table does what is asked at once; other calls leave it alone, and only the ones to a chain
take time. -/
def Answers (now : Instant) (locks : LockTable) :
    (call : Call) → Answer LockTable call.Reply → Prop
  | .acquire key ttl, answer =>
    answer.reply = .ok (locks.acquire now key ttl).1 ∧ answer.delay.nanos = 0 ∧
      answer.world = (locks.acquire now key ttl).2
  | .release lease, answer =>
    answer.reply = .ok () ∧ answer.delay.nanos = 0 ∧ answer.world = locks.release lease
  | call, answer => (call.Prompt → answer.delay.nanos = 0) ∧ answer.world = locks

/-- The table does what is asked, or it fails and does nothing; other calls leave it alone. All of
them may take time. -/
def MayAnswer (now : Instant) (locks : LockTable) :
    (call : Call) → Answer LockTable call.Reply → Prop
  | .acquire key ttl, answer =>
    answer.reply = .ok (locks.acquire now key ttl).1 ∧
        answer.world = (locks.acquire now key ttl).2 ∨
      (∃ e, answer.reply = .error e) ∧ answer.world = locks
  | .release lease, answer =>
    answer.reply = .ok () ∧ answer.world = locks.release lease ∨
      (∃ e, answer.reply = .error e) ∧ answer.world = locks
  | _, answer => answer.world = locks

section

variable {locks : LockTable} {now : Instant} {key other : String} {ttl : Duration} {lease : Lease}

theorem instantly_of_answers {call : Call} {answer : Answer LockTable call.Reply}
    (h : Answers now locks call answer) (prompt : call.Prompt) : answer.delay.nanos = 0 := by
  cases call with
  | acquire key ttl => exact h.2.1
  | release lease => exact h.2.1
  | _ => exact h.1 prompt

theorem mayAnswer_of_answers {call : Call} {answer : Answer LockTable call.Reply}
    (h : Answers now locks call answer) : MayAnswer now locks call answer := by
  cases call with
  | acquire key ttl => exact Or.inl ⟨h.1, h.2.2⟩
  | release lease => exact Or.inl ⟨h.1, h.2.2⟩
  | _ => exact h.2

theorem world_of_answers {call : Call} {answer : Answer LockTable call.Reply}
    (h : Answers now locks call answer) (unlocking : call.isLock = false) :
    answer.world = locks := by
  cases call with
  | acquire key ttl => cases unlocking
  | release lease => cases unlocking
  | _ => exact h.2

theorem lookup_others (ne : other ≠ key) : (locks.others key).lookup other = locks.hold? other := by
  unfold others hold?
  induction locks.held with
  | nil => rfl
  | cons entry rest ih =>
      obtain ⟨name, hold⟩ := entry
      rw [List.filter_cons, List.lookup_cons]
      by_cases hname : name = key
      · subst hname
        simpa [beq_false_of_ne ne] using ih
      · rw [if_pos (by simpa using hname), List.lookup_cons, ih]

theorem hold?_acquire_of_ne (ne : other ≠ key) :
    (locks.acquire now key ttl).2.hold? other = locks.hold? other := by
  unfold acquire
  split
  · rfl
  · rw [hold?, List.lookup_cons, beq_false_of_ne ne]
    exact lookup_others ne

theorem world_of_acquire (h : (locks.acquire now key ttl).1 = none) :
    (locks.acquire now key ttl).2 = locks := by
  unfold acquire at h ⊢
  split at h
  next held => rw [if_pos held]
  next => cases h

/-- A lease that is granted holds its key from then on. -/
theorem acquired (h : (locks.acquire now key ttl).1 = some lease) :
    lease.key = key ∧ locks.isHeld now key = false ∧
      ∃ token, (locks.acquire now key ttl).2.hold? key = some ⟨token, now + ttl.nanos⟩ := by
  unfold acquire at h ⊢
  split at h
  next => cases h
  next free =>
    obtain rfl := Option.some.inj h
    refine ⟨rfl, Bool.eq_false_iff.2 free, locks.next, ?_⟩
    rw [if_neg free, hold?, List.lookup_cons, beq_self_eq_true]

theorem hold?_release_of_ne (ne : other ≠ lease.key) :
    (locks.release lease).hold? other = locks.hold? other := by
  unfold release
  split
  · split
    · exact lookup_others ne
    · rfl
  · rfl

theorem isHeld_of_hold? {token : Nat} {expires : Instant}
    (h : locks.hold? key = some ⟨token, expires⟩) (hnow : now < expires) :
    locks.isHeld now key := by
  rw [isHeld, h]
  exact decide_eq_true hnow

theorem isHeld_congr {locks' : LockTable} (h : locks'.hold? key = locks.hold? key) :
    locks'.isHeld now key = locks.isHeld now key := by
  rw [isHeld, isHeld, h]

/-- A key that is free stays free until it is taken. -/
theorem isHeld_later {later : Instant} (h : now ≤ later) (free : locks.isHeld now key = false) :
    locks.isHeld later key = false := by
  unfold isHeld at free ⊢
  split at free
  next => exact decide_eq_false fun hlater => of_decide_eq_false free (Nat.lt_of_le_of_lt h hlater)
  next => rfl

theorem acquire_of_free (free : locks.isHeld now key = false) :
    locks.acquire now key ttl = (some ⟨key, locks.next⟩, (locks.acquire now key ttl).2) := by
  unfold acquire
  rw [if_neg (Bool.eq_false_iff.1 free)]

end

end LockTable

end Settlement
