import Settlement.Proofs.Store.Answers

/-!
# The books behind a store

`Books` links a store to the calls that led to it from a first store, whoever made them: a payment
is confirmed if it was at first or a call has confirmed it. That happens once for a payment, and
only to payments that were open at first. Every answer of a store keeps the books (`Books.answer`).
-/

namespace Settlement

def flips (hash : String) : Contact → Bool
  | ⟨.confirmPayment h, (.ok true : Except StoreError Bool)⟩ => h == hash
  | _ => false

theorem flips_iff {hash : String} {a : Contact} : flips hash a ↔ a = .flip hash (.ok true) := by
  constructor
  · intro h
    unfold flips at h
    split at h
    · rw [eq_of_beq h]
    · exact absurd h (by simp)
  · rintro rfl
    simp [flips]

def isFlipped (calls : List (Nat × Contact)) (hash : String) : Bool :=
  calls.any fun call => flips hash call.2

theorem isFlipped_iff {calls : List (Nat × Contact)} {hash : String} :
    isFlipped calls hash ↔ ∃ i, (i, Contact.flip hash (.ok true)) ∈ calls := by
  simp only [isFlipped, List.any_eq_true, flips_iff]
  constructor
  · rintro ⟨⟨i, a⟩, ha, rfl⟩
    exact ⟨i, ha⟩
  · rintro ⟨i, h⟩
    exact ⟨_, h, rfl⟩

theorem isFlipped_cons (calls : List (Nat × Contact)) (i : Nat) (a : Contact) (hash : String) :
    isFlipped ((i, a) :: calls) hash = (flips hash a || isFlipped calls hash) := rfl

/-- What the calls made of a payment. -/
def settled (calls : List (Nat × Contact)) (p : Payment) : Payment :=
  { p with confirmed := p.confirmed || isFlipped calls p.txHash }

/-- A store is what the calls made of the store `s₀`. -/
structure Books (s₀ : Store) (calls : List (Nat × Contact)) (s : Store) : Prop where
  payments : s.payments = s₀.payments.map (settled calls)
  opened : ∀ i hash, (i, Contact.flip hash (.ok true)) ∈ calls →
    ∃ p ∈ s₀.payments, p.txHash = hash ∧ p.confirmed = false
  once : ∀ i j hash, (i, Contact.flip hash (.ok true)) ∈ calls →
    (j, Contact.flip hash (.ok true)) ∈ calls → i = j
  found : ∀ i user number p, (i, Contact.lookup user number (.ok (some p))) ∈ calls →
    p.confirmed = false → p ∈ s₀.payments

namespace Books

variable {s₀ s s' : Store} {calls : List (Nat × Contact)}

theorem start (s₀ : Store) : Books s₀ [] s₀ where
  payments := by
    refine (List.map_id _).symm.trans (List.map_congr_left fun p _ => ?_)
    simp [settled, isFlipped]
  opened := by simp
  once := by simp
  found := by simp

theorem distinct (books : Books s₀ calls s) (distinct : (s₀.payments.map Payment.txHash).Nodup) :
    (s.payments.map Payment.txHash).Nodup := by
  rw [books.payments, List.map_map]
  exact distinct

/-- A payment that is found unconfirmed is one that was open at first. -/
theorem mem_of_findPayment (books : Books s₀ calls s) {user : String} {number : Int} {p : Payment}
    (h : s.findPayment user number = some p) (unconfirmed : p.confirmed = false) :
    p ∈ s₀.payments := by
  have hmem := List.mem_of_find?_eq_some h
  rw [books.payments, List.mem_map] at hmem
  obtain ⟨q, hq, rfl⟩ := hmem
  have hsame : settled calls q = q := by
    have hor : (q.confirmed || isFlipped calls q.txHash) = false := unconfirmed
    have hq : q.confirmed = false := (Bool.or_eq_false_iff.1 hor).1
    rw [settled, hor, ← hq]
  rwa [hsame]

/-- The payment that a call confirms was open at first, and no call has confirmed it before. -/
theorem opened_of_confirm (books : Books s₀ calls s) {hash : String}
    (h : (s.confirm hash).1 = true) :
    (∃ p ∈ s₀.payments, p.txHash = hash ∧ p.confirmed = false) ∧
      isFlipped calls hash = false := by
  rw [Store.confirm_fst, List.any_eq_true] at h
  obtain ⟨q, hq, hopen⟩ := h
  rw [books.payments, List.mem_map] at hq
  obtain ⟨p, hp, rfl⟩ := hq
  simp only [Store.isOpen, settled, Bool.and_eq_true, beq_iff_eq, Bool.not_eq_true',
    Bool.or_eq_false_iff] at hopen
  obtain ⟨rfl, hconfirmed, hflipped⟩ := hopen
  exact ⟨⟨p, hp, rfl, hconfirmed⟩, hflipped⟩

theorem none (books : Books s₀ calls s) (i : Nat) {a : Contact}
    (noFlip : ∀ hash, a ≠ .flip hash (.ok true))
    (found : ∀ user number p, a = .lookup user number (.ok (some p)) → p.confirmed = false →
      p ∈ s₀.payments) : Books s₀ ((i, a) :: calls) s where
  payments := by
    rw [books.payments]
    refine List.map_congr_left fun p _ => ?_
    have hflips : flips p.txHash a = false := by
      rw [← Bool.not_eq_true, flips_iff]
      exact noFlip _
    rw [settled, settled, isFlipped_cons, hflips, Bool.false_or]
  opened := by
    intro j hash h
    rcases List.mem_cons.1 h with h | h
    · exact absurd (Prod.mk.inj h).2.symm (noFlip hash)
    · exact books.opened j hash h
  once := by
    intro j k hash hj hk
    rcases List.mem_cons.1 hj with h | hj
    · exact absurd (Prod.mk.inj h).2.symm (noFlip hash)
    rcases List.mem_cons.1 hk with h | hk
    · exact absurd (Prod.mk.inj h).2.symm (noFlip hash)
    · exact books.once j k hash hj hk
  found := by
    intro j user number p h unconfirmed
    rcases List.mem_cons.1 h with h | h
    · exact found user number p (Prod.mk.inj h).2.symm unconfirmed
    · exact books.found j user number p h unconfirmed

theorem flip (books : Books s₀ calls s) (distinct : (s₀.payments.map Payment.txHash).Nodup)
    (i : Nat) {hash : String} (h : (s.confirm hash).1 = true) :
    Books s₀ ((i, .flip hash (.ok true)) :: calls) (s.confirm hash).2 where
  payments := by
    rw [Store.payments_confirm (books.distinct distinct), books.payments, List.map_map]
    refine List.map_congr_left fun p _ => ?_
    by_cases hhash : p.txHash = hash
    · simp [Store.mark, settled, isFlipped_cons, flips, hhash]
    · simp [Store.mark, settled, isFlipped_cons, flips, hhash, beq_false_of_ne (Ne.symm hhash)]
  opened := by
    intro j other hother
    rcases List.mem_cons.1 hother with heq | hother
    · obtain ⟨rfl, hcall⟩ := Prod.mk.inj heq
      obtain rfl : other = hash := by simpa using congrArg Asked.call hcall
      exact (books.opened_of_confirm h).1
    · exact books.opened j other hother
  once := by
    -- it takes an open payment to confirm one, so no call before was about this hash
    have new : ∀ {j other}, (j, Contact.flip other (.ok true)) ∈ calls → other ≠ hash := by
      rintro j other hother rfl
      have hflipped := isFlipped_iff.2 ⟨j, hother⟩
      rw [(books.opened_of_confirm h).2] at hflipped
      exact absurd hflipped (by simp)
    intro j k other hj hk
    rcases List.mem_cons.1 hj with hj | hj <;> rcases List.mem_cons.1 hk with hk | hk
    · rw [(Prod.mk.inj hj).1, (Prod.mk.inj hk).1]
    · have hcall : other = hash := by simpa using congrArg (·.2.call) hj
      exact absurd hcall (new hk)
    · have hcall : other = hash := by simpa using congrArg (·.2.call) hk
      exact absurd hcall (new hj)
    · exact books.once j k other hj hk
  found := by
    intro j user number p hp unconfirmed
    rcases List.mem_cons.1 hp with heq | hp
    · simpa using congrArg (·.2.call) heq
    · exact books.found j user number p hp unconfirmed

theorem grant (books : Books s₀ calls s) (i : Nat) (name : String) (amount balance : Decimal) :
    Books s₀ ((i, .grant name amount (.ok (some balance))) :: calls)
      (s.addCredits name amount).2 := by
  have same : Books s₀ ((i, .grant name amount (.ok (some balance))) :: calls) s :=
    books.none i (by simp) (by simp)
  exact { same with payments := (Store.payments_addCredits s name amount).trans same.payments }

/-- Every answer of the store keeps the books. -/
theorem answer (books : Books s₀ calls s) (distinct : (s₀.payments.map Payment.txHash).Nodup)
    (i : Nat) {a : Contact} (h : s.Change a s') : Books s₀ ((i, a) :: calls) s' := by
  cases h with
  | none noFlip _ found =>
      refine books.none i noFlip fun user number p hp unconfirmed => ?_
      exact books.mem_of_findPayment (found user number p hp) unconfirmed
  | flip h => exact books.flip distinct i h
  | grant h => exact books.grant i _ _ _

end Books

end Settlement
