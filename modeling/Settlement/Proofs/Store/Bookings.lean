import Settlement.Proofs.Decimal.Value
import Settlement.Proofs.Store.Answers

/-!
# What a message leaves in a store

The work on a message leaves a store as it was, or marks the payment as confirmed, or also grants
its credits (`Booking`). To a message for another payment, with another hash, the store looks as
before but for the balances (`resembles_book`). Two such bookings come to the same payments in
either order (`payments_book_comm`), and each adds its own credits to the balance where the sum is
exact (`balance?_book`).
-/

namespace Settlement.Store

section

variable {α : Type} {test other : α → Bool} {f g : α → α} {l : List α}

theorem modifyFirst_of_not_any (h : l.any test = false) : modifyFirst test f l = l := by
  induction l with
  | nil => rfl
  | cons a rest ih =>
      rw [List.any_cons, Bool.or_eq_false_iff] at h
      unfold modifyFirst
      rw [if_neg (Bool.eq_false_iff.1 h.1), ih h.2]

/-- What is found stays the same if it is not what is changed. -/
theorem find?_modifyFirst_of_kept (keeps : ∀ a, other (f a) = other a)
    (apart : ∀ a, l.find? other = some a → test a = false) :
    (modifyFirst test f l).find? other = l.find? other := by
  induction l with
  | nil => rfl
  | cons a rest ih =>
      unfold modifyFirst
      by_cases ha : other a
      · have hfound : (a :: rest).find? other = some a := List.find?_cons_of_pos ha
        rw [if_neg (Bool.eq_false_iff.1 (apart a hfound)), hfound, List.find?_cons_of_pos ha]
      · rw [List.find?_cons_of_neg ha] at apart ⊢
        split
        · rw [List.find?_cons_of_neg (by rwa [keeps])]
        · rw [List.find?_cons_of_neg ha, ih apart]

/-- Changes in different places may come in either order. -/
theorem modifyFirst_comm (apart : ∀ a, test a → other a = false ∧ other (f a) = false)
    (apart' : ∀ a, other a → test a = false ∧ test (g a) = false) :
    modifyFirst test f (modifyFirst other g l) = modifyFirst other g (modifyFirst test f l) := by
  induction l with
  | nil => rfl
  | cons a rest ih =>
      cases ha : test a with
      | true =>
          obtain ⟨hother, hchanged⟩ := apart a ha
          simp [modifyFirst, ha, hother, hchanged]
      | false =>
          cases hother : other a with
          | true =>
              obtain ⟨-, hchanged⟩ := apart' a hother
              simp [modifyFirst, ha, hother, hchanged]
          | false => simp [modifyFirst, ha, hother, ih]

end

/-- What the work on a message has done to a store. -/
inductive Booking where
  | none
  | marked (p : Payment)
  | granted (p : Payment)

/-- The payment that was marked. -/
def Booking.payment? : Booking → Option Payment
  | .none => .none
  | .marked p => some p
  | .granted p => some p

/-- The credits that a user was granted. -/
def Booking.due (name : String) : Booking → ℚ
  | .granted p => if p.user = name then p.credits.value else 0
  | _ => 0

/-- The store with a booking. -/
def book (s : Store) : Booking → Store
  | .none => s
  | .marked p => (s.confirm p.txHash).2
  | .granted p => ((s.confirm p.txHash).2.addCredits p.user p.credits).2

/-- What a user has, as a number. -/
def balance? (s : Store) (name : String) : Option ℚ :=
  (s.findUser name).map fun user => user.credits.value

/-- The user without the balance. -/
def contact (user : User) : User := { user with credits := .zero }

/-- The same users, but for their balances. -/
def SameContacts (s s' : Store) : Prop :=
  ∀ name, (s.findUser name).map contact = (s'.findUser name).map contact

/-- To a message for the payment the stores are the same, but for the balances. -/
structure Resembles (user : String) (number : Int) (s s' : Store) : Prop where
  found : s'.findPayment user number = s.findPayment user number
  isOpen : ∀ p, s.findPayment user number = some p →
    s'.payments.any (isOpen p.txHash) = s.payments.any (isOpen p.txHash)
  addresses : s'.addresses = s.addresses
  users : ∀ name, (s'.findUser name).map contact = (s.findUser name).map contact

section

variable {s s' : Store} {d e : Booking} {p : Payment} {hash hash' name user : String}
  {number : Int} {amount : Decimal}

theorem payments_confirm_eq (s : Store) (hash : String) : (s.confirm hash).2.payments =
    modifyFirst (isOpen hash) (fun p => { p with confirmed := true }) s.payments := by
  unfold confirm
  split
  next => rfl
  next h => rw [modifyFirst_of_not_any (Bool.eq_false_iff.2 h)]

theorem addresses_confirm (s : Store) (hash : String) :
    (s.confirm hash).2.addresses = s.addresses := by
  unfold confirm
  split <;> rfl

theorem addresses_addCredits (s : Store) (name : String) (amount : Decimal) :
    (s.addCredits name amount).2.addresses = s.addresses := by
  unfold addCredits
  split
  · rfl
  · split <;> rfl

theorem findUser_confirm (s : Store) (hash name : String) :
    (s.confirm hash).2.findUser name = s.findUser name := by
  rw [findUser, users_confirm, findUser]

/-- Granting credits changes the balance of the one user, if the new one is an amount. -/
theorem findUser_addCredits_snd (s : Store) (name : String) (amount : Decimal) (other : String) :
    (s.addCredits name amount).2.findUser other = (s.findUser other).map fun user =>
      if other = name then { user with credits := (user.credits.add? amount).getD user.credits }
      else user := by
  by_cases hother : other = name
  · subst hother
    simp only [if_true]
    cases huser : s.findUser other with
    | none => simp [addCredits, huser]
    | some user =>
        cases hsum : user.credits.add? amount with
        | none => simp [addCredits, huser, hsum]
        | some credits =>
            have hgranted : (s.addCredits other amount).1 = .ok (some credits) := by
              simp [addCredits, huser, hsum]
            obtain ⟨user', huser', hsum', hafter, -⟩ := findUser_addCredits hgranted
            obtain rfl := Option.some.inj (huser.symm.trans huser')
            simp [hafter, hsum]
  · simp only [if_neg hother]
    rw [Option.map_id']
    by_cases hgranted : ∃ balance, (s.addCredits name amount).1 = .ok (some balance)
    · obtain ⟨balance, hgranted⟩ := hgranted
      obtain ⟨-, -, -, -, others⟩ := findUser_addCredits hgranted
      exact others other hother
    · rw [addCredits_snd fun balance h => hgranted ⟨balance, h⟩]

theorem SameContacts.refl (s : Store) : s.SameContacts s := fun _ => rfl

theorem SameContacts.symm (h : s.SameContacts s') : s'.SameContacts s := fun name => (h name).symm

theorem SameContacts.trans {s'' : Store} (h : s.SameContacts s') (h' : s'.SameContacts s'') :
    s.SameContacts s'' := fun name => (h name).trans (h' name)

theorem sameContacts_confirm (s : Store) (hash : String) :
    (s.confirm hash).2.SameContacts s := by
  intro name
  rw [findUser_confirm]

theorem sameContacts_addCredits (s : Store) (name : String) (amount : Decimal) :
    (s.addCredits name amount).2.SameContacts s := by
  intro other
  rw [findUser_addCredits_snd, Option.map_map]
  congr 1
  funext user
  dsimp only [Function.comp_apply]
  split <;> rfl

theorem addCredits_of_unknown (h : s.findUser name = none) :
    s.addCredits name amount = (.error (.unknownUser name), s) := by
  simp [addCredits, h]

theorem addCredits_of_known {u : User} (h : s.findUser name = some u) :
    s.addCredits name amount = (.ok (u.credits.add? amount), (s.addCredits name amount).2) := by
  unfold addCredits
  rw [h]
  dsimp only
  cases u.credits.add? amount <;> rfl

theorem txHash_of_isOpen (h : isOpen hash p) : p.txHash = hash := by
  simp only [isOpen, Bool.and_eq_true, beq_iff_eq] at h
  exact h.1

theorem not_isOpen_of_ne (h : p.txHash ≠ hash) : isOpen hash p = false := by
  simp [isOpen, h]

/-- An open payment of one transaction is not one of another, confirmed or not. -/
theorem isOpen_apart (ne : hash ≠ hash') (h : isOpen hash p) :
    isOpen hash' p = false ∧ isOpen hash' { p with confirmed := true } = false := by
  have hhash := txHash_of_isOpen h
  exact ⟨not_isOpen_of_ne (hhash ▸ ne), not_isOpen_of_ne (hhash ▸ ne)⟩

/-- The payments with a booking: the first open one of the transaction is marked. -/
theorem payments_book (s : Store) (d : Booking) : (s.book d).payments =
    match d.payment? with
    | none => s.payments
    | some p =>
      modifyFirst (Store.isOpen p.txHash) (fun q => { q with confirmed := true }) s.payments := by
  cases d with
  | none => rfl
  | marked p => exact payments_confirm_eq s p.txHash
  | granted p => exact (payments_addCredits _ _ _).trans (payments_confirm_eq s p.txHash)

theorem addresses_book (s : Store) (d : Booking) : (s.book d).addresses = s.addresses := by
  cases d with
  | none => rfl
  | marked p => exact addresses_confirm s p.txHash
  | granted p => exact (addresses_addCredits _ _ _).trans (addresses_confirm s p.txHash)

/-- The users with a booking: credits may have been granted to one. -/
theorem findUser_book (s : Store) (d : Booking) (name : String) :
    (s.book d).findUser name = (s.findUser name).map fun user =>
      match d with
      | .granted p =>
        if name = p.user then
          { user with credits := (user.credits.add? p.credits).getD user.credits }
        else user
      | _ => user := by
  cases d with
  | none => exact Option.map_id'.symm
  | marked p => exact (findUser_confirm s p.txHash name).trans Option.map_id'.symm
  | granted p =>
      unfold book
      rw [findUser_addCredits_snd, findUser_confirm]

theorem contact_book (s : Store) (d : Booking) (name : String) :
    ((s.book d).findUser name).map contact = (s.findUser name).map contact := by
  cases d with
  | none => rfl
  | marked p => exact sameContacts_confirm s p.txHash name
  | granted p =>
      exact (sameContacts_addCredits _ _ _ name).trans (sameContacts_confirm s p.txHash name)

/-- A booking for one payment is not noticed by a message for another one. -/
theorem resembles_book (apart : ∀ p q, d.payment? = some p → s.findPayment user number = some q →
    p.txHash ≠ q.txHash) : Resembles user number s (s.book d) where
  found := by
    unfold findPayment
    rw [payments_book]
    split
    next => rfl
    next p hp =>
      refine find?_modifyFirst_of_kept (fun q => rfl) fun q hq => ?_
      exact not_isOpen_of_ne (apart p q hp hq).symm
  isOpen := by
    intro q hq
    rw [payments_book]
    split
    next => rfl
    next p hp =>
      rw [← List.isSome_find?, ← List.isSome_find?]
      rw [find?_modifyFirst_of_ne fun a ha => isOpen_apart (apart p q hp hq) ha]
  addresses := addresses_book s d
  users := contact_book s d

theorem Resembles.refl (user : String) (number : Int) (s : Store) : Resembles user number s s :=
  ⟨rfl, fun _ _ => rfl, rfl, fun _ => rfl⟩

theorem Resembles.symm (h : Resembles user number s s') : Resembles user number s' s where
  found := h.found.symm
  isOpen := fun p hp => (h.isOpen p (h.found ▸ hp)).symm
  addresses := h.addresses.symm
  users := fun name => (h.users name).symm

/-- Payments of different transactions are marked in either order. -/
theorem payments_book_comm
    (apart : ∀ p q, d.payment? = some p → e.payment? = some q → p.txHash ≠ q.txHash) :
    ((s.book d).book e).payments = ((s.book e).book d).payments := by
  rw [payments_book, payments_book, payments_book, payments_book]
  cases hd : d.payment? with
  | none => rfl
  | some p =>
      cases he : e.payment? with
      | none => rfl
      | some q =>
          have ne := apart p q hd he
          exact modifyFirst_comm (fun a ha => isOpen_apart ne.symm ha)
            fun a ha => isOpen_apart ne ha

/-- Where credits are granted, the new balance is exact. -/
def Affords (s : Store) (d : Booking) : Prop :=
  ∀ p user, d = .granted p → s.findUser p.user = some user →
    Decimal.Exact (user.credits.value + p.credits.value)

theorem balance?_book (affords : s.Affords d) (name : String) :
    (s.book d).balance? name = (s.balance? name).map (· + d.due name) := by
  unfold balance?
  rw [findUser_book]
  cases huser : s.findUser name with
  | none => rfl
  | some user =>
      refine congrArg some ?_
      cases d with
      | none => exact (add_zero _).symm
      | marked p => exact (add_zero _).symm
      | granted p =>
          dsimp only [Booking.due]
          by_cases hname : name = p.user
          · subst hname
            obtain ⟨sum, hsum, hvalue⟩ := Decimal.value_add? (affords p user rfl huser)
            rw [if_pos rfl, if_pos rfl, hsum]
            exact hvalue
          · rw [if_neg hname, if_neg (Ne.symm hname)]
            exact (add_zero _).symm

end

end Settlement.Store
