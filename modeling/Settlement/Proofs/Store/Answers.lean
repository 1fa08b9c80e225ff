import Mathlib.Data.List.Nodup
import Settlement.Proofs.Verifier.Checks
import Settlement.Store

/-!
# How a store answers

A call about payments and users does what it is for, or fails and leaves the store as it is; all
other calls are none of the store's business (`Store.Answers`). Where the hashes of the payments are
distinct, as they are in the table of payments, confirming a transaction marks the one payment that
belongs to it. Granting credits changes one balance.
-/

namespace Settlement

namespace Store

/-- A call of the store has its result, or fails and leaves the store as it is. -/
def Yields {α : Type} (s : Store) (result : Except StoreError α × Store) (r : Except StoreError α)
    (s' : Store) : Prop :=
  (r, s') = result ∨ (∃ e, r = .error e) ∧ s' = s

/-- The store may answer a call so, and is `s'` then. What others answer is left open. -/
def Answers (s : Store) : (call : Call) → call.Reply → Store → Prop
  | .findPayment user number => s.Yields (.ok (s.findPayment user number), s)
  | .confirmPayment hash => s.Yields (.ok (s.confirm hash).1, (s.confirm hash).2)
  | .addCredits user amount => s.Yields (s.addCredits user amount)
  | .findAddress user => s.Yields (.ok (s.findAddress user), s)
  | .findUser user => s.Yields (.ok (s.findUser user), s)
  | _ => fun _ s' => s' = s

/-- The payment, confirmed if it belongs to the transaction. -/
def mark (hash : String) (p : Payment) : Payment :=
  if p.txHash = hash then { p with confirmed := true } else p

section

variable {s s' : Store} {hash : String} {p : Payment} {payments : List Payment}

theorem mark_of_ne (h : p.txHash ≠ hash) : mark hash p = p := if_neg h

theorem mark_of_not_open (h : ¬isOpen hash p) : mark hash p = p := by
  by_cases hhash : p.txHash = hash
  · have hconfirmed : p.confirmed = true := by simpa [isOpen, hhash] using h
    rw [mark, if_pos hhash, ← hconfirmed]
  · exact mark_of_ne hhash

theorem map_mark_of_not_mem (h : hash ∉ payments.map Payment.txHash) :
    payments.map (mark hash) = payments := by
  refine (List.map_congr_left fun p hp => ?_).trans (List.map_id payments)
  refine mark_of_ne fun heq => h ?_
  rw [← heq]
  exact List.mem_map_of_mem hp

/-- Where hashes are distinct, the first open payment of a transaction is its only one. -/
theorem modifyFirst_eq_map_mark (distinct : (payments.map Payment.txHash).Nodup) :
    modifyFirst (isOpen hash) (fun p => { p with confirmed := true }) payments =
      payments.map (mark hash) := by
  induction payments with
  | nil => rfl
  | cons p rest ih =>
      rw [List.map_cons, List.nodup_cons] at distinct
      obtain ⟨hmem, hrest⟩ := distinct
      unfold modifyFirst
      by_cases hopen : isOpen hash p
      · have hhash : p.txHash = hash := by
          simp only [isOpen, Bool.and_eq_true, beq_iff_eq] at hopen
          exact hopen.1
        rw [hhash] at hmem
        rw [if_pos hopen, List.map_cons, map_mark_of_not_mem hmem, mark, if_pos hhash]
      · rw [if_neg hopen, List.map_cons, ih hrest, mark_of_not_open hopen]

theorem confirm_fst (s : Store) (hash : String) :
    (s.confirm hash).1 = s.payments.any (isOpen hash) := by
  unfold confirm
  by_cases h : s.payments.any (isOpen hash)
  · rw [if_pos h, h]
  · simp [h]

theorem confirm_snd (h : (s.confirm hash).1 = false) : (s.confirm hash).2 = s := by
  rw [confirm_fst] at h
  rw [confirm_eq_of_none_open h]

theorem payments_confirm (distinct : (s.payments.map Payment.txHash).Nodup) (hash : String) :
    (s.confirm hash).2.payments = s.payments.map (mark hash) := by
  unfold confirm
  by_cases h : s.payments.any (isOpen hash)
  · rw [if_pos h]
    exact modifyFirst_eq_map_mark distinct
  · rw [if_neg h]
    refine ((List.map_congr_left fun p hp => ?_).trans (List.map_id _)).symm
    refine mark_of_not_open fun hopen => h ?_
    exact List.any_eq_true.2 ⟨p, hp, hopen⟩

theorem users_confirm (s : Store) (hash : String) : (s.confirm hash).2.users = s.users := by
  unfold confirm
  split <;> rfl

theorem payments_addCredits (s : Store) (name : String) (amount : Decimal) :
    (s.addCredits name amount).2.payments = s.payments := by
  unfold addCredits
  split
  · rfl
  · split <;> rfl

theorem find?_modifyFirst {α : Type} {test : α → Bool} {f : α → α} {l : List α}
    (h : ∀ a, test (f a) = test a) : (modifyFirst test f l).find? test = (l.find? test).map f := by
  induction l with
  | nil => rfl
  | cons a rest ih =>
      unfold modifyFirst
      by_cases ha : test a
      · rw [if_pos ha, List.find?_cons_of_pos (by rw [h, ha]), List.find?_cons_of_pos ha]
        rfl
      · rw [if_neg ha, List.find?_cons_of_neg ha, List.find?_cons_of_neg ha, ih]

theorem find?_modifyFirst_of_ne {α : Type} {test other : α → Bool} {f : α → α} {l : List α}
    (h : ∀ a, test a → other a = false ∧ other (f a) = false) :
    (modifyFirst test f l).find? other = l.find? other := by
  induction l with
  | nil => rfl
  | cons a rest ih =>
      unfold modifyFirst
      by_cases ha : test a
      · rw [if_pos ha, List.find?_cons_of_neg (by simp [(h a ha).2]),
          List.find?_cons_of_neg (by simp [(h a ha).1])]
      · rw [if_neg ha, List.find?_cons, List.find?_cons, ih]

theorem findUser_addCredits {name : String} {amount balance : Decimal}
    (h : (s.addCredits name amount).1 = .ok (some balance)) :
    ∃ user, s.findUser name = some user ∧ user.credits.add? amount = some balance ∧
      (s.addCredits name amount).2.findUser name = some { user with credits := balance } ∧
      ∀ other, other ≠ name →
        (s.addCredits name amount).2.findUser other = s.findUser other := by
  unfold addCredits at h ⊢
  cases huser : s.findUser name with
  | none => simp [huser] at h
  | some user =>
      cases hsum : user.credits.add? amount with
      | none => simp [huser, hsum] at h
      | some credits =>
          obtain rfl : credits = balance := by simpa [huser, hsum] using h
          refine ⟨user, rfl, hsum, ?_, fun other hother => ?_⟩
          · unfold findUser at huser ⊢
            simp only [hsum]
            rw [find?_modifyFirst (fun u => by rfl), huser]
            rfl
          · unfold findUser
            simp only [hsum]
            refine find?_modifyFirst_of_ne fun u hu => ?_
            have hname : u.name = name := by simpa using hu
            simp [hname, Ne.symm hother]

theorem addCredits_snd {name : String} {amount : Decimal}
    (h : ∀ balance, (s.addCredits name amount).1 ≠ .ok (some balance)) :
    (s.addCredits name amount).2 = s := by
  unfold addCredits at h ⊢
  cases huser : s.findUser name with
  | none => rfl
  | some user =>
      cases hsum : user.credits.add? amount with
      | none => simp [hsum]
      | some credits => simp [huser, hsum] at h

/-- What a call comes to: it changes nothing, confirms an open payment or grants credits. -/
inductive Change (s : Store) : Contact → Store → Prop
  | none {a : Contact} (noFlip : ∀ hash, a ≠ .flip hash (.ok true))
      (noGrant : ∀ name amount balance, a ≠ .grant name amount (.ok (some balance)))
      (found : ∀ user number p, a = .lookup user number (.ok (some p)) →
        s.findPayment user number = some p) : Change s a s
  | flip {hash : String} (h : (s.confirm hash).1 = true) :
      Change s (.flip hash (.ok true)) (s.confirm hash).2
  | grant {name : String} {amount balance : Decimal}
      (h : (s.addCredits name amount).1 = .ok (some balance)) :
      Change s (.grant name amount (.ok (some balance))) (s.addCredits name amount).2

theorem change_of_other {a : Contact} (noLookup : ∀ user number, a.call ≠ .findPayment user number)
    (noFlip : ∀ hash, a.call ≠ .confirmPayment hash)
    (noGrant : ∀ name amount, a.call ≠ .addCredits name amount) : Change s a s := by
  refine .none ?_ ?_ ?_
  · intro hash ha
    exact noFlip hash (congrArg Asked.call ha)
  · intro name amount balance ha
    exact noGrant name amount (congrArg Asked.call ha)
  · intro user number p ha
    exact absurd (congrArg Asked.call ha) (noLookup user number)

theorem change_of_lookup {user : String} {number : Int} {r : Except StoreError (Option Payment)}
    (h : s.Answers (.findPayment user number) r s') : Change s (.lookup user number r) s' := by
  rcases h with h | ⟨⟨e, rfl⟩, rfl⟩
  · obtain ⟨rfl, rfl⟩ := Prod.mk.inj h
    refine .none (by simp) (by simp) fun user' number' p ha => ?_
    obtain ⟨rfl, rfl, hp⟩ := Contact.lookup_inj.1 ha
    exact Except.ok.inj hp
  · exact .none (by simp) (by simp) (by simp)

theorem change_of_flip {r : Except StoreError Bool}
    (h : s.Answers (.confirmPayment hash) r s') : Change s (.flip hash r) s' := by
  rcases h with h | ⟨⟨e, rfl⟩, rfl⟩
  · obtain ⟨rfl, rfl⟩ := Prod.mk.inj h
    cases hturn : (s.confirm hash).1 with
    | true => exact .flip hturn
    | false =>
        rw [confirm_snd hturn]
        exact .none (by simp) (by simp) (by simp)
  · exact .none (by simp) (by simp) (by simp)

theorem change_of_grant {name : String} {amount : Decimal}
    {r : Except StoreError (Option Decimal)} (h : s.Answers (.addCredits name amount) r s') :
    Change s (.grant name amount r) s' := by
  rcases h with h | ⟨⟨e, rfl⟩, rfl⟩
  · obtain rfl : r = (s.addCredits name amount).1 := congrArg Prod.fst h
    obtain rfl : s' = (s.addCredits name amount).2 := congrArg Prod.snd h
    rcases hr : (s.addCredits name amount).1 with e | _ | balance
    · rw [addCredits_snd (by simp [hr])]
      exact .none (by simp) (by simp) (by simp)
    · rw [addCredits_snd (by simp [hr])]
      exact .none (by simp) (by simp) (by simp)
    · exact .grant hr
  · exact .none (by simp) (by simp) (by simp)

/-- Every answer of a store is one of the three. -/
theorem change_of_answers {call : Call} {r : call.Reply} (h : s.Answers call r s') :
    Change s ⟨call, r⟩ s' := by
  cases call with
  | findPayment user number => exact change_of_lookup h
  | confirmPayment hash => exact change_of_flip h
  | addCredits name amount => exact change_of_grant h
  | findAddress user =>
      rcases h with h | ⟨-, rfl⟩
      · obtain ⟨rfl, rfl⟩ := Prod.mk.inj h
        exact change_of_other nofun nofun nofun
      · exact change_of_other nofun nofun nofun
  | findUser user =>
      rcases h with h | ⟨-, rfl⟩
      · obtain ⟨rfl, rfl⟩ := Prod.mk.inj h
        exact change_of_other nofun nofun nofun
      · exact change_of_other nofun nofun nofun
  | ethereum query => exact h ▸ change_of_other nofun nofun nofun
  | dash query => exact h ▸ change_of_other nofun nofun nofun
  | bitcoinCash query => exact h ▸ change_of_other nofun nofun nofun
  | acquire key ttl => exact h ▸ change_of_other nofun nofun nofun
  | release lease => exact h ▸ change_of_other nofun nofun nofun
  | notify email => exact h ▸ change_of_other nofun nofun nofun

/-- A payment that is confirmed stays as it is. -/
theorem Change.mem_of_confirmed {a : Contact} (h : s.Change a s')
    (distinct : (s.payments.map Payment.txHash).Nodup) (hp : p ∈ s.payments)
    (confirmed : p.confirmed) : p ∈ s'.payments := by
  cases h with
  | none _ _ _ => exact hp
  | flip _ =>
      rw [payments_confirm distinct, List.mem_map]
      exact ⟨p, hp, mark_of_not_open (by simp [isOpen, confirmed])⟩
  | grant _ =>
      rw [payments_addCredits]
      exact hp

end

end Store

end Settlement
