import Settlement.Proofs.Decimal.Value
import Settlement.Proofs.Workflow.Crowd

/-!
# What the work on one message leaves behind

A message is worked on alone, over a store whose calls may fail at any point. Then the store is what
the message's own calls made of it (`Store.Led`), and of these only the calls on the books count
(`Store.Led.ledger`). So it can be read off the outcome what has become of the store: a confirmation
has confirmed the payment and granted its credits, and without one nothing has changed, unless the
credits were refused after the payment had been confirmed (`quiet_of_done`).
-/

namespace Settlement

namespace Store

/-- The calls, latest first, lead from the store `s₀` to a store. -/
inductive Led (s₀ : Store) : List Contact → Store → Prop
  | start : Led s₀ [] s₀
  | call {asked : List Contact} {a : Contact} {s s' : Store} (led : Led s₀ asked s)
      (change : s.Change a s') : Led s₀ (a :: asked) s'

/-- The payment is confirmed from a store to the next, and no other payment changes. -/
def Confirms (payment : Payment) (s s' : Store) : Prop :=
  s'.payments = s.payments.map fun p => if p = payment then { p with confirmed := true } else p

/-- The user's balance grows by the amount from a store to the next, and no other balance changes.
The sum is rounded where it is no amount. -/
def Grants (name : String) (amount : Decimal) (s s' : Store) : Prop :=
  ∃ user balance, s.findUser name = some user ∧ user.credits.add? amount = some balance ∧
    s'.findUser name = some { user with credits := balance } ∧
    (Decimal.Exact (user.credits.value + amount.value) →
      balance.value = user.credits.value + amount.value) ∧
    ∀ other, other ≠ name → s'.findUser other = s.findUser other

section

variable {s₀ s s' : Store} {a : Contact} {asked : List Contact} {payment : Payment}

/-- A call that confirms nothing and grants nothing leaves the store as it is. -/
theorem Change.eq_of_still (h : s.Change a s') (noFlip : ∀ hash, a ≠ .flip hash (.ok true))
    (noGrant : ∀ name amount balance, a ≠ .grant name amount (.ok (some balance))) : s' = s := by
  cases h with
  | none _ _ _ => rfl
  | flip _ => exact absurd rfl (noFlip _)
  | grant _ => exact absurd rfl (noGrant _ _ _)

theorem Change.find {user : String} {number : Int}
    (h : s.Change (.lookup user number (.ok (some payment))) s') :
    s.findPayment user number = some payment := by
  generalize ha : Contact.lookup user number (.ok (some payment)) = a at h
  cases h with
  | none _ _ found => exact found user number payment ha.symm
  | flip _ => exact absurd ha (by simp)
  | grant _ => exact absurd ha (by simp)

theorem Change.turned {hash : String} (h : s.Change (.flip hash (.ok true)) s') :
    s' = (s.confirm hash).2 := by
  generalize ha : Contact.flip hash (.ok true) = a at h
  cases h with
  | none noFlip _ _ => exact absurd ha.symm (noFlip hash)
  | flip _ => rw [(Contact.flip_inj.1 ha).1]
  | grant _ => exact absurd ha (by simp)

theorem Change.granted {name : String} {amount balance : Decimal}
    (h : s.Change (.grant name amount (.ok (some balance))) s') :
    (s.addCredits name amount).1 = .ok (some balance) ∧ s' = (s.addCredits name amount).2 := by
  generalize ha : Contact.grant name amount (.ok (some balance)) = a at h
  cases h with
  | none _ noGrant _ => exact absurd ha.symm (noGrant name amount balance)
  | flip _ => exact absurd ha (by simp)
  | grant h =>
      obtain ⟨rfl, rfl, hr⟩ := Contact.grant_inj.1 ha
      exact ⟨h.trans hr.symm, rfl⟩

/-- Only the calls on the books count. -/
theorem Led.ledger (h : Led s₀ asked s) : Led s₀ (Workflow.ledger asked) s := by
  induction h with
  | start => exact .start
  | @call asked a s s' _ change ih =>
      cases hledger : a.call.isLedger with
      | true =>
          have hrow : Workflow.ledger (a :: asked) = a :: Workflow.ledger asked :=
            List.filter_cons_of_pos hledger
          rw [hrow]
          exact .call ih change
      | false =>
          have hrow : Workflow.ledger (a :: asked) = Workflow.ledger asked :=
            List.filter_cons_of_neg (by simp [hledger])
          have hsame : s' = s := by
            refine change.eq_of_still ?_ ?_
            · rintro hash rfl
              simp [Call.isLedger] at hledger
            · rintro name amount balance rfl
              simp [Call.isLedger] at hledger
          rw [hrow, hsame]
          exact ih

/-- Where no payment was confirmed and no credits were granted, the store is as it was. -/
theorem Led.eq_of_quiet (h : Led s₀ asked s)
    (noFlip : ∀ hash, .flip hash (.ok true) ∉ asked)
    (noGrant : ∀ name amount balance, .grant name amount (.ok (some balance)) ∉ asked) :
    s = s₀ := by
  induction h with
  | start => rfl
  | call _ change ih =>
      have before := ih (fun hash hmem => noFlip hash (List.mem_cons_of_mem _ hmem))
        fun name amount balance hmem => noGrant name amount balance (List.mem_cons_of_mem _ hmem)
      rw [← before]
      refine change.eq_of_still ?_ ?_
      · rintro hash rfl
        exact noFlip hash List.mem_cons_self
      · rintro name amount balance rfl
        exact noGrant name amount balance List.mem_cons_self

theorem confirms_of_find {user : String} {number : Int}
    (distinct : (s.payments.map Payment.txHash).Nodup)
    (found : s.findPayment user number = some payment) :
    Confirms payment s (s.confirm payment.txHash).2 := by
  rw [Confirms, payments_confirm distinct]
  refine List.map_congr_left fun p hp => ?_
  -- the payment is the only one with its hash
  have hiff : p.txHash = payment.txHash ↔ p = payment := by
    constructor
    · exact List.inj_on_of_nodup_map distinct hp (List.mem_of_find?_eq_some found)
    · exact congrArg Payment.txHash
  simp only [mark, hiff]

theorem grants_of_addCredits {name : String} {amount balance : Decimal}
    (h : (s.addCredits name amount).1 = .ok (some balance)) :
    Grants name amount s (s.addCredits name amount).2 := by
  obtain ⟨user, huser, hsum, hnew, hothers⟩ := findUser_addCredits h
  refine ⟨user, balance, huser, hsum, hnew, fun exact => ?_, hothers⟩
  obtain ⟨sum, hsum', hvalue⟩ := Decimal.value_add? exact
  obtain rfl : sum = balance := Option.some.inj (hsum'.symm.trans hsum)
  exact hvalue

theorem Grants.of_users {name : String} {amount : Decimal} (h : Grants name amount s s')
    (users : s.users = s₀.users) : Grants name amount s₀ s' := by
  have hfind : ∀ other, s.findUser other = s₀.findUser other := by
    intro other
    rw [findUser, findUser, users]
  obtain ⟨user, balance, huser, hsum, hnew, exact, hothers⟩ := h
  rw [hfind] at huser
  refine ⟨user, balance, huser, hsum, hnew, exact, fun other hother => ?_⟩
  exact (hothers other hother).trans (hfind other)

/-- A store that has confirmed a payment had found it. -/
theorem Led.flipped {request : Request}
    (distinct : (s₀.payments.map Payment.txHash).Nodup)
    (h : Led s₀ (Workflow.flipRow request payment (.ok true)) s) :
    s₀.findPayment request.user request.number = some payment ∧ Confirms payment s₀ s ∧
      s.users = s₀.users := by
  cases h with
  | call led change =>
      cases led with
      | call led found =>
          cases led with
          | start =>
              have hfound := found.find
              obtain rfl := found.eq_of_still (by simp) (by simp)
              obtain rfl := change.turned
              exact ⟨hfound, confirms_of_find distinct hfound, users_confirm _ _⟩

theorem Led.granted {request : Request} {balance : Decimal}
    (distinct : (s₀.payments.map Payment.txHash).Nodup)
    (h : Led s₀ (Workflow.grantRow request payment (.ok (some balance))) s) :
    s₀.findPayment request.user request.number = some payment ∧ Confirms payment s₀ s ∧
      Grants payment.user payment.credits s₀ s := by
  cases h with
  | call led change =>
      obtain ⟨found, confirms, users⟩ := led.flipped distinct
      obtain ⟨hgrant, rfl⟩ := change.granted
      refine ⟨found, ?_, (grants_of_addCredits hgrant).of_users users⟩
      rw [Confirms, payments_addCredits]
      exact confirms

theorem Led.ungranted {request : Request} {e : StoreError}
    (distinct : (s₀.payments.map Payment.txHash).Nodup)
    (h : Led s₀ (Workflow.grantRow request payment (.error e)) s) :
    s₀.findPayment request.user request.number = some payment ∧ Confirms payment s₀ s ∧
      s.users = s₀.users := by
  cases h with
  | call led change =>
      obtain rfl := change.eq_of_still (by simp) (by simp)
      exact led.flipped distinct

end

end Store

namespace Workflow

open Settlement.System

/-- The payment that a message asks for, open in a store. -/
def Requested (v : Verifier) (body : ByteArray) (s : Store) (payment : Payment) : Prop :=
  ∃ request, Request.ofBody? v.chain body = .ok request ∧
    s.findPayment request.user request.number = some payment ∧ payment.confirmed = false

section

variable {v : Verifier} {body : ByteArray} {lease : Lease} {outcome : Outcome}
  {mail : Option (Payment × Notice)} {asked row : List Contact}

/-- No payment was confirmed. -/
def Quiet (row : List Contact) : Prop := ∀ hash, Contact.flip hash (.ok true) ∉ row

/-- The payment was confirmed, and its credits could not be granted. -/
def Ungranted (v : Verifier) (body : ByteArray) (outcome : Outcome) (row : List Contact) : Prop :=
  ∃ request payment e, Request.ofBody? v.chain body = .ok request ∧
    refusal? v request payment = none ∧ outcome = .rejected (.store e.message) ∧
    row = grantRow request payment (.error e)

theorem quiet_nil : Quiet [] := by
  simp [Quiet]

theorem quiet_of_lookup {user : String} {number : Int} {r : Except StoreError (Option Payment)}
    (h : row = [.lookup user number r]) : Quiet row := by
  simp [Quiet, h]

theorem quiet_of_flipRow {request : Request} {payment : Payment} {r : Except StoreError Bool}
    (h : row = flipRow request payment r) (failed : r ≠ .ok true) : Quiet row := by
  simp [Quiet, h, flipRow, failed.symm]

/-- Where no payment was confirmed, no credits were granted. -/
theorem no_grant_of_quiet (ledger : Ledger v row) (quiet : Quiet row) (name : String)
    (amount : Decimal) (r : Except StoreError (Option Decimal)) :
    Contact.grant name amount r ∉ row := by
  cases ledger with
  | blank => simp
  | found request r => simp
  | flipped r fits => simp [flipRow]
  | @granted request payment r fits =>
      exact absurd (by simp [grantRow, flipRow]) (quiet payment.txHash)

theorem quiet_of_decided (h : Decided v body lease outcome mail asked)
    (other : ∀ credits, outcome ≠ .confirmed credits) :
    Quiet (ledger asked) ∨ Ungranted v body outcome (ledger asked) := by
  cases h with
  | unread trail => exact Or.inl (quiet_of_lookup (ledger_of_found trail).1)
  | missing trail => exact Or.inl (quiet_of_lookup (ledger_of_found trail).1)
  | refused trail refusal => exact Or.inl (quiet_of_lookup (ledger_of_found trail).1)
  | cancelled trail _ gives => exact Or.inl (quiet_of_lookup (ledger_of_verified trail gives))
  | failed trail _ _ gives => exact Or.inl (quiet_of_lookup (ledger_of_verified trail gives))
  | objected trail _ _ gives => exact Or.inl (quiet_of_lookup (ledger_of_verified trail gives))
  | unconfirmed trail =>
      obtain ⟨request, -, -, -, hledger⟩ := ledger_of_confirmed trail
      exact Or.inl (quiet_of_flipRow hledger (by simp))
  | overtaken trail =>
      obtain ⟨request, -, -, -, hledger⟩ := ledger_of_confirmed trail
      exact Or.inl (quiet_of_flipRow hledger (by simp))
  | ungranted trail =>
      obtain ⟨request, read, fits, -, hledger⟩ := ledger_of_credited trail
      exact Or.inr ⟨request, _, _, read, fits, rfl, hledger⟩
  | granted trail => exact absurd rfl (other _)

/-- Without a confirmation no payment was confirmed, or its credits could not be granted. -/
theorem quiet_of_done (h : Done v body outcome asked)
    (other : ∀ credits, outcome ≠ .confirmed credits) :
    Quiet (ledger asked) ∨ Ungranted v body outcome (ledger asked) := by
  cases h with
  | malformed read => exact Or.inl quiet_nil
  | unsupported read version => exact Or.inl quiet_nil
  | unlocked trail none =>
      rw [(ledger_of_leased trail).1]
      exact Or.inl quiet_nil
  | @released _ _ asked r informed =>
      obtain ⟨mail, before, decided, hledger, -⟩ := decided_of_informed informed
      change Quiet (ledger asked) ∨ Ungranted v body outcome (ledger asked)
      rw [hledger]
      exact quiet_of_decided decided other

end

section

variable {verifier : Nat → Verifier} {body : Nat → ByteArray} {start sys : Desk}
  {worker : Worker Stage Outcome}

/-- The store of a message that is worked on alone is what its calls made of it. -/
theorem led_of_reaches (opening : Opening start) (alone : start.workers = [worker])
    (h : Reaches (turns verifier body) Store.Answers start sys) :
    Store.Led start.world (sys.askedBy 0) sys.world := by
  induction h with
  | refl =>
      have hnil : start.askedBy 0 = [] := by simp [askedBy, calls_of_fresh opening.fresh]
      rw [hnil]
      exact .start
  | @tail mid last h move ih =>
      obtain ⟨index, move⟩ := move
      rcases move.calls with ⟨hcalls, hworld⟩ | ⟨call, r, hcalls, hanswer⟩
      · rw [hworld, askedBy, hcalls]
        exact ih
      · -- there is nobody else who could have called
        obtain rfl : index = 0 := by
          by_contra hindex
          have hnone : start.workers[index]? = none := by simp [alone, hindex]
          have hnil := (askedBy_eq_nil (h.tail ⟨index, move⟩) opening.fresh hnone).2
          rw [askedBy_of_call hcalls] at hnil
          exact absurd hnil (by simp)
        rw [askedBy_of_call hcalls]
        exact .call ih (Store.change_of_answers hanswer)

theorem settled_of_confirmed (opening : Opening start) (alone : start.workers = [worker])
    (h : Reaches (turns verifier body) Store.Answers start sys) {credits : Decimal}
    (ended : sys.result? 0 = some (.confirmed credits)) :
    ∃ payment, Requested (verifier 0) (body 0) start.world payment ∧
      credits = payment.credits ∧ Store.Confirms payment start.world sys.world ∧
      Store.Grants payment.user payment.credits start.world sys.world := by
  have led := (led_of_reaches opening alone h).ledger
  obtain ⟨request, payment, balance, read, -, unconfirmed, hcredits, -, -, hledger⟩ :=
    confirmed_of_result opening h ended
  rw [hledger] at led
  obtain ⟨found, confirms, grants⟩ := led.granted opening.distinct
  exact ⟨payment, ⟨request, read, found, unconfirmed⟩, hcredits, confirms, grants⟩

/-- Without a confirmation the store is as it was, unless the credits were refused. -/
theorem untouched_of_result (opening : Opening start) (alone : start.workers = [worker])
    (h : Reaches (turns verifier body) Store.Answers start sys) {outcome : Outcome}
    (ended : sys.result? 0 = some outcome) (other : ∀ credits, outcome ≠ .confirmed credits) :
    (∀ name amount e, Contact.grant name amount (.error e) ∉ sys.askedBy 0) ∧
        sys.world = start.world ∨
      ∃ payment e, Requested (verifier 0) (body 0) start.world payment ∧
        Contact.grant payment.user payment.credits (.error e) ∈ sys.askedBy 0 ∧
        outcome = .rejected (.store e.message) ∧
        Store.Confirms payment start.world sys.world ∧ sys.world.users = start.world.users := by
  have led := (led_of_reaches opening alone h).ledger
  have done := done_of_ends (ends_of_reaches h opening.fresh opening.begins ended)
  rcases quiet_of_done done other with quiet | ⟨request, payment, e, read, fits, rfl, hledger⟩
  · have noGrant := no_grant_of_quiet (ledger_of_reaches opening h 0) quiet
    refine Or.inl ⟨fun name amount e hmem => ?_, led.eq_of_quiet quiet fun name amount _ => ?_⟩
    · exact noGrant name amount _ ((mem_ledger rfl).2 hmem)
    · exact noGrant name amount _
  · have hgrant : Contact.grant payment.user payment.credits (.error e) ∈ sys.askedBy 0 := by
      rw [← mem_ledger rfl, hledger]
      exact List.mem_cons_self
    rw [hledger] at led
    obtain ⟨found, confirms, users⟩ := led.ungranted opening.distinct
    exact Or.inr ⟨payment, e, ⟨request, read, found, unconfirmed_of_fits fits⟩, hgrant, rfl,
      confirms, users⟩

/-- A message that is worked on alone and ends confirmed has confirmed the payment it asks for and
granted its credits, and nothing else. One that ends without has changed nothing, unless the credits
were refused after the payment had been confirmed: then the payment stays confirmed, and no balance
has changed. -/
theorem settled_or_untouched (v : Verifier) (message : ByteArray) {start sys : Desk}
    {worker : Worker Stage Outcome} (opening : Opening start) (alone : start.workers = [worker])
    (h : Reaches (turns (fun _ => v) fun _ => message) Store.Answers start sys) :
    (∀ credits, sys.result? 0 = some (.confirmed credits) →
      ∃ payment, Requested v message start.world payment ∧ credits = payment.credits ∧
        Store.Confirms payment start.world sys.world ∧
        Store.Grants payment.user payment.credits start.world sys.world) ∧
    (sys.result? 0 = some .abandoned → sys.world = start.world) ∧
    (∀ reason, sys.result? 0 = some (.rejected reason) →
      (∀ name amount e, Contact.grant name amount (.error e) ∉ sys.askedBy 0) ∧
          sys.world = start.world ∨
        ∃ payment e, Requested v message start.world payment ∧
          Contact.grant payment.user payment.credits (.error e) ∈ sys.askedBy 0 ∧
          reason = .store e.message ∧ Store.Confirms payment start.world sys.world ∧
          sys.world.users = start.world.users) := by
  refine ⟨?_, ?_, ?_⟩
  · intro credits ended
    exact settled_of_confirmed opening alone h ended
  · intro ended
    rcases untouched_of_result opening alone h ended (by simp) with ⟨-, same⟩ | ⟨_, _, -, -, he, -⟩
    · exact same
    · exact absurd he (by simp)
  · intro reason ended
    rcases untouched_of_result opening alone h ended (by simp) with
      untouched | ⟨payment, e, requested, refused, he, confirms, users⟩
    · exact Or.inl untouched
    · exact Or.inr ⟨payment, e, requested, refused, Outcome.rejected.inj he, confirms, users⟩

end

namespace OneDelivery

def payment : Payment := Sample.dashPayment 1 "invoice"

def verifier : Nat → Verifier := fun _ => .dash Sample.dashConfirmer

def message : Nat → ByteArray := fun _ => "[1,\"alice\",\"forward\",1]".toUTF8

/-- What the work on the message makes of a store. -/
def last (store : Store) : Desk :=
  play (messages Sample.dashNode verifier message) (List.replicate 20 0) (desk store 1)

theorem reaches_last (store : Store) :
    Reaches (turns verifier message) Store.Answers (desk store 1) (last store) :=
  reaches_play (messages_obeys Sample.dashNode verifier message) _ _

/-- A payment whose user is not there. -/
def deserted : Store := ⟨[payment], [], []⟩

/-- A user who has nearly as much as an amount can be, and a payment of a twentieth. -/
def brimful : Store :=
  ⟨[{ payment with credits := ⟨5, 2⟩ }],
    [⟨"alice", "alice@example.com", false, ⟨79228162514264337593543950335, 1⟩⟩], []⟩

end OneDelivery

open OneDelivery in
/-- One delivery is confirmed and granted its 20 credits. -/
theorem settled_or_untouched_one_delivery :
    Opening (desk (Sample.store [payment]) 1) ∧
      Reaches (turns verifier message) Store.Answers (desk (Sample.store [payment]) 1)
        (last (Sample.store [payment])) ∧
      (last (Sample.store [payment])).result? 0 = some (.confirmed ⟨20, 0⟩) ∧
      ∃ p, Requested (verifier 0) (message 0) (Sample.store [payment]) p ∧
        Store.Confirms p (Sample.store [payment]) (last (Sample.store [payment])).world ∧
        Store.Grants p.user ⟨20, 0⟩ (Sample.store [payment])
          (last (Sample.store [payment])).world := by
  have opening : Opening (desk (Sample.store [payment]) 1) := opening_desk 1 (by decide)
  have h := reaches_last (Sample.store [payment])
  have ended : (last (Sample.store [payment])).result? 0 = some (.confirmed ⟨20, 0⟩) := by
    decide +kernel
  obtain ⟨settled, -, -⟩ := settled_or_untouched (verifier 0) (message 0) opening rfl h
  obtain ⟨p, requested, hcredits, confirms, grants⟩ := settled _ ended
  rw [← hcredits] at grants
  exact ⟨opening, h, ended, p, requested, confirms, grants⟩

open OneDelivery in
/-- The payment of a user who is not there stays confirmed though its message is rejected, and a
balance that is nearly full does not grow by the credits. -/
theorem half_settled_of_deserted :
    (Opening (desk deserted 1) ∧
      Reaches (turns verifier message) Store.Answers (desk deserted 1) (last deserted) ∧
      (last deserted).result? 0 = some (.rejected (.store "Unknown user: alice")) ∧
      payment.confirmed = false ∧
      (last deserted).world.payments = [{ payment with confirmed := true }]) ∧
    (Opening (desk brimful 1) ∧
      Reaches (turns verifier message) Store.Answers (desk brimful 1) (last brimful) ∧
      (last brimful).result? 0 = some (.confirmed ⟨5, 2⟩) ∧
      ∃ user user', brimful.findUser "alice" = some user ∧
        (last brimful).world.findUser "alice" = some user' ∧
        user'.credits.value ≠ user.credits.value + Decimal.value ⟨5, 2⟩) := by
  refine ⟨⟨opening_desk 1 (by decide), reaches_last _, by decide +kernel, rfl, by decide +kernel⟩,
    opening_desk 1 (by decide), reaches_last _, by decide +kernel, ?_⟩
  refine ⟨_, ⟨"alice", "alice@example.com", false, ⟨7922816251426433759354395034, 0⟩⟩, rfl,
    by decide +kernel, ?_⟩
  norm_num [Decimal.value]

end Workflow

end Settlement
