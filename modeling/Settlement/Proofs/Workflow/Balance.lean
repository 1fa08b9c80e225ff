import Settlement.Proofs.Decimal.Value
import Settlement.Proofs.Workflow.Crowd

/-!
# The credits of users

A payment is credited when whoever confirmed it was granted its credits (`isCredited`). What is due
to a user is the sum over the payments that were open at first and are credited, and each balance is
the first one with that sum, in every order of the turns (`balance_of_reaches`). Sums of amounts are
rounded where they need more digits than an amount has, so the sums are assumed to be exact.
-/

namespace Settlement

def grants (name : String) (amount : Decimal) : Contact → Bool
  | ⟨.addCredits n a, (.ok (some _) : Except StoreError (Option Decimal))⟩ =>
    n == name && a == amount
  | _ => false

/-- Whoever confirmed the payment was granted its credits. -/
def isCredited (calls : List (Nat × Contact)) (p : Payment) : Bool :=
  calls.any fun call => flips p.txHash call.2 &&
    calls.any fun other => other.1 == call.1 && grants p.user p.credits other.2

/-- What is due to a user: the credits of the payments that were open at first and are credited. -/
def due (s₀ : Store) (calls : List (Nat × Contact)) (name : String) : ℚ :=
  ((s₀.payments.filter fun p => p.user == name && !p.confirmed && isCredited calls p).map
    fun p => p.credits.value).sum

theorem grants_iff {name : String} {amount : Decimal} {a : Contact} :
    grants name amount a ↔ ∃ balance, a = .grant name amount (.ok (some balance)) := by
  constructor
  · intro h
    unfold grants at h
    split at h
    next n amount' balance =>
      obtain ⟨rfl, rfl⟩ := by simpa using h
      exact ⟨balance, rfl⟩
    next => exact absurd h (by simp)
  · rintro ⟨balance, rfl⟩
    simp [grants]

section

variable {calls : List (Nat × Contact)} {p : Payment} {i : Nat}

theorem isCredited_iff : isCredited calls p ↔ ∃ i balance,
    (i, Contact.flip p.txHash (.ok true)) ∈ calls ∧
      (i, Contact.grant p.user p.credits (.ok (some balance))) ∈ calls := by
  simp only [isCredited, List.any_eq_true, Bool.and_eq_true, flips_iff, grants_iff, beq_iff_eq]
  constructor
  · rintro ⟨⟨i, a⟩, ha, rfl, ⟨j, b⟩, hb, rfl, balance, rfl⟩
    exact ⟨j, balance, ha, hb⟩
  · rintro ⟨i, balance, ha, hb⟩
    exact ⟨_, ha, rfl, _, hb, rfl, balance, rfl⟩

theorem isCredited_cons_of_none {a : Contact} (noFlip : ∀ hash, a ≠ .flip hash (.ok true))
    (noGrant : ∀ name amount balance, a ≠ .grant name amount (.ok (some balance))) :
    isCredited ((i, a) :: calls) p = isCredited calls p := by
  rw [Bool.eq_iff_iff, isCredited_iff, isCredited_iff]
  simp [(noFlip _).symm, (noGrant _ _ _).symm]

theorem isCredited_cons_flip {hash : String}
    (noGrant : ∀ name amount balance,
      (i, Contact.grant name amount (.ok (some balance))) ∉ calls) :
    isCredited ((i, .flip hash (.ok true)) :: calls) p = isCredited calls p := by
  rw [Bool.eq_iff_iff, isCredited_iff, isCredited_iff]
  constructor
  · rintro ⟨j, balance, hflip, hgrant⟩
    replace hgrant := (List.mem_cons.1 hgrant).resolve_left (by simp)
    rcases List.mem_cons.1 hflip with heq | hflip
    · obtain rfl := (Prod.mk.inj heq).1
      exact absurd hgrant (noGrant _ _ _)
    · exact ⟨j, balance, hflip, hgrant⟩
  · rintro ⟨j, balance, hflip, hgrant⟩
    exact ⟨j, balance, List.mem_cons_of_mem _ hflip, List.mem_cons_of_mem _ hgrant⟩

/-- A grant credits the payment that whoever is granted has confirmed. -/
theorem isCredited_cons_grant {payment : Payment} {balance : Decimal}
    (flips : ∀ hash, (i, Contact.flip hash (.ok true)) ∈ calls ↔ hash = payment.txHash)
    (same : p.txHash = payment.txHash → p = payment) :
    isCredited ((i, .grant payment.user payment.credits (.ok (some balance))) :: calls) p ↔
      isCredited calls p ∨ p = payment := by
  rw [isCredited_iff, isCredited_iff]
  constructor
  · rintro ⟨j, balance', hflip, hgrant⟩
    replace hflip := (List.mem_cons.1 hflip).resolve_left (by simp)
    rcases List.mem_cons.1 hgrant with heq | hgrant
    · obtain rfl := (Prod.mk.inj heq).1
      exact Or.inr (same ((flips _).1 hflip))
    · exact Or.inl ⟨j, balance', hflip, hgrant⟩
  · rintro (⟨j, balance', hflip, hgrant⟩ | rfl)
    · exact ⟨j, balance', List.mem_cons_of_mem _ hflip, List.mem_cons_of_mem _ hgrant⟩
    · exact ⟨i, balance, List.mem_cons_of_mem _ ((flips _).2 rfl), List.mem_cons_self⟩

theorem sum_filter_insert {α : Type} {l : List α} {a : α} {f : α → ℚ} {old new : α → Bool}
    (nodup : l.Nodup) (ha : a ∈ l) (hold : old a = false)
    (hnew : ∀ b ∈ l, new b = true ↔ old b = true ∨ b = a) :
    ((l.filter new).map f).sum = ((l.filter old).map f).sum + f a := by
  induction l with
  | nil => simp at ha
  | cons b rest ih =>
      obtain ⟨hb, hrest⟩ := List.nodup_cons.1 nodup
      have hnewb := hnew b List.mem_cons_self
      rcases List.mem_cons.1 ha with rfl | ha
      · have hsame : rest.filter new = rest.filter old := by
          refine List.filter_congr fun c hc => ?_
          have hne : c ≠ a := fun h => hb (h ▸ hc)
          rw [Bool.eq_iff_iff, hnew c (List.mem_cons_of_mem _ hc)]
          simp [hne]
        rw [List.filter_cons_of_pos (hnewb.2 (Or.inr rfl)),
          List.filter_cons_of_neg (by simp [hold]), hsame, List.map_cons, List.sum_cons, add_comm]
      · have hne : b ≠ a := fun h => hb (h ▸ ha)
        have hsame : new b = old b := by
          rw [Bool.eq_iff_iff, hnewb]
          simp [hne]
        have ih := ih hrest ha fun c hc => hnew c (List.mem_cons_of_mem _ hc)
        by_cases hold : old b
        · rw [List.filter_cons_of_pos (hsame.trans hold), List.filter_cons_of_pos hold,
            List.map_cons, List.map_cons, List.sum_cons, List.sum_cons, ih, add_assoc]
        · rw [List.filter_cons_of_neg (by rwa [hsame]), List.filter_cons_of_neg hold, ih]

theorem due_congr {s₀ : Store} {calls' : List (Nat × Contact)} (name : String)
    (h : ∀ p, isCredited calls' p = isCredited calls p) :
    due s₀ calls' name = due s₀ calls name := by
  simp only [due, h]

theorem due_cons_grant {s₀ : Store} {payment : Payment} {balance : Decimal}
    (distinct : (s₀.payments.map Payment.txHash).Nodup) (hp : payment ∈ s₀.payments)
    (unconfirmed : payment.confirmed = false) (new : isCredited calls payment = false)
    (flips : ∀ hash, (i, Contact.flip hash (.ok true)) ∈ calls ↔ hash = payment.txHash)
    (name : String) :
    due s₀ ((i, .grant payment.user payment.credits (.ok (some balance))) :: calls) name =
      due s₀ calls name + if payment.user = name then payment.credits.value else 0 := by
  have credited : ∀ p ∈ s₀.payments,
      isCredited ((i, .grant payment.user payment.credits (.ok (some balance))) :: calls) p ↔
        isCredited calls p ∨ p = payment := by
    intro p hmem
    exact isCredited_cons_grant flips (List.inj_on_of_nodup_map distinct hmem hp)
  by_cases hname : payment.user = name
  · rw [if_pos hname]
    refine sum_filter_insert distinct.of_map hp (by simp [new]) fun p hmem => ?_
    simp only [Bool.and_eq_true, credited p hmem]
    constructor
    · rintro ⟨hopen, h | h⟩
      · exact Or.inl ⟨hopen, h⟩
      · exact Or.inr h
    · rintro (⟨hopen, h⟩ | rfl)
      · exact ⟨hopen, Or.inl h⟩
      · simp [hname, unconfirmed]
  · rw [if_neg hname, add_zero]
    unfold due
    congr 2
    refine List.filter_congr fun p hmem => ?_
    rw [Bool.eq_iff_iff]
    simp only [Bool.and_eq_true, credited p hmem]
    constructor
    · rintro ⟨⟨huser, hopen⟩, h | rfl⟩
      · exact ⟨⟨huser, hopen⟩, h⟩
      · exact absurd (by simpa using huser) hname
    · rintro ⟨hopen, h⟩
      exact ⟨hopen, Or.inl h⟩

end

namespace Workflow

open Settlement.System

section

variable {verifier : Nat → Verifier} {body : Nat → ByteArray} {start sys sys' : Desk} {i : Nat}

theorem mem_calls_iff {a : Contact} (h : a.call.isLedger) :
    (i, a) ∈ sys.calls ↔ a ∈ ledger (sys.askedBy i) := by
  rw [mem_ledger h, mem_askedBy]

theorem balance_of_moves (opening : Opening start)
    (h : Reaches (turns verifier body) Store.Answers start sys)
    (move : Moves (turns verifier body) Store.Answers i sys sys') {name : String} {user : User}
    {balance : ℚ} (huser : sys.world.findUser name = some user)
    (hbalance : user.credits.value = balance + due start.world sys.calls name)
    (exact : Decimal.Exact (balance + due start.world sys'.calls name)) :
    ∃ user', sys'.world.findUser name = some user' ∧
      user'.credits.value = balance + due start.world sys'.calls name := by
  have books := books_of_reaches opening h
  have hafter := ledger_of_reaches opening (h.tail ⟨i, move⟩) i
  rcases move.calls with ⟨hcalls, hworld⟩ | ⟨call, r, hcalls, hanswer⟩
  · rw [hcalls, hworld]
    exact ⟨user, huser, hbalance⟩
  rw [askedBy_of_call hcalls] at hafter
  rw [hcalls] at exact ⊢
  have change := Store.change_of_answers hanswer
  generalize sys'.world = world at change ⊢
  generalize (⟨call, r⟩ : Contact) = a at change hafter exact ⊢
  cases change with
  | none noFlip noGrant _ =>
      rw [due_congr name fun p => isCredited_cons_of_none noFlip noGrant]
      exact ⟨user, huser, hbalance⟩
  | @flip hash hturn =>
      obtain ⟨request, payment, -, -, hledger⟩ := flipped_of_ledger hafter
      have noGrant : ∀ name amount balance,
          (i, Contact.grant name amount (.ok (some balance))) ∉ sys.calls := by
        intro name amount balance
        rw [mem_calls_iff rfl, hledger]
        simp
      rw [due_congr name fun p => isCredited_cons_flip noGrant]
      refine ⟨user, ?_, hbalance⟩
      rw [Store.findUser, Store.users_confirm]
      exact huser
  | @grant name' amount balance' hgrant =>
      obtain ⟨request, payment, fits, rfl, rfl, hledger⟩ := granted_of_ledger hafter
      have unconfirmed := unconfirmed_of_fits fits
      have flips : ∀ hash, (i, Contact.flip hash (.ok true)) ∈ sys.calls ↔
          hash = payment.txHash := by
        intro hash
        rw [mem_calls_iff rfl, hledger]
        simp [flipRow]
      have looked : LookedUp (sys.askedBy i) payment :=
        lookedUp_of_row hledger (lookup_mem_flipRow _ _ _)
      have hmem := open_of_lookedUp opening h looked unconfirmed
      -- who confirmed the payment is the one that is granted now, and was granted nothing before
      have new : isCredited sys.calls payment = false := by
        rw [← Bool.not_eq_true, isCredited_iff]
        rintro ⟨j, old, hflip, hold⟩
        obtain rfl := books.once j i _ hflip ((flips _).2 rfl)
        rw [mem_calls_iff rfl, hledger] at hold
        simp [flipRow] at hold
      rw [due_cons_grant opening.distinct hmem unconfirmed new flips] at exact ⊢
      obtain ⟨user', huser', hsum, hnew, hothers⟩ := Store.findUser_addCredits hgrant
      by_cases hname : payment.user = name
      · subst hname
        obtain rfl : user = user' := Option.some.inj (huser.symm.trans huser')
        rw [if_pos rfl, ← add_assoc, ← hbalance] at exact ⊢
        obtain ⟨sum, hsum', hvalue⟩ := Decimal.value_add? exact
        obtain rfl : sum = balance' := Option.some.inj (hsum'.symm.trans hsum)
        exact ⟨_, hnew, hvalue⟩
      · rw [if_neg hname, add_zero]
        exact ⟨user, (hothers name (Ne.symm hname)).trans huser, hbalance⟩

/-- Each balance is the first one with what is due, as long as these sums are exact. -/
theorem balance_of_reaches (opening : Opening start)
    (h : Reaches (turns verifier body) Store.Answers start sys) {name : String} {user : User}
    (huser : start.world.findUser name = some user)
    (exact : ∀ calls, calls <:+ sys.calls →
      Decimal.Exact (user.credits.value + due start.world calls name)) :
    ∃ user', sys.world.findUser name = some user' ∧
      user'.credits.value = user.credits.value + due start.world sys.calls name := by
  induction h with
  | refl =>
      refine ⟨user, huser, ?_⟩
      rw [calls_of_fresh opening.fresh]
      simp [due, isCredited]
  | @tail mid last h move ih =>
      obtain ⟨index, move⟩ := move
      -- the sums are exact all along the row, as its calls so far are a suffix of all calls
      have hsuffix : mid.calls <:+ last.calls := by
        rcases move.calls with ⟨hcalls, -⟩ | ⟨call, r, hcalls, -⟩
        · exact hcalls ▸ List.suffix_refl _
        · rw [hcalls]
          exact List.suffix_cons _ _
      obtain ⟨user', huser', hbalance⟩ := ih fun calls hc => exact calls (hc.trans hsuffix)
      exact balance_of_moves opening h move huser' hbalance (exact _ (List.suffix_refl _))

/-- Whatever the order of the turns, and even where several messages hold one lock: no payment
loses its confirmation, a turn confirms nothing but the open payment that its message looked up,
a payment has at most one message that ends confirmed, and the balances grow by what is due. -/
theorem credited_once (verifier : Nat → Verifier) (body : Nat → ByteArray) {start sys : Desk}
    (opening : Opening start) (h : Reaches (turns verifier body) Store.Answers start sys) :
    (∀ sys', Reaches (turns verifier body) Store.Answers sys sys' →
      ∀ p ∈ sys.world.payments, p.confirmed → p ∈ sys'.world.payments) ∧
    (∀ i sys', Moves (turns verifier body) Store.Answers i sys sys' →
      sys'.world.payments = sys.world.payments ∨
        ∃ p ∈ start.world.payments, p.confirmed = false ∧
          (∀ q, LookedUp (sys.askedBy i) q ↔ q = p) ∧
          sys'.world.payments = sys.world.payments.map (Store.mark p.txHash)) ∧
    (∀ i credits, sys.result? i = some (.confirmed credits) →
      ∃ p ∈ start.world.payments, p.confirmed = false ∧ credits = p.credits ∧
        LookedUp (sys.askedBy i) p ∧
        ∀ j credits', sys.result? j = some (.confirmed credits') →
          LookedUp (sys.askedBy j) p → j = i) ∧
    (∀ name user, start.world.findUser name = some user →
      (∀ calls, calls <:+ sys.calls →
        Decimal.Exact (user.credits.value + due start.world calls name)) →
      ∃ user', sys.world.findUser name = some user' ∧
        user'.credits.value = user.credits.value + due start.world sys.calls name) := by
  refine ⟨?_, ?_, ?_, ?_⟩
  · intro sys' h' p hp confirmed
    exact confirmed_of_reaches opening h h' hp confirmed
  · intro i sys' move
    exact payments_of_moves opening h move
  · intro i credits ended
    obtain ⟨-, p, -, -, hp, unconfirmed, hcredits, looked, -⟩ :=
      confirmed_of_result opening h ended
    refine ⟨p, hp, unconfirmed, hcredits, looked, fun j credits' ended' looked' => ?_⟩
    exact eq_of_ended opening h ended' ended looked' looked
  · intro name user huser exact
    exact balance_of_reaches opening h huser exact

end

namespace TwoDeliveries

def payment : Payment := Sample.dashPayment 1 "invoice"

def store : Store := Sample.store [payment]

def verifier : Nat → Verifier := fun _ => .dash Sample.dashConfirmer

def body : Nat → ByteArray := fun _ => "[1,\"alice\",\"forward\",1]".toUTF8

def last : Desk :=
  play (messages Sample.dashNode verifier body) (List.replicate 20 [0, 1]).flatten (desk store 2)

theorem due_store (calls : List (Nat × Contact)) :
    due store calls "alice" = if isCredited calls payment then 20 else 0 := by
  have huser : payment.user = "alice" := rfl
  have hopen : payment.confirmed = false := rfl
  have hvalue : payment.credits.value = 20 := by
    norm_num [payment, Sample.dashPayment, Decimal.value]
  by_cases h : isCredited calls payment
  · simp [due, store, Sample.store, huser, hopen, hvalue, h]
  · simp [due, store, Sample.store, huser, hopen, h]

theorem exact_due (calls : List (Nat × Contact)) : Decimal.Exact (due store calls "alice") := by
  rw [due_store]
  split
  · exact ⟨⟨20, 0⟩, by decide +kernel, by norm_num [Decimal.value]⟩
  · exact ⟨⟨0, 0⟩, by decide +kernel, by norm_num [Decimal.value]⟩

end TwoDeliveries

open TwoDeliveries in
/-- Of two deliveries that are worked on in turns, one is confirmed and granted the credits. -/
theorem credited_once_two_deliveries :
    Opening (desk store 2) ∧
      Reaches (turns verifier body) Store.Answers (desk store 2) last ∧
      last.result? 0 = some (.confirmed ⟨20, 0⟩) ∧
      (∀ j credits, last.result? j = some (.confirmed credits) →
        LookedUp (last.askedBy j) payment → j = 0) ∧
      ∃ user, last.world.findUser "alice" = some user ∧ user.credits.value = 20 := by
  have opening : Opening (desk store 2) := opening_desk 2 (by decide)
  have h : Reaches (turns verifier body) Store.Answers (desk store 2) last :=
    reaches_play (messages_obeys Sample.dashNode verifier body) _ _
  have ended : last.result? 0 = some (.confirmed ⟨20, 0⟩) := by decide +kernel
  obtain ⟨-, -, once, balance⟩ := credited_once verifier body opening h
  refine ⟨opening, h, ended, ?_, ?_⟩
  · obtain ⟨p, hp, -, -, -, hothers⟩ := once 0 _ ended
    rw [List.mem_singleton.1 hp] at hothers
    exact hothers
  · have hzero : Decimal.value ⟨0, 0⟩ = 0 := Decimal.value_eq_zero rfl
    obtain ⟨user, huser, hvalue⟩ := balance "alice" _ rfl fun calls _ => by
      rw [hzero, zero_add]
      exact exact_due calls
    have credited : isCredited last.calls payment := by decide +kernel
    refine ⟨user, huser, hvalue.trans ?_⟩
    rw [hzero, zero_add]
    exact (due_store last.calls).trans (if_pos credited)

end Workflow

end Settlement
