import Settlement.Proofs.Interleaving
import Settlement.Proofs.Store.Books
import Settlement.Proofs.Workflow.Ledger
import Settlement.Rehearsal.Node

/-!
# Work on many messages over one store

Any number of messages are worked on over one store, with turns in any order, by verifiers of any
chain. Only the store is held to what it does: nodes, locks and mails may answer anything, and a
call of the store may fail. The books of the store and the ledger of each message are linked by the
calls: whoever confirms a payment has looked it up and found it open, and whoever grants its credits
has confirmed it before.
-/

namespace Settlement.Workflow

open Settlement.System

/-- Workers on messages over a store. -/
abbrev Desk := System Call Call.Reply Store Stage Outcome

abbrev turns (verifier : Nat → Verifier) (body : Nat → ByteArray) :
    Nat → Instant → Stage → Step Stage Outcome :=
  fun i => turn (verifier i) (body i)

/-- Nothing has been done yet, and the hashes of the payments are distinct. -/
structure Opening (start : Desk) : Prop where
  fresh : start.log = []
  begins : ∀ worker ∈ start.workers, worker.status = .ready .received
  distinct : (start.world.payments.map Payment.txHash).Nodup

def LookedUp (asked : List Contact) (p : Payment) : Prop :=
  ∃ user number, Contact.lookup user number (.ok (some p)) ∈ asked

section

variable {v : Verifier} {asked : List Contact} {verifier : Nat → Verifier}
  {body : Nat → ByteArray} {start sys sys' : Desk}

theorem mem_ledger {a : Contact} (h : a.call.isLedger) : a ∈ ledger asked ↔ a ∈ asked := by
  simp [ledger, h]

theorem lookedUp_of_row {row : List Contact} {request : Request} {payment : Payment}
    (h : ledger asked = row)
    (hmem : .lookup request.user request.number (.ok (some payment)) ∈ row) :
    LookedUp asked payment := by
  rw [← h, mem_ledger rfl] at hmem
  exact ⟨_, _, hmem⟩

theorem lookup_mem_flipRow (request : Request) (payment : Payment) (r : Except StoreError Bool) :
    .lookup request.user request.number (.ok (some payment)) ∈ flipRow request payment r :=
  List.mem_cons_of_mem _ List.mem_cons_self

theorem lookup_mem_grantRow (request : Request) (payment : Payment)
    (r : Except StoreError (Option Decimal)) :
    .lookup request.user request.number (.ok (some payment)) ∈ grantRow request payment r :=
  List.mem_cons_of_mem _ (lookup_mem_flipRow request payment _)

/-- A message looks one payment up at most. -/
theorem lookedUp_iff {p q : Payment} (h : Ledger v (ledger asked)) (hp : LookedUp asked p) :
    LookedUp asked q ↔ q = p := by
  refine ⟨?_, fun hq => hq ▸ hp⟩
  obtain ⟨user, number, hp⟩ := hp
  rintro ⟨user', number', hq⟩
  rw [← mem_ledger rfl] at hp hq
  generalize ledger asked = row at h hp hq
  -- however far the row goes, it has one lookup
  cases h with
  | blank => simp at hp
  | found request r =>
      obtain ⟨-, -, rfl⟩ := by simpa using hp
      obtain ⟨-, -, hq⟩ := by simpa using hq
      exact hq
  | flipped r fits =>
      obtain ⟨-, -, rfl⟩ := by simpa [flipRow] using hp
      obtain ⟨-, -, hq⟩ := by simpa [flipRow] using hq
      exact hq
  | granted r fits =>
      obtain ⟨-, -, rfl⟩ := by simpa [grantRow, flipRow] using hp
      obtain ⟨-, -, hq⟩ := by simpa [grantRow, flipRow] using hq
      exact hq

/-- What was looked up before a payment is confirmed is that payment, and it was found open. -/
theorem flipped_of_ledger {hash : String} {r : Except StoreError Bool}
    (h : Ledger v (ledger (.flip hash r :: asked))) :
    ∃ request payment, refusal? v request payment = none ∧ hash = payment.txHash ∧
      ledger asked = [.lookup request.user request.number (.ok (some payment))] := by
  change Ledger v (.flip hash r :: ledger asked) at h
  generalize ledger asked = row at h
  cases h with
  | flipped r fits => exact ⟨_, _, fits, rfl, rfl⟩

/-- What was confirmed before credits are granted is the payment that they are for. -/
theorem granted_of_ledger {name : String} {amount : Decimal}
    {r : Except StoreError (Option Decimal)}
    (h : Ledger v (ledger (.grant name amount r :: asked))) :
    ∃ request payment, refusal? v request payment = none ∧ name = payment.user ∧
      amount = payment.credits ∧ ledger asked = flipRow request payment (.ok true) := by
  change Ledger v (.grant name amount r :: ledger asked) at h
  generalize ledger asked = row at h
  cases h with
  | granted r fits => exact ⟨_, _, fits, rfl, rfl, rfl⟩

theorem unconfirmed_of_fits {request : Request} {payment : Payment}
    (fits : refusal? v request payment = none) : payment.confirmed = false := by
  unfold refusal? at fits
  split at fits
  · simp at fits
  · split at fits
    · simp at fits
    · split at fits
      · simp at fits
      · simpa using ‹¬payment.confirmed = true›

/-- In every order of the turns the store is what the calls made of it. -/
theorem books_of_reaches (opening : Opening start)
    (h : Reaches (turns verifier body) Store.Answers start sys) :
    Books start.world sys.calls sys.world := by
  induction h with
  | refl =>
      rw [calls_of_fresh opening.fresh]
      exact .start _
  | tail _ move ih =>
      obtain ⟨index, move⟩ := move
      rcases move.calls with ⟨hcalls, hworld⟩ | ⟨call, r, hcalls, hanswer⟩
      · rw [hcalls, hworld]
        exact ih
      · rw [hcalls]
        exact ih.answer opening.distinct index (Store.change_of_answers hanswer)

/-- In every order of the turns each message keeps its ledger. -/
theorem ledger_of_reaches (opening : Opening start)
    (h : Reaches (turns verifier body) Store.Answers start sys) (i : Nat) :
    Ledger (verifier i) (ledger (sys.askedBy i)) := by
  obtain ⟨stage, course⟩ := course_of_reaches h opening.fresh opening.begins i
  exact ledger_of_track (track_of_course course)

theorem open_of_lookedUp (opening : Opening start)
    (h : Reaches (turns verifier body) Store.Answers start sys) {i : Nat} {p : Payment}
    (hp : LookedUp (sys.askedBy i) p) (unconfirmed : p.confirmed = false) :
    p ∈ start.world.payments := by
  obtain ⟨user, number, hp⟩ := hp
  exact (books_of_reaches opening h).found i user number p (mem_askedBy.1 hp) unconfirmed

theorem confirmed_of_reaches (opening : Opening start)
    (h : Reaches (turns verifier body) Store.Answers start sys)
    (h' : Reaches (turns verifier body) Store.Answers sys sys') {p : Payment}
    (hp : p ∈ sys.world.payments) (confirmed : p.confirmed) : p ∈ sys'.world.payments := by
  induction h' with
  | refl => exact hp
  | @tail mid last h' move ih =>
      obtain ⟨index, move⟩ := move
      rcases move.calls with ⟨-, hworld⟩ | ⟨call, r, -, hanswer⟩
      · rwa [hworld]
      · have distinct := (books_of_reaches opening (h.trans h')).distinct opening.distinct
        exact (Store.change_of_answers hanswer).mem_of_confirmed distinct ih confirmed

/-- A turn confirms no payment, or the one that its message has looked up, which was open. -/
theorem payments_of_moves (opening : Opening start)
    (h : Reaches (turns verifier body) Store.Answers start sys) {i : Nat}
    (move : Moves (turns verifier body) Store.Answers i sys sys') :
    sys'.world.payments = sys.world.payments ∨
      ∃ p ∈ start.world.payments, p.confirmed = false ∧
        (∀ q, LookedUp (sys.askedBy i) q ↔ q = p) ∧
        sys'.world.payments = sys.world.payments.map (Store.mark p.txHash) := by
  have books := books_of_reaches opening h
  have hafter := ledger_of_reaches opening (h.tail ⟨i, move⟩) i
  rcases move.calls with ⟨-, hworld⟩ | ⟨call, r, hcalls, hanswer⟩
  · exact Or.inl (congrArg Store.payments hworld)
  rw [askedBy_of_call hcalls] at hafter
  have change := Store.change_of_answers hanswer
  generalize sys'.world = world at change ⊢
  generalize ha : (⟨call, r⟩ : Contact) = a at change hafter
  cases change with
  | none _ _ _ => exact Or.inl rfl
  | grant h => exact Or.inl (Store.payments_addCredits _ _ _)
  | @flip hash hturn =>
      obtain ⟨request, payment, fits, rfl, hledger⟩ := flipped_of_ledger hafter
      have unconfirmed := unconfirmed_of_fits fits
      have looked : LookedUp (sys.askedBy i) payment :=
        lookedUp_of_row hledger (List.mem_singleton_self _)
      refine Or.inr ⟨payment, open_of_lookedUp opening h looked unconfirmed, unconfirmed, ?_, ?_⟩
      · intro q
        exact lookedUp_iff (ledger_of_reaches opening h i) looked
      · exact Store.payments_confirm (books.distinct opening.distinct) _

theorem confirmed_of_result (opening : Opening start)
    (h : Reaches (turns verifier body) Store.Answers start sys) {i : Nat} {credits : Decimal}
    (ended : sys.result? i = some (.confirmed credits)) :
    ∃ request payment balance, Request.ofBody? (verifier i).chain (body i) = .ok request ∧
      payment ∈ start.world.payments ∧ payment.confirmed = false ∧ credits = payment.credits ∧
      LookedUp (sys.askedBy i) payment ∧
      (verifier i).Gives request payment (checked (sys.askedBy i)) (.ok ()) ∧
      ledger (sys.askedBy i) = grantRow request payment (.ok (some balance)) := by
  have ends := ends_of_reaches h opening.fresh opening.begins ended
  obtain ⟨request, payment, balance, read, fits, hcredits, gives, hledger⟩ :=
    confirmed_of_done (done_of_ends ends)
  have unconfirmed := unconfirmed_of_fits fits
  have looked : LookedUp (sys.askedBy i) payment :=
    lookedUp_of_row hledger (lookup_mem_grantRow _ _ _)
  exact ⟨request, payment, balance, read, open_of_lookedUp opening h looked unconfirmed,
    unconfirmed, hcredits, looked, gives, hledger⟩

/-- Two messages that end confirmed have looked up different payments. -/
theorem eq_of_ended (opening : Opening start)
    (h : Reaches (turns verifier body) Store.Answers start sys) {i j : Nat} {c d : Decimal}
    {p : Payment} (hi : sys.result? i = some (.confirmed c))
    (hj : sys.result? j = some (.confirmed d)) (hpi : LookedUp (sys.askedBy i) p)
    (hpj : LookedUp (sys.askedBy j) p) : i = j := by
  -- both have confirmed the payment, and the books admit one who did
  have flipped : ∀ {k : Nat} {credits : Decimal}, sys.result? k = some (.confirmed credits) →
      LookedUp (sys.askedBy k) p → (k, Contact.flip p.txHash (.ok true)) ∈ sys.calls := by
    intro k credits ended hp
    obtain ⟨request, q, balance, -, -, -, -, hq, -, hledger⟩ := confirmed_of_result opening h ended
    obtain rfl := (lookedUp_iff (ledger_of_reaches opening h k) hp).1 hq
    rw [← mem_askedBy, ← mem_ledger rfl, hledger]
    simp [grantRow, flipRow]
  exact (books_of_reaches opening h).once i j _ (flipped hi hpi) (flipped hj hpj)

end

/-- A store beside a node that always answers the same, locks that are always free, and a mailbox
that takes every mail. -/
def answerAt (node : Rehearsal.Node) : (call : Call) → Store → Answer Store call.Reply
  | .ethereum query, s => ⟨(node.ethereum query).reply, (node.ethereum query).delay, s⟩
  | .dash query, s => ⟨(node.dash query).reply, (node.dash query).delay, s⟩
  | .bitcoinCash query, s => ⟨(node.bitcoinCash query).reply, (node.bitcoinCash query).delay, s⟩
  | .acquire key _, s => ⟨.ok (some ⟨key, 0⟩), ⟨0⟩, s⟩
  | .release _, s => ⟨.ok (), ⟨0⟩, s⟩
  | .findPayment user number, s => ⟨.ok (s.findPayment user number), ⟨0⟩, s⟩
  | .confirmPayment hash, s => ⟨.ok (s.confirm hash).1, ⟨0⟩, (s.confirm hash).2⟩
  | .addCredits user amount, s =>
    ⟨(s.addCredits user amount).1, ⟨0⟩, (s.addCredits user amount).2⟩
  | .findAddress user, s => ⟨.ok (s.findAddress user), ⟨0⟩, s⟩
  | .findUser user, s => ⟨.ok (s.findUser user), ⟨0⟩, s⟩
  | .notify _, s => ⟨.ok (), ⟨0⟩, s⟩

def messages (node : Rehearsal.Node) (verifier : Nat → Verifier) (body : Nat → ByteArray)
    (i : Nat) : Machine Call Call.Reply Store Stage Outcome where
  turn := turn (verifier i) (body i)
  answer := fun _ call s => answerAt node call s

def desk (store : Store) (count : Nat) : Desk :=
  ⟨0, store, List.replicate count (.begin .received none), 0, []⟩

theorem messages_obeys (node : Rehearsal.Node) (verifier : Nat → Verifier)
    (body : Nat → ByteArray) (i : Nat) : (messages node verifier body i).Obeys Store.Answers := by
  intro now call s
  cases call with
  | findPayment user number => exact Or.inl rfl
  | confirmPayment hash => exact Or.inl rfl
  | addCredits user amount => exact Or.inl rfl
  | findAddress user => exact Or.inl rfl
  | findUser user => exact Or.inl rfl
  | ethereum query => rfl
  | dash query => rfl
  | bitcoinCash query => rfl
  | acquire key ttl => rfl
  | release lease => rfl
  | notify email => rfl

theorem opening_desk {store : Store} (count : Nat)
    (distinct : (store.payments.map Payment.txHash).Nodup) : Opening (desk store count) where
  fresh := rfl
  begins := by
    intro worker hw
    rw [(List.mem_replicate.1 hw).2]
    rfl
  distinct := distinct

namespace Sample

/-- A store of one user who owes payments. -/
def store (payments : List Payment) : Store :=
  ⟨payments, [⟨"alice", "alice@example.com", false, ⟨0, 0⟩⟩], []⟩

/-- A Dash payment of half a coin that is worth 20 credits. -/
def dashPayment (number : Int) (hash : String) : Payment :=
  ⟨number, "alice", hash, .dash, .native, ⟨5, 1⟩, ⟨20, 0⟩, false, ⟨0, 0⟩⟩

/-- A service with a forward that has passed a whole coin on. -/
def dashNode : Rehearsal.Node :=
  { Rehearsal.Node.empty with
    forwards := some [⟨⟨0⟩, .ok [⟨"deposit", 100000000⟩]⟩]
    dashTransactions := [("deposit", [⟨⟨0⟩, .ok ⟨"deposit", 0, 100⟩⟩])]
    heights := some [⟨⟨0⟩, .ok 900000⟩] }

def dashConfirmer : Dash.Confirmer := ⟨⟨3, ⟨1⟩, ⟨1000⟩⟩, ⟨1⟩, fun _ => 0⟩

end Sample

end Settlement.Workflow
