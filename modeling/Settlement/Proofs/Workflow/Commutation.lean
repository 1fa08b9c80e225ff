import Settlement.Proofs.Locks.Keys
import Settlement.Proofs.Workflow.Elsewhere

/-!
# Two messages, one after the other

Two messages for different payments are worked on over one store, the second one once the first one
has come to its end. Neither sees what the other one has done: the store resembles the one that it
would have found at first, its lock is still free, and what it is answered does not depend on when:
neither by the chain (`Message.chain`) nor by the clock that a lock time is compared with
(`Message.Timeless`). So in the other order both come to the same outcomes and leave the same
bookings (`exists_swapped`). These mark different payments, and the credits that they add are the
same as numbers where no balance has to be rounded (`inTurn_comm`).

The clock goes on while the messages are worked on. If it reaches a lock time meanwhile, the order
decides what it says of it. If the lock time is ahead of it all the while, the orders differ in the
readings that the refusals name, and in nothing else (`inTurn_upToClock`).
-/

namespace Settlement.Workflow

open Settlement.Rehearsal Settlement.Store

/-- What a message grants a user when it comes to an outcome. -/
def Message.share {N : Type} (m : Message N) (outcome : Outcome) (name : String) : ℚ :=
  match outcome with
  | .confirmed credits => if m.request.user = name then credits.value else 0
  | _ => 0

section

variable {N : Type} {m : Message N} {s : Store} {p : Payment} {o : Outcome} {d : Booking}
  {name : String} {user : User}

theorem user_of_payment? (found : m.payment? s = some p) : p.user = m.request.user := by
  have h := List.find?_some found
  simp only [isPayment, Bool.and_eq_true, beq_iff_eq] at h
  exact h.1

theorem share_confirmed (found : m.payment? s = some p) :
    m.share (.confirmed p.credits) p.user = p.credits.value :=
  if_pos (user_of_payment? found).symm

/-- What is booked is what the message grants, or nothing. -/
theorem due_of_booked (booked : Booked m s o d) (name : String) :
    d.due name = 0 ∨ d.due name = m.share o name := by
  cases d with
  | none => exact Or.inl rfl
  | marked p => exact Or.inl rfl
  | granted p =>
      right
      rw [booked.credits p rfl, Message.share, Booking.due,
        user_of_payment? (booked.found p rfl)]

/-- Credits are granted where the balance with what the message grants is exact. -/
theorem affords_of_booked (booked : Booked m s o d) {s' : Store}
    (exact : ∀ name user, s'.findUser name = some user →
      Decimal.Exact (user.credits.value + m.share o name)) : s'.Affords d := by
  rintro p user rfl huser
  have h := exact p.user user huser
  rwa [booked.credits p rfl, share_confirmed (booked.found p rfl)] at h

/-- The message comes to the same outcome in two worlds if the balances of the second one are exact
with what it grants. -/
theorem comparable_of_exact {a b : Instant} {v v' : World}
    (resembles : Resembles m.request.user m.request.number v.store v'.store)
    (reliable : Reliable v.faults) (reliable' : Reliable v'.faults)
    (free : v.locks.isHeld a m.key = false) (free' : v'.locks.isHeld b m.key = false)
    (exact : ∀ name user, v'.store.findUser name = some user →
      Decimal.Exact (user.credits.value + m.share o name)) : Comparable m o a v b v' := by
  refine ⟨resembles, reliable, reliable', free, free', ?_⟩
  rintro p user found huser rfl
  have h := exact p.user user huser
  rw [share_confirmed found] at h
  obtain ⟨sum, hsum, -⟩ := Decimal.value_add? h
  exact ⟨sum, hsum⟩

end

variable {N₁ N₂ : Type} {m₁ : Message N₁} {m₂ : Message N₂} {s : Store} {now : Instant}
  {w w' : World} {o₁ o₂ : Outcome} {d : Booking}

/-- The messages are for payments of different users or numbers, with different hashes. -/
structure Distinct (m₁ : Message N₁) (m₂ : Message N₂) (s : Store) : Prop where
  requests : (m₁.request.user, m₁.request.number) ≠ (m₂.request.user, m₂.request.number)
  hashes : ∀ p q, m₁.payment? s = some p → m₂.payment? s = some q → p.txHash ≠ q.txHash

/-- The balances are exact with what either message grants, and with what both of them do. -/
structure StaysExact (m₁ : Message N₁) (m₂ : Message N₂) (o₁ o₂ : Outcome) (s : Store) :
    Prop where
  first : ∀ name user, s.findUser name = some user →
    Decimal.Exact (user.credits.value + m₁.share o₁ name)
  second : ∀ name user, s.findUser name = some user →
    Decimal.Exact (user.credits.value + m₂.share o₂ name)
  both : ∀ name user, s.findUser name = some user →
    Decimal.Exact (user.credits.value + m₁.share o₁ name + m₂.share o₂ name)

/-- The first message is worked on from `now` on to its end, and then the second one. They come to
these outcomes and leave this world. -/
def InTurn (m₁ : Message N₁) (m₂ : Message N₂) (now : Instant) (w : World) (o₁ o₂ : Outcome)
    (w' : World) : Prop :=
  ∃ between u later, m₁.Processed now w o₁ between u ∧ m₂.Processed between u o₂ later w'

theorem Distinct.symm (h : Distinct m₁ m₂ s) : Distinct m₂ m₁ s :=
  ⟨h.requests.symm, fun p q hp hq => (h.hashes q p hq hp).symm⟩

theorem Distinct.key_ne (h : Distinct m₁ m₂ s) : m₂.key ≠ m₁.key := by
  intro hkey
  obtain ⟨-, huser, hnumber⟩ := lockKey_eq_iff.1 hkey
  exact h.requests (by rw [huser, hnumber])

theorem StaysExact.symm (h : StaysExact m₁ m₂ o₁ o₂ s) : StaysExact m₂ m₁ o₂ o₁ s where
  first := h.second
  second := h.first
  both := by
    intro name user huser
    rw [add_right_comm]
    exact h.both name user huser

/-- To the second message the store looks as it did before the first one. -/
theorem Distinct.resembles (h : Distinct m₁ m₂ s) (booked : Booked m₁ s o₁ d) :
    Resembles m₂.request.user m₂.request.number s (s.book d) :=
  resembles_book fun p q hp hq => h.hashes p q (booked.found p hp) hq

/-- What the second message grants can be added to what the first one has left. -/
theorem StaysExact.later (h : StaysExact m₁ m₂ o₁ o₂ s) (booked : Booked m₁ s o₁ d) :
    ∀ name user, (s.book d).findUser name = some user →
      Decimal.Exact (user.credits.value + m₂.share o₂ name) := by
  intro name user huser
  have balance := balance?_book (affords_of_booked booked h.first) name
  unfold balance? at balance
  rw [huser, Option.map_some] at balance
  obtain ⟨before, hbefore, hvalue⟩ := Option.map_eq_some_iff.1 balance.symm
  obtain ⟨user', huser', rfl⟩ := Option.map_eq_some_iff.1 hbefore
  rw [← hvalue]
  rcases due_of_booked booked name with hdue | hdue
  · rw [hdue, add_zero]
    exact h.second name user' huser'
  · rw [hdue]
    exact h.both name user' huser'

/-- Both bookings, in either order, add the same to each balance. -/
theorem balance?_book_comm {d₁ d₂ : Booking} (h : StaysExact m₁ m₂ o₁ o₂ s)
    (booked₁ : Booked m₁ s o₁ d₁) (booked₂ : Booked m₂ s o₂ d₂) (name : String) :
    ((s.book d₁).book d₂).balance? name = ((s.book d₂).book d₁).balance? name := by
  rw [balance?_book (affords_of_booked booked₂ (h.later booked₁)),
    balance?_book (affords_of_booked booked₁ h.first),
    balance?_book (affords_of_booked booked₁ (h.symm.later booked₂)),
    balance?_book (affords_of_booked booked₂ h.second), Option.map_map, Option.map_map]
  congr 1
  funext value
  exact add_right_comm _ _ _

/-- The lock of a message is free once another one has come to its end. -/
theorem free_later {later : Instant} {key other : String} {u : World} (aside : Aside other w u)
    (ne : key ≠ other) (hle : now ≤ later) (free : w.locks.isHeld now key = false) :
    u.locks.isHeld later key = false := by
  rw [LockTable.isHeld_congr (aside.holds key ne)]
  exact LockTable.isHeld_later hle free

theorem timeless_self {N : Type} (m : Message N) (now : Instant) (w : World) :
    m.Timeless Eq now w now := by
  intro x met time _
  have started : now ≤ x.instant := met.instant_le
  rw [Nat.add_sub_cancel' started]
  exact ⟨Iff.rfl, fun _ => rfl⟩

theorem InTurn.unique {p₁ p₂ : Outcome} {u : World} (h : InTurn m₁ m₂ now w o₁ o₂ w')
    (h' : InTurn m₁ m₂ now w p₁ p₂ u) : o₁ = p₁ ∧ o₂ = p₂ ∧ w' = u := by
  obtain ⟨_, _, _, ⟨y₁, comes₁, stops₁, rfl, rfl⟩, ⟨y₂, comes₂, stops₂, rfl, rfl⟩⟩ := h
  obtain ⟨_, _, _, ⟨z₁, comes₁', stops₁', rfl, rfl⟩, ⟨z₂, comes₂', stops₂', rfl, rfl⟩⟩ := h'
  obtain ⟨rfl, rfl⟩ := comes₁.unique stops₁ comes₁' stops₁'
  obtain ⟨rfl, rfl⟩ := comes₂.unique stops₂ comes₂' stops₂'
  exact ⟨rfl, rfl, rfl⟩

section

variable {agree : Nat → Nat → Prop} {between later : Instant} {u : World}
  (distinct : Distinct m₁ m₂ w.store) (reliable : Reliable w.faults)
  (free₁ : w.locks.isHeld now m₁.key = false) (free₂ : w.locks.isHeld now m₂.key = false)
  (first : m₁.Processed now w o₁ between u) (second : m₂.Processed between u o₂ later w')
  (timeless₁ : m₁.Timeless agree now w (now + (later - between)))
  (timeless₂ : m₂.Timeless agree between u now) (exact : StaysExact m₁ m₂ o₁ o₂ w.store)

include distinct reliable free₁ free₂ first second timeless₁ timeless₂ exact

/-- In the other order the messages come to the same outcomes, up to the clock, and to the same
payments and balances. -/
theorem exists_swapped :
    ∃ p₂ p₁ v, InTurn m₂ m₁ now w p₂ p₁ v ∧ UpToClock agree Outcome.refused o₁ p₁ ∧
      UpToClock agree Outcome.refused o₂ p₂ ∧ v.store.payments = w'.store.payments ∧
      ∀ name, v.store.balance? name = w'.store.balance? name := by
  -- the first message alone: what it leaves beside its booking
  have alone : Comparable m₁ o₁ now w now w :=
    comparable_of_exact (.refl _ _ _) reliable reliable free₁ free₁ exact.first
  obtain ⟨d, -, -, -, -, hu, -, booked, aside, -⟩ :=
    first.elsewhere alone (timeless_self m₁ now w)
  -- the second message, as if it were the first one
  have unseen := distinct.resembles booked
  rw [← hu] at unseen
  have earlier : Comparable m₂ o₂ between u now w :=
    comparable_of_exact unseen.symm (aside.faults ▸ reliable) reliable
      (free_later aside distinct.key_ne first.le free₂) free₂ exact.second
  obtain ⟨d₂, p₂, u', first₂, same₂, hw', hu', booked₂, -, aside'⟩ :=
    second.elsewhere earlier timeless₂
  replace booked₂ : Booked m₂ w.store o₂ d₂ :=
    ⟨fun p hp => unseen.found.symm.trans (booked₂.found p hp), booked₂.credits⟩
  -- the first message after it
  have unseen' := distinct.symm.resembles booked₂
  rw [← hu'] at unseen'
  have after : Comparable m₁ o₁ now w (now + (later - between)) u' :=
    comparable_of_exact unseen' reliable (aside'.faults ▸ reliable) free₁
      (free_later aside' distinct.symm.key_ne first₂.le free₁) (hu' ▸ exact.symm.later booked₂)
  obtain ⟨d₁, p₁, w'', second₁, same₁, hu, hw'', booked₁, -, -⟩ := first.elsewhere after timeless₁
  rw [hu] at hw'
  rw [hu'] at hw''
  refine ⟨p₂, p₁, w'', ⟨_, u', _, first₂, second₁⟩, same₁, same₂, ?_, fun name => ?_⟩
  · rw [hw', hw'']
    exact payments_book_comm fun p q hp hq =>
      (distinct.hashes q p (booked₁.found q hq) (booked₂.found p hp)).symm
  · rw [hw', hw'']
    exact (balance?_book_comm exact booked₁ booked₂ name).symm

/-- Where the clock says the same of the lock times but for its readings, the other order comes to
an end as well, with the same outcomes but for the readings that the refusals name, the same
payments, confirmed or not, and the same balances as numbers. -/
theorem inTurn_upToClock :
    (∃ p₂ p₁ v, InTurn m₂ m₁ now w p₂ p₁ v) ∧
      ∀ p₂ p₁ v, InTurn m₂ m₁ now w p₂ p₁ v → UpToClock agree Outcome.refused o₁ p₁ ∧
        UpToClock agree Outcome.refused o₂ p₂ ∧ v.store.payments = w'.store.payments ∧
        ∀ name, v.store.balance? name = w'.store.balance? name := by
  obtain ⟨p₂, p₁, v, swapped, same⟩ :=
    exists_swapped distinct reliable free₁ free₂ first second timeless₁ timeless₂ exact
  refine ⟨⟨p₂, p₁, v, swapped⟩, fun q₂ q₁ v' other => ?_⟩
  obtain ⟨rfl, rfl, rfl⟩ := swapped.unique other
  exact same

end

namespace Pair

/-- The clock goes on by a second each second. -/
def confirmer : Dash.Confirmer where
  policy := ⟨3, .ofSecs 120, .ofSecs 5400⟩
  forwardPollInterval := .ofSecs 240
  wallClock := fun now => 1700000000 + now / 1000000000

/-- The transaction of the deposit has a lock time that has passed, and its answers take time. -/
def node : Node :=
  { Node.empty with
    forwards := some [⟨.ofSecs 30, .ok [⟨"deposit", 100000000⟩]⟩]
    dashTransactions := [("deposit", [⟨.ofSecs 30, .ok ⟨"deposit", 1600000000, 100⟩⟩])]
    heights := some [⟨.ofSecs 30, .ok 900000⟩] }

/-- What the service answers to the work on a message. -/
def answers (_ : Nat) (call : Call) (node : Node) : Answer Node call.Reply :=
  let answer := World.answer 0 ⟨node, .empty, .empty, .empty, .none⟩ call
  ⟨answer.reply, answer.delay, answer.world.node⟩

def first : Message Node where
  verifier := .dash confirmer
  body := "[1,\"alice\",\"forward\",1]".toUTF8
  request := .dash ⟨1, "alice", "forward", 1⟩
  read := by decide +kernel
  node := node
  chain := answers

def second : Message Node where
  verifier := .dash confirmer
  body := "[1,\"alice\",\"forward\",2]".toUTF8
  request := .dash ⟨1, "alice", "forward", 2⟩
  read := by decide +kernel
  node := node
  chain := answers

/-- A world in which one user owes two payments. -/
def world : World :=
  ⟨.empty, Sample.store [Sample.dashPayment 1 "invoice", Sample.dashPayment 2 "order"], .empty,
    .empty, .none⟩

/-- Where the work on a message is after some turns. -/
def place (m : Message Node) (now : Instant) (w : World) (turns : Nat) :
    Point Call Call.Reply (Node × World) Stage :=
  (m.machine now).follow none turns ⟨now, (m.node, w), .received, []⟩

/-- Where it ends. -/
def last (m : Message Node) (now : Instant) (w : World) :
    Point Call Call.Reply (Node × World) Stage := place m now w 30

theorem processed_of_eq_last {m : Message Node} {now : Instant} {w : World} {outcome : Outcome}
    {x : Point Call Call.Reply (Node × World) Stage} (hx : x = last m now w)
    (h : (m.machine now).result? x = some outcome) :
    m.Processed now w outcome x.instant x.world.2 := by
  subst hx
  exact ⟨_, Machine.comes_follow _ _ _ _, Machine.stopsAt_of_result? h, rfl, rfl⟩

/-- The lock times that are compared with the clock are seen turn by turn. -/
theorem timeless_of_turns {m : Message Node} {a b : Instant} {w : World} {outcome : Outcome}
    (h : (m.machine a).result? (last m a w) = some outcome)
    (turns : ∀ k ≤ 30, ∀ time ∈ (place m a w k).stage.lockTime?,
      LockTime.SameAnswer Eq time (m.verifier.wallClock (place m a w k).instant)
        (m.verifier.wallClock (b + ((place m a w k).instant - a)))) : m.Timeless Eq a w b := by
  intro x met time htime
  obtain ⟨k, hk, rfl⟩ := met.exists_follow (Machine.stopsAt_of_result? h)
  exact turns k hk time htime

/-- The first message is done when the clock has gone on by a minute and a half. -/
def between : Point Call Call.Reply (Node × World) Stage := last first 0 world

/-- The world after the first message and then the second one. -/
def after : Point Call Call.Reply (Node × World) Stage :=
  last second between.instant between.world.2

theorem exact_coins {n : Nat} (h : (⟨n, 0⟩ : Decimal).Fits) {q : ℚ} (hq : q = n) :
    Decimal.Exact q := ⟨⟨n, 0⟩, h, by simp [Decimal.value, hq]⟩

/-- There is one user, who has nothing. -/
theorem known {name : String} {user : User} (h : world.store.findUser name = some user) :
    name = "alice" ∧ user.credits.value = 0 := by
  have hmem : user ∈ world.store.users := List.mem_of_find?_eq_some h
  have hname := List.find?_some h
  obtain rfl := List.mem_singleton.1 hmem
  exact ⟨(by simpa using hname : "alice" = name).symm, Decimal.value_eq_zero rfl⟩

theorem share_alice {m : Message Node} (h : m.request.user = "alice") :
    m.share (.confirmed ⟨20, 0⟩) "alice" = 20 := by
  rw [Message.share, if_pos h]
  norm_num [Decimal.value]

theorem distinct : Distinct first second world.store where
  requests := by decide
  hashes := by
    intro p q hp hq
    have first_payment : first.payment? world.store = some (Sample.dashPayment 1 "invoice") := by
      decide +kernel
    have second_payment : second.payment? world.store = some (Sample.dashPayment 2 "order") := by
      decide +kernel
    obtain rfl := Option.some.inj (first_payment.symm.trans hp)
    obtain rfl := Option.some.inj (second_payment.symm.trans hq)
    decide

theorem staysExact :
    StaysExact first second (.confirmed ⟨20, 0⟩) (.confirmed ⟨20, 0⟩) world.store := by
  refine ⟨fun name user huser => ?_, fun name user huser => ?_, fun name user huser => ?_⟩
  all_goals
    obtain ⟨rfl, hvalue⟩ := known huser
    rw [hvalue]
  · exact exact_coins (n := 20) (by decide) (by rw [share_alice rfl]; norm_num)
  · exact exact_coins (n := 20) (by decide) (by rw [share_alice rfl]; norm_num)
  · exact exact_coins (n := 40) (by decide) (by rw [share_alice rfl, share_alice rfl]; norm_num)

end Pair

end Settlement.Workflow
