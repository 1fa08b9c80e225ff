import Settlement.Proofs.Lockstep
import Settlement.Proofs.Store.Bookings
import Settlement.Proofs.Verifier.Shift
import Settlement.Proofs.Workflow.Collaborators
import Settlement.Proofs.Workflow.Judgement

/-!
# The same message at another time, over another store

A message is worked on at `a` over the store of a world `v`, and the same message at `b` over the
store of `v'`. If the stores are the same for it but for the balances, its lock is free in both
worlds, the chain does the same, and the clock says the same of the lock times that are compared
with it, then both runs are in step: they come to the same outcome and leave the same booking in
their stores, and the locks of all other keys as they were (`Message.Processed.elsewhere`). Where
the credits are granted in one store, they have to be an amount in the other one too; and a lock
time that has not been reached is refused with the reading of the clock at the time.
-/

namespace Settlement

/-- The lock time that is about to be compared with the clock. -/
def Stage.lockTime? : Stage → Option Nat
  | verifying _ _ _ s => s.lockTime?
  | _ => none

/-- The outcome where the transaction is no acceptable payment. -/
def Outcome.refused (e : ValidationError) : Outcome := .rejected (.verification (.validation e))

namespace Workflow

open Settlement.Rehearsal Settlement.Store

/-! ## How a run ends that has granted its credits -/

section

variable {v : Verifier} {body : ByteArray} {W : Type}
  {answer : Instant → (call : Call) → W → Answer W call.Reply} {x : Point Call Call.Reply W Stage}
  {o outcome : Outcome} {lease : Lease} {payment : Payment}

theorem eq_of_finish (endsWith : (work v body answer).EndsWith x o)
    (hturn : turn v body x.instant x.stage = finish lease outcome) : o = outcome := by
  have released := endsWith.next (Machine.after?_ask hturn)
  have stops : some outcome = some o := released.eq_of_stops rfl
  exact (Option.some.inj stops).symm

theorem eq_of_mailed (endsWith : (work v body answer).EndsWith x o)
    (hstage : x.stage = .mailed lease outcome) : o = outcome :=
  eq_of_finish endsWith (by rw [hstage]; rfl)

theorem eq_of_mailing {notice : Notice} {r : Except StoreError (Option User)}
    (endsWith : (work v body answer).EndsWith x o)
    (hstage : x.stage = .mailing lease outcome notice r) : o = outcome := by
  have hturn : turn v body x.instant x.stage =
      turn v body x.instant (.mailing lease outcome notice r) := by rw [hstage]
  rcases r with e | _ | user
  · exact eq_of_finish endsWith hturn
  · exact eq_of_finish endsWith hturn
  · by_cases wanted : user.emailEnabled
    · have mailed := endsWith.next (Machine.after?_ask (hturn.trans (if_pos wanted)))
      exact eq_of_mailed mailed rfl
    · exact eq_of_finish endsWith (hturn.trans (if_neg wanted))

/-- Where credits have been granted, the payment ends confirmed. -/
theorem eq_of_credited {balance : Decimal} (endsWith : (work v body answer).EndsWith x o)
    (hstage : x.stage = .credited lease payment (.ok (some balance))) :
    o = .confirmed payment.credits := by
  have hturn : turn v body x.instant x.stage =
      inform lease payment (.confirmed payment.credits) (.success payment) := by
    rw [hstage]
    rfl
  exact eq_of_mailing (endsWith.next (Machine.after?_ask hturn)) rfl

/-- What ends with an outcome does not break down. -/
theorem ne_crash_of_endsWith (endsWith : (work v body answer).EndsWith x o) :
    turn v body x.instant x.stage ≠ .crash := by
  intro hturn
  have stops : (turn v body x.instant x.stage).Stops none := by
    rw [hturn]
    rfl
  cases endsWith.eq_of_stops stops

/-- Where credits were asked for and the run ends with an outcome, there is a new balance and the
outcome is that the payment is confirmed. -/
theorem granted_of_endsWith {r : Option Decimal} (endsWith : (work v body answer).EndsWith x o)
    (hstage : x.stage = .confirmed lease payment (.ok true))
    (hreply : (answer x.instant (.addCredits payment.user payment.credits) x.world).reply =
      .ok r) : ∃ balance, r = some balance ∧ o = .confirmed payment.credits := by
  have hturn : turn v body x.instant x.stage =
      .ask (.addCredits payment.user payment.credits) none (.credited lease payment) := by
    rw [hstage]
    rfl
  have endsWith' := endsWith.next (Machine.after?_ask hturn)
  have hnext : Stage.credited lease payment
      (answer x.instant (.addCredits payment.user payment.credits) x.world).reply =
        .credited lease payment (.ok r) := congrArg _ hreply
  cases r with
  | none =>
      refine absurd ?_ (ne_crash_of_endsWith endsWith')
      exact congrArg (turn v body _) hnext
  | some balance => exact ⟨balance, rfl, eq_of_credited endsWith' hnext⟩

end

/-! ## The two runs -/

/-- A message for a verifier of its chain, and what the chain answers: that depends on the state it
is in, on what is asked, and on the time since the work began, but not on when it began. -/
structure Message (N : Type) where
  verifier : Verifier
  body : ByteArray
  request : Request
  read : Request.ofBody? verifier.chain body = .ok request
  node : N
  chain : Nat → (call : Call) → N → Answer N call.Reply

namespace Message

variable {N : Type} (m : Message N)

/-- The key that is locked while the message is worked on. -/
def key : String := lockKey m.verifier.chain.name m.request.user m.request.number

/-- The payment that the message is for. -/
def payment? (s : Store) : Option Payment := s.findPayment m.request.user m.request.number

/-- What is answered at `now` when the work began at `first`. -/
def answer (first now : Instant) (call : Call) (w : N × World) : Answer (N × World) call.Reply :=
  if call.isRemote then
    let answer := m.chain (now - first) call w.1
    ⟨answer.reply, answer.delay, answer.world, w.2⟩
  else
    let answer := w.2.answer now call
    ⟨answer.reply, answer.delay, w.1, answer.world⟩

/-- The work on the message that began at `first`. -/
abbrev machine (first : Instant) : Machine Call Call.Reply (N × World) Stage Outcome :=
  work m.verifier m.body (m.answer first)

/-- Worked on from `now` on in the world `w`, the message comes to an outcome, at an instant and in
a world. -/
def Processed (now : Instant) (w : World) (outcome : Outcome) (later : Instant) (w' : World) :
    Prop :=
  ∃ y, (m.machine now).Comes none ⟨now, (m.node, w), .received, []⟩ y ∧
    (m.machine now).StopsAt y (some outcome) ∧ y.instant = later ∧ y.world.2 = w'

/-- The work that begins at `a` could as well begin at `b`, as far as the clock goes: of each lock
time that is compared with it, it says the same as long after `b`. -/
def Timeless (agree : Nat → Nat → Prop) (a : Instant) (w : World) (b : Instant) : Prop :=
  ∀ x, (m.machine a).Comes none ⟨a, (m.node, w), .received, []⟩ x → ∀ time ∈ x.stage.lockTime?,
    LockTime.SameAnswer agree time (m.verifier.wallClock x.instant)
      (m.verifier.wallClock (b + (x.instant - a)))

variable {m} in
theorem Processed.le {now later : Instant} {w w' : World} {outcome : Outcome}
    (h : m.Processed now w outcome later w') : now ≤ later := by
  obtain ⟨y, comes, -, rfl, -⟩ := h
  exact comes.instant_le

theorem answer_remote {call : Call} (remote : call.isRemote) (first now : Instant) (w : N × World) :
    m.answer first now call w = ⟨(m.chain (now - first) call w.1).reply,
      (m.chain (now - first) call w.1).delay, (m.chain (now - first) call w.1).world, w.2⟩ :=
  if_pos remote

theorem answer_local {call : Call} (here : call.isRemote = false) {now : Instant} {w : N × World}
    {r : call.Reply} {delay : Duration} {u : World} (h : w.2.answer now call = ⟨r, delay, u⟩)
    (first : Instant) : m.answer first now call w = ⟨r, delay, w.1, u⟩ := by
  rw [answer, if_neg (Bool.eq_false_iff.1 here), h]

end Message

section

variable {N : Type} {m : Message N} {agree : Nat → Nat → Prop} {a b : Instant} {v v' : World}
  {o outcome outcome' : Outcome} {w w' : N × World} {d : Booking} {t : Nat} {lease lease' : Lease}
  {p : Payment}

/-- A booking that the message may have left in a store when it comes to the outcome. -/
structure Booked (m : Message N) (s : Store) (outcome : Outcome) (d : Booking) : Prop where
  found : ∀ p, d.payment? = some p → m.payment? s = some p
  credits : ∀ p, d = .granted p → outcome = .confirmed p.credits

/-- The stores have the same booking, and the chain is in the same state. -/
structure Twins (m : Message N) (v v' : World) (d : Booking) (w w' : N × World) : Prop where
  node : w'.1 = w.1
  store : w.2.store = v.store.book d
  store' : w'.2.store = v'.store.book d
  aside : Aside m.key v w.2
  aside' : Aside m.key v' w'.2

/-- Both runs hold the lock of the message's payment. -/
structure Leases (m : Message N) (lease lease' : Lease) : Prop where
  own : lease.key = m.key
  own' : lease'.key = m.key

/-- The runs are at the same stage once the lock is taken. Nothing but the lease, the new balance,
what is known of the user and the reading of the clock in a refusal may differ. -/
inductive Matched (m : Message N) (agree : Nat → Nat → Prop) (a b : Instant) (s : Store) :
    Booking → Stage → Stage → Prop
  | leased {lease lease' : Lease} (leases : Leases m lease lease') :
      Matched m agree a b s .none (.leased m.request (.ok (some lease)))
        (.leased m.request (.ok (some lease')))
  | found {lease lease' : Lease} (leases : Leases m lease lease') :
      Matched m agree a b s .none (.found m.request lease (.ok (m.payment? s)))
        (.found m.request lease' (.ok (m.payment? s)))
  | verifying {lease lease' : Lease} {p : Payment} {stage stage' : VerifierStage}
      (leases : Leases m lease lease') (found : m.payment? s = some p)
      (stages : VerifierStage.Alike a b stage stage') :
      Matched m agree a b s .none (.verifying m.request lease p stage)
        (.verifying m.request lease' p stage')
  | refused {lease lease' : Lease} {p : Payment} (leases : Leases m lease lease') :
      Matched m agree a b s .none (.confirmed lease p (.ok false)) (.confirmed lease' p (.ok false))
  | marked {lease lease' : Lease} {p : Payment} (leases : Leases m lease lease')
      (found : m.payment? s = some p) :
      Matched m agree a b s (.marked p) (.confirmed lease p (.ok true))
        (.confirmed lease' p (.ok true))
  | unknown {lease lease' : Lease} {p : Payment} {e : StoreError} (leases : Leases m lease lease')
      (found : m.payment? s = some p) :
      Matched m agree a b s (.marked p) (.credited lease p (.error e))
        (.credited lease' p (.error e))
  | granted {lease lease' : Lease} {p : Payment} {balance balance' : Decimal}
      (leases : Leases m lease lease') (found : m.payment? s = some p) :
      Matched m agree a b s (.granted p) (.credited lease p (.ok (some balance)))
        (.credited lease' p (.ok (some balance')))
  | mailing {lease lease' : Lease} {d : Booking} {outcome outcome' : Outcome}
      {notice notice' : Notice} {user user' : Option User} (leases : Leases m lease lease')
      (booked : Booked m s outcome d) (same : UpToClock agree Outcome.refused outcome outcome')
      (users : user'.map contact = user.map contact) :
      Matched m agree a b s d (.mailing lease outcome notice (.ok user))
        (.mailing lease' outcome' notice' (.ok user'))
  | mailed {lease lease' : Lease} {d : Booking} {outcome outcome' : Outcome}
      (leases : Leases m lease lease') (booked : Booked m s outcome d)
      (same : UpToClock agree Outcome.refused outcome outcome') :
      Matched m agree a b s d (.mailed lease outcome) (.mailed lease' outcome')
  | released {d : Booking} {outcome outcome' : Outcome} (booked : Booked m s outcome d)
      (same : UpToClock agree Outcome.refused outcome outcome') :
      Matched m agree a b s d (.released outcome) (.released outcome')

/-- Both runs are about to begin, or are at the same stage. -/
inductive Parallel (m : Message N) (agree : Nat → Nat → Prop) (a b : Instant) (v v' : World) :
    (N × World) × Stage → (N × World) × Stage → Prop
  | first : Parallel m agree a b v v' ((m.node, v), .received) ((m.node, v'), .received)
  | underway {d : Booking} {w w' : N × World} {stage stage' : Stage} (twins : Twins m v v' d w w')
      (stages : Matched m agree a b v.store d stage stage') :
      Parallel m agree a b v v' (w, stage) (w', stage')

/-- Both runs end with the same booking and, up to the clock, the same outcome. -/
def Concluded (m : Message N) (agree : Nat → Nat → Prop) (v v' : World) (w w' : N × World)
    (outcome outcome' : Outcome) : Prop :=
  ∃ d, Twins m v v' d w w' ∧ Booked m v.store outcome d ∧
    UpToClock agree Outcome.refused outcome outcome'

/-- The runs take turns that are in step. -/
abbrev Steps (m : Message N) (agree : Nat → Nat → Prop) (a b : Instant) (v v' : World) (t : Nat)
    (w w' : N × World) : Step Stage Outcome → Step Stage Outcome → Prop :=
  Turn.InStep (m.machine a) (m.machine b) a b (Parallel m agree a b v v')
    (Concluded m agree v v') t w w'

/-- What is needed of the two worlds for the message to come to the same outcome. -/
structure Comparable (m : Message N) (outcome : Outcome) (a : Instant) (v : World) (b : Instant)
    (v' : World) : Prop where
  resembles : Resembles m.request.user m.request.number v.store v'.store
  reliable : Reliable v.faults
  reliable' : Reliable v'.faults
  free : v.locks.isHeld a m.key = false
  free' : v'.locks.isHeld b m.key = false
  affords : ∀ p user, m.payment? v.store = some p → v'.store.findUser p.user = some user →
    outcome = .confirmed p.credits → ∃ sum, user.credits.add? p.credits = some sum

theorem twins_first (m : Message N) (v v' : World) :
    Twins m v v' .none (m.node, v) (m.node, v') :=
  ⟨rfl, rfl, rfl, .refl m.key v, .refl m.key v'⟩

/-- The stores are changed, each in its own world. -/
theorem Twins.rebook {s s' : Store} {e : Booking} (twins : Twins m v v' d w w')
    (store : s = v.store.book e) (store' : s' = v'.store.book e) :
    Twins m v v' e (w.1, { w.2 with store := s }) (w'.1, { w'.2 with store := s' }) where
  node := twins.node
  store := store
  store' := store'
  aside := ⟨twins.aside.faults, twins.aside.holds⟩
  aside' := ⟨twins.aside'.faults, twins.aside'.holds⟩

/-- The worlds are changed beside the stores. -/
theorem Twins.beside {u u' : World} (twins : Twins m v v' d w w') (store : u.store = w.2.store)
    (aside : Aside m.key v u) (store' : u'.store = w'.2.store) (aside' : Aside m.key v' u') :
    Twins m v v' d (w.1, u) (w'.1, u') :=
  ⟨twins.node, store.trans twins.store, store'.trans twins.store', aside, aside'⟩

theorem Twins.reliable (twins : Twins m v v' d w w') (h : Reliable v.faults) :
    Reliable w.2.faults := twins.aside.faults ▸ h

theorem Twins.reliable' (twins : Twins m v v' d w w') (h : Reliable v'.faults) :
    Reliable w'.2.faults := twins.aside'.faults ▸ h

theorem booked_none (m : Message N) (s : Store) (outcome : Outcome) : Booked m s outcome .none :=
  ⟨nofun, nofun⟩

theorem booked_marked {s : Store} (found : m.payment? s = some p) (outcome : Outcome) :
    Booked m s outcome (.marked p) := by
  refine ⟨fun q hq => ?_, nofun⟩
  obtain rfl := Option.some.inj hq
  exact found

theorem booked_granted {s : Store} (found : m.payment? s = some p) :
    Booked m s (.confirmed p.credits) (.granted p) := by
  refine ⟨fun q hq => ?_, fun q hq => ?_⟩
  · obtain rfl := Option.some.inj hq
    exact found
  · cases hq
    rfl

/-- A call of the collaborators in memory, each run's own, is answered at once. -/
theorem steps_local {call call' : Call} (here : call.isRemote = false)
    (here' : call'.isRemote = false) {resume : call.Reply → Stage} {resume' : call'.Reply → Stage}
    {r : call.Reply} {r' : call'.Reply} {u u' : World}
    (h : w.2.answer (a + t) call = ⟨r, ⟨0⟩, u⟩) (h' : w'.2.answer (b + t) call' = ⟨r', ⟨0⟩, u'⟩)
    (twins : Twins m v v' d (w.1, u) (w'.1, u'))
    (stages : Matched m agree a b v.store d (resume r) (resume' r')) :
    Steps m agree a b v v' t w w' (.ask call none resume) (.ask call' none resume') := by
  have answers := m.answer_local here h a
  have answers' := m.answer_local here' h' b
  refine .ask ?_ .none ?_
  · dsimp only
    rw [answers, answers']
  · dsimp only
    rw [answers, answers']
    exact .underway twins stages

theorem steps_finish (twins : Twins m v v' d w w') (leases : Leases m lease lease')
    (booked : Booked m v.store outcome d)
    (same : UpToClock agree Outcome.refused outcome outcome') :
    Steps m agree a b v v' t w w' (finish lease outcome) (finish lease' outcome') := by
  obtain ⟨r, u, h, hstore, aside⟩ := answer_release (a + t) twins.aside leases.own
  obtain ⟨r', u', h', hstore', aside'⟩ := answer_release (b + t) twins.aside' leases.own'
  exact steps_local rfl rfl h h' (twins.beside hstore aside hstore' aside')
    (.released booked same)

theorem steps_mailing {notice notice' : Notice} {user user' : Option User} {now now' : Instant}
    (twins : Twins m v v' d w w') (leases : Leases m lease lease')
    (booked : Booked m v.store outcome d) (same : UpToClock agree Outcome.refused outcome outcome')
    (users : user'.map contact = user.map contact) :
    Steps m agree a b v v' t w w'
      (turn m.verifier m.body now (.mailing lease outcome notice (.ok user)))
      (turn m.verifier m.body now' (.mailing lease' outcome' notice' (.ok user'))) := by
  cases user with
  | none =>
      obtain rfl : user' = none := Option.map_eq_none_iff.1 users
      exact steps_finish twins leases booked same
  | some user =>
      obtain ⟨user', rfl, equal⟩ := Option.map_eq_some_iff.1 users
      have wanted : (contact user').emailEnabled = (contact user).emailEnabled := by rw [equal]
      change user'.emailEnabled = user.emailEnabled at wanted
      simp only [turn, wanted]
      split
      next =>
        obtain ⟨r, u, h, hstore, aside⟩ := answer_notify (a + t) twins.aside
          (.toUser user notice.subject notice.content)
        obtain ⟨r', u', h', hstore', aside'⟩ := answer_notify (b + t) twins.aside'
          (.toUser user' notice'.subject notice'.content)
        exact steps_local rfl rfl h h' (twins.beside hstore aside hstore' aside')
          (.mailed leases booked same)
      next => exact steps_finish twins leases booked same

section

variable (comparable : Comparable m o a v b v')

include comparable

theorem steps_inform {notice notice' : Notice} (twins : Twins m v v' d w w')
    (leases : Leases m lease lease') (booked : Booked m v.store outcome d)
    (same : UpToClock agree Outcome.refused outcome outcome') :
    Steps m agree a b v v' t w w' (inform lease p outcome notice)
      (inform lease' p outcome' notice') := by
  have h := answer_findUser (a + t) (twins.reliable comparable.reliable) p.user
  have h' := answer_findUser (b + t) (twins.reliable' comparable.reliable') p.user
  rw [twins.store] at h
  rw [twins.store'] at h'
  refine steps_local rfl rfl h h' twins (.mailing leases booked same ?_)
  rw [contact_book, contact_book]
  exact comparable.resembles.users p.user

/-- The payment is marked in both stores, or in neither. -/
theorem steps_confirm (twins : Twins m v v' .none w w') (leases : Leases m lease lease')
    (found : m.payment? v.store = some p) :
    Steps m agree a b v v' t w w' (.ask (.confirmPayment p.txHash) none (.confirmed lease p))
      (.ask (.confirmPayment p.txHash) none (.confirmed lease' p)) := by
  have h := answer_confirmPayment (a + t) (twins.reliable comparable.reliable) p.txHash
  have h' := answer_confirmPayment (b + t) (twins.reliable' comparable.reliable') p.txHash
  have same : (v'.store.confirm p.txHash).1 = (v.store.confirm p.txHash).1 := by
    rw [confirm_fst, confirm_fst]
    exact comparable.resembles.isOpen p found
  rw [twins.store] at h
  rw [twins.store'] at h'
  change _ = (⟨.ok (v.store.confirm p.txHash).1, ⟨0⟩, _⟩ : Answer _ (Except StoreError Bool)) at h
  change _ = (⟨.ok (v'.store.confirm p.txHash).1, ⟨0⟩, _⟩ : Answer _ (Except StoreError Bool)) at h'
  rw [same] at h'
  cases hflip : (v.store.confirm p.txHash).1 with
  | true =>
      refine steps_local rfl rfl h h' (twins.rebook (e := .marked p) rfl rfl) ?_
      rw [hflip]
      exact .marked leases found
  | false =>
      have unmarked := twins.rebook (e := .none) (confirm_snd hflip)
        (confirm_snd (same.trans hflip))
      refine steps_local rfl rfl h h' unmarked ?_
      rw [hflip]
      exact .refused leases

theorem steps_verdict (twins : Twins m v v' .none w w') (leases : Leases m lease lease')
    (found : m.payment? v.store = some p) {verdict verdict' : Verdict}
    (verdicts : UpToClock agree Verifier.refused verdict verdict') :
    Steps m agree a b v v' t w w' (afterVerdict lease p verdict)
      (afterVerdict lease' p verdict') := by
  cases verdicts with
  | ahead time readings =>
      exact steps_inform comparable twins leases (booked_none m _ _) (.ahead time readings)
  | same verdict =>
      unfold afterVerdict
      split
      next => exact steps_confirm comparable twins leases found
      next => exact steps_finish twins leases (booked_none m _ _) (.same _)
      next => exact steps_inform comparable twins leases (booked_none m _ _) (.same _)
      next => exact steps_finish twins leases (booked_none m _ _) (.same _)

/-- The chain and the register of addresses answer both runs alike. -/
theorem answers_check (twins : Twins m v v' .none w w') {call : Call} (check : call.isCheck) :
    ∃ r delay node, m.answer a (a + t) call w = ⟨r, delay, node, w.2⟩ ∧
      m.answer b (b + t) call w' = ⟨r, delay, node, w'.2⟩ := by
  have chain : call.isRemote → ∃ r delay node, m.answer a (a + t) call w = ⟨r, delay, node, w.2⟩ ∧
      m.answer b (b + t) call w' = ⟨r, delay, node, w'.2⟩ := by
    intro remote
    refine ⟨_, _, _, m.answer_remote remote a (a + t) w, ?_⟩
    rw [m.answer_remote remote, twins.node, Nat.add_sub_cancel_left, Nat.add_sub_cancel_left]
  cases call with
  | ethereum query => exact chain rfl
  | dash query => exact chain rfl
  | bitcoinCash query => exact chain rfl
  | findAddress user =>
      have h := answer_findAddress (a + t) (twins.reliable comparable.reliable) user
      have h' := answer_findAddress (b + t) (twins.reliable' comparable.reliable') user
      have same : w'.2.store.findAddress user = w.2.store.findAddress user := by
        rw [twins.store, twins.store', book, book, findAddress, findAddress,
          comparable.resembles.addresses]
      rw [same] at h'
      refine ⟨_, _, _, m.answer_local rfl h a, ?_⟩
      rw [m.answer_local rfl h' b, twins.node]
  | _ => cases check

theorem steps_verification (twins : Twins m v v' .none w w') (leases : Leases m lease lease')
    (found : m.payment? v.store = some p) {s s' : Step VerifierStage Verdict}
    (turns : s.Alike a b (VerifierStage.Alike a b) (UpToClock agree Verifier.refused) s')
    (asks : s.Asks (·.isCheck)) (goes : s ≠ .crash) :
    Steps m agree a b v v' t w w' (s.andThen (.verifying m.request lease p) (afterVerdict lease p))
      (s'.andThen (.verifying m.request lease' p) (afterVerdict lease' p)) := by
  have stages : ∀ (node : N) (s s' : VerifierStage), VerifierStage.Alike a b s s' →
      Parallel m agree a b v v' ((node, w.2), .verifying m.request lease p s)
        ((node, w'.2), .verifying m.request lease' p s') := by
    intro node s s' alike
    exact .underway ⟨rfl, twins.store, twins.store', twins.aside, twins.aside'⟩
      (.verifying leases found alike)
  cases turns with
  | done verdicts => exact steps_verdict comparable twins leases found verdicts
  | crash => exact absurd rfl goes
  | ask cuts resumes =>
      obtain ⟨r, delay, node, h, h'⟩ := answers_check comparable twins asks
      refine .ask ?_ ?_ ?_
      · dsimp only [id_eq]
        rw [h, h']
      · dsimp only [id_eq]
        rw [h, h']
        exact cuts.map (stages node)
      · dsimp only [id_eq]
        rw [h, h']
        exact stages node _ _ (resumes r)
  | pause cuts wakes ends =>
      have same : w' = (w.1, w'.2) := by rw [← twins.node]
      rw [same]
      exact .pause (cuts.map (stages w.1)) (stages w.1 _ _ wakes)

/-- The credits are granted in both stores, or the user is unknown in both. -/
theorem steps_grant {x : Point Call Call.Reply (N × World) Stage} (now : x.instant = a + t)
    (hstage : x.stage = .confirmed lease p (.ok true))
    (twins : Twins m v v' (.marked p) x.world w') (leases : Leases m lease lease')
    (found : m.payment? v.store = some p) (endsWith : (m.machine a).EndsWith x o) :
    Steps m agree a b v v' t x.world w'
      (.ask (.addCredits p.user p.credits) none (.credited lease p))
      (.ask (.addCredits p.user p.credits) none (.credited lease' p)) := by
  have h := answer_addCredits (a + t) (twins.reliable comparable.reliable) p.user p.credits
  have h' := answer_addCredits (b + t) (twins.reliable' comparable.reliable') p.user
    p.credits
  rw [twins.store] at h
  rw [twins.store'] at h'
  have known : (v.store.book (.marked p)).findUser p.user = v.store.findUser p.user :=
    findUser_confirm _ _ _
  have known' : (v'.store.book (.marked p)).findUser p.user = v'.store.findUser p.user :=
    findUser_confirm _ _ _
  have users := comparable.resembles.users p.user
  cases huser : v.store.findUser p.user with
  | none =>
      rw [huser] at users known
      rw [Option.map_eq_none_iff.1 users] at known'
      rw [addCredits_of_unknown known] at h
      rw [addCredits_of_unknown known'] at h'
      exact steps_local rfl rfl h h' (twins.rebook (e := .marked p) rfl rfl)
        (.unknown leases found)
  | some user =>
      rw [huser] at users known
      obtain ⟨user', huser', -⟩ := Option.map_eq_some_iff.1 users
      rw [huser'] at known'
      rw [addCredits_of_known known] at h
      rw [addCredits_of_known known'] at h'
      have hreply : (m.answer a x.instant (.addCredits p.user p.credits) x.world).reply =
          .ok (user.credits.add? p.credits) := by
        rw [now, m.answer_local rfl h a]
      -- the first run does not break down, so its sum is an amount and it will end confirmed;
      -- in that case the sum is an amount in the other store too
      obtain ⟨balance, hsum, houtcome⟩ := granted_of_endsWith endsWith hstage hreply
      obtain ⟨balance', hsum'⟩ := comparable.affords p user' found huser' houtcome
      rw [hsum] at h
      rw [hsum'] at h'
      exact steps_local rfl rfl h h' (twins.rebook (e := .granted p) rfl rfl)
        (.granted leases found)

theorem steps_found {now now' : Instant} (twins : Twins m v v' .none w w')
    (leases : Leases m lease lease') (hnow : now = a + t) (hnow' : now' = b + t)
    (goes : turn m.verifier m.body now (.found m.request lease (.ok (m.payment? v.store))) ≠
      .crash) :
    Steps m agree a b v v' t w w'
      (turn m.verifier m.body now (.found m.request lease (.ok (m.payment? v.store))))
      (turn m.verifier m.body now' (.found m.request lease' (.ok (m.payment? v.store)))) := by
  cases hfound : m.payment? v.store with
  | none => exact steps_finish twins leases (booked_none m _ _) (.same _)
  | some p =>
      rw [hfound] at goes
      cases hrefused : refusal? m.verifier m.request p with
      | some reason =>
          simp only [turn, hrefused]
          exact steps_finish twins leases (booked_none m _ _) (.same _)
      | none =>
          simp only [turn, hrefused] at goes ⊢
          rw [hnow] at goes ⊢
          rw [hnow']
          refine steps_verification comparable twins leases hfound
            (m.verifier.alike_begin m.request p t) (m.verifier.begin_asks _ _ _) fun crash => ?_
          rw [crash] at goes
          exact goes rfl

/-- Every stage is followed by turns in step. -/
theorem steps_of_matched {x x' : Point Call Call.Reply (N × World) Stage}
    (now : x.instant = a + t) (now' : x'.instant = b + t)
    (twins : Twins m v v' d x.world x'.world)
    (matched : Matched m agree a b v.store d x.stage x'.stage)
    (steady : ∀ time ∈ x.stage.lockTime?,
      LockTime.SameAnswer agree time (m.verifier.wallClock (a + t))
        (m.verifier.wallClock (b + t)))
    (endsWith : (m.machine a).EndsWith x o) :
    Steps m agree a b v v' t x.world x'.world (turn m.verifier m.body x.instant x.stage)
      (turn m.verifier m.body x'.instant x'.stage) := by
  have goes := ne_crash_of_endsWith endsWith
  generalize hstage : x.stage = stage at matched goes steady
  generalize x'.stage = stage' at matched
  cases matched with
  | leased leases =>
      have h := answer_findPayment (a + t) (twins.reliable comparable.reliable) m.request.user
        m.request.number
      have h' := answer_findPayment (b + t) (twins.reliable' comparable.reliable') m.request.user
        m.request.number
      rw [twins.store] at h
      rw [twins.store', book, comparable.resembles.found] at h'
      exact steps_local rfl rfl h h' twins (.found leases)
  | found leases => exact steps_found comparable twins leases now now' goes
  | verifying leases found stages =>
      rw [now] at goes ⊢
      rw [now']
      refine steps_verification comparable twins leases found
        (m.verifier.alike_turn _ t stages steady) (m.verifier.turn_asks _ _ _) fun crash => ?_
      simp only [turn, crash] at goes
      exact goes rfl
  | refused leases => exact steps_finish twins leases (booked_none m _ _) (.same _)
  | marked leases found => exact steps_grant comparable now hstage twins leases found endsWith
  | unknown leases found => exact steps_finish twins leases (booked_marked found _) (.same _)
  | granted leases found =>
      exact steps_inform comparable twins leases (booked_granted found) (.same _)
  | mailing leases booked same users => exact steps_mailing twins leases booked same users
  | mailed leases booked same => exact steps_finish twins leases booked same
  | released booked same => exact .done ⟨d, twins, booked, same⟩

/-- The lock is free for both runs. -/
theorem steps_first (goes : receive m.verifier m.body ≠ .crash) :
    Steps m agree a b v v' t (m.node, v) (m.node, v') (receive m.verifier m.body)
      (receive m.verifier m.body) := by
  have free : v.locks.isHeld (a + t) m.key = false :=
    LockTable.isHeld_later (Nat.le_add_right a t) comparable.free
  have free' : v'.locks.isHeld (b + t) m.key = false :=
    LockTable.isHeld_later (Nat.le_add_right b t) comparable.free'
  unfold receive at goes ⊢
  rw [m.read] at goes ⊢
  dsimp only at goes ⊢
  split
  next => exact .done ⟨.none, twins_first m v v', booked_none m _ _, .same _⟩
  next supported =>
    rw [if_neg supported] at goes
    cases httl : lockTtl? m.verifier with
    | none =>
        rw [httl] at goes
        exact absurd rfl goes
    | some ttl =>
        have h := answer_acquire (a + t) comparable.reliable m.key ttl
        have h' := answer_acquire (b + t) comparable.reliable' m.key ttl
        rw [LockTable.acquire_of_free free] at h
        rw [LockTable.acquire_of_free free'] at h'
        have aside := (Aside.refl m.key v).acquire (a + t) ttl
        have aside' := (Aside.refl m.key v').acquire (b + t) ttl
        exact steps_local rfl rfl h h' (d := .none) ⟨rfl, rfl, rfl, aside, aside'⟩
          (.leased ⟨rfl, rfl⟩)

theorem steps_of_parallel {x x' : Point Call Call.Reply (N × World) Stage}
    (now : x.instant = a + t) (now' : x'.instant = b + t)
    (parallel : Parallel m agree a b v v' (x.world, x.stage) (x'.world, x'.stage))
    (steady : ∀ time ∈ x.stage.lockTime?,
      LockTime.SameAnswer agree time (m.verifier.wallClock (a + t))
        (m.verifier.wallClock (b + t)))
    (endsWith : (m.machine a).EndsWith x o) :
    Steps m agree a b v v' t x.world x'.world (turn m.verifier m.body x.instant x.stage)
      (turn m.verifier m.body x'.instant x'.stage) := by
  have goes := ne_crash_of_endsWith endsWith
  generalize hx : (x.world, x.stage) = state at parallel
  generalize hx' : (x'.world, x'.stage) = state' at parallel
  cases parallel with
  | first =>
      obtain ⟨hworld, hstage⟩ := Prod.mk.inj hx
      obtain ⟨hworld', hstage'⟩ := Prod.mk.inj hx'
      rw [hstage] at goes ⊢
      rw [hworld, hworld', hstage']
      exact steps_first comparable goes
  | underway twins matched =>
      obtain ⟨rfl, rfl⟩ := Prod.mk.inj hx
      obtain ⟨rfl, rfl⟩ := Prod.mk.inj hx'
      exact steps_of_matched comparable now now' twins matched steady endsWith

/-- What a message comes to, and what it leaves in the store, does not depend on when it is worked
on, nor on what it cannot see of the store. -/
theorem Message.Processed.elsewhere {later : Instant} {u : World}
    (processed : m.Processed a v o later u) (timeless : m.Timeless agree a v b) :
    ∃ d o' u', m.Processed b v' o' (b + (later - a)) u' ∧ UpToClock agree Outcome.refused o o' ∧
      u.store = v.store.book d ∧ u'.store = v'.store.book d ∧ Booked m v.store o d ∧
      Aside m.key v u ∧ Aside m.key v' u' := by
  obtain ⟨y, comes, stops, rfl, rfl⟩ := processed
  have abreast : Machine.Abreast a b (Parallel m agree a b v v')
      (⟨a, (m.node, v), .received, []⟩ : Point Call Call.Reply _ _)
      ⟨b, (m.node, v'), .received, []⟩ := ⟨⟨0, rfl, rfl⟩, .first⟩
  have turns : ∀ (t : Nat) (x x' : Point Call Call.Reply (N × World) Stage), x.instant = a + t →
      x'.instant = b + t → Parallel m agree a b v v' (x.world, x.stage) (x'.world, x'.stage) →
      (m.machine a).Comes none ⟨a, (m.node, v), .received, []⟩ x →
      (m.machine a).EndsWith x o → Steps m agree a b v v' t x.world x'.world
        ((m.machine a).turn x.instant x.stage) ((m.machine b).turn x'.instant x'.stage) := by
    intro t x x' now now' parallel met
    refine steps_of_parallel comparable now now' parallel fun time htime => ?_
    have same := timeless x met time htime
    rwa [now, Nat.add_sub_cancel_left] at same
  obtain ⟨y', o', comes', stops', ⟨t, hy, hy'⟩, d, twins, booked, same⟩ :=
    comes.inStep turns stops .refl abreast
  have elapsed : y'.instant = b + (y.instant - a) := by
    rw [hy, hy', Nat.add_sub_cancel_left]
  exact ⟨d, o', _, ⟨y', comes', stops', elapsed, rfl⟩, same, twins.store, twins.store', booked,
    twins.aside, twins.aside'⟩

end

end

end Workflow

end Settlement
