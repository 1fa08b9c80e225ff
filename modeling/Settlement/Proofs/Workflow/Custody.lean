import Settlement.Proofs.Locks.Answers
import Settlement.Proofs.Workflow.Trail

/-!
# The lease of the work on a message

From the moment at which the lock of its payment was taken until it is given back, the work on a
message has a lease: `Stage.lease?`. `Custody` lists what a turn does with it. While there is one
the work is in time (`Lasts`): the lock, the store and the mails take no time, so all that passes is
the time of the verification. At the end the lease has been given back, once and as the last thing
(`released_of_done`).
-/

namespace Settlement

/-- The lease that the work has at a stage. -/
def Stage.lease? : Stage → Option Lease
  | .leased _ (.ok (some lease)) => some lease
  | .found _ lease _ => some lease
  | .verifying _ lease _ _ => some lease
  | .confirmed lease _ _ => some lease
  | .credited lease _ _ => some lease
  | .mailing lease _ _ _ => some lease
  | .mailed lease _ => some lease
  | _ => none

namespace Contact

/-- The lock of a key was taken for a time, or was not. -/
abbrev acquire (key : String) (ttl : Duration) (r : Except LockError (Option Lease)) : Contact :=
  ⟨.acquire key ttl, r⟩

abbrev release (lease : Lease) (r : Except LockError Unit) : Contact := ⟨.release lease, r⟩

theorem acquire_inj {key key' : String} {ttl ttl' : Duration}
    {r r' : Except LockError (Option Lease)} (h : acquire key ttl r = acquire key' ttl' r') :
    key = key' ∧ ttl = ttl' ∧ r = r' := by
  cases h
  exact ⟨rfl, rfl, rfl⟩

end Contact

namespace Workflow

/-- What a turn does with the lease: it takes one for the payment of the request, gives it back, or
keeps what there is and asks nothing of the locks. -/
inductive Custody (v : Verifier) (body : ByteArray) (stage : Stage) : List Contact → Stage → Prop
  | takes {request : Request} {ttl : Duration} (r : Except LockError (Option Lease))
      (first : stage = .received) (read : Request.ofBody? v.chain body = .ok request)
      (length : lockTtl? v = some ttl) :
      Custody v body stage
        [.acquire (lockKey v.chain.name request.user request.number) ttl r] (.leased request r)
  | gives {lease : Lease} {outcome : Outcome} (r : Except LockError Unit)
      (held : stage.lease? = some lease) :
      Custody v body stage [.release lease r] (.released outcome)
  | keeps {asked : List Contact} {next : Stage} (unlocking : ∀ a ∈ asked, a.call.isLock = false)
      (same : next.lease? = stage.lease?) (begun : next ≠ .received) :
      Custody v body stage asked next

/-- The work, which began at `first` and is to be over `length` after that, goes on at `wake`, not
later than it may at its stage. -/
def Lasts (v : Verifier) (first : Instant) (length : Duration) : Stage → Instant → Prop
  | .received, _ => False
  | .leased _ _, wake => wake ≤ first
  | .found _ _ _, wake => wake ≤ first
  | .verifying _ _ _ s, wake => v.Within first s wake
  | .confirmed _ _ _, wake => wake ≤ first + length.nanos
  | .credited _ _ _, wake => wake ≤ first + length.nanos
  | .mailing _ _ _ _, wake => wake ≤ first + length.nanos
  | .mailed _ _, wake => wake ≤ first + length.nanos
  | .released _, wake => wake ≤ first + length.nanos

/-- The one thing that was asked of the locks is the lease, which was granted. -/
def Leased (lease : Lease) (asked : List Contact) : Prop :=
  ∃ key ttl, asked.filter (·.call.isLock) = [.acquire key ttl (.ok (some lease))]

section

variable {v : Verifier} {body : ByteArray} {request : Request} {lease : Lease}
  {payment : Payment} {outcome : Outcome} {asked : List Contact} {stage next : Stage}
  {now : Instant}

theorem custody_ask {call : Call} {resume : call.Reply → Stage}
    (h : (Turn.ask call none resume : Step Stage Outcome).Leads asked next)
    (unlocking : call.isLock = false) (same : ∀ r, (resume r).lease? = stage.lease?)
    (begun : ∀ r, resume r ≠ .received) : Custody v body stage asked next := by
  obtain ⟨r, rfl, rfl⟩ := Turn.leads_ask.1 h
  refine .keeps ?_ (same r) (begun r)
  intro a ha
  rw [List.mem_singleton.1 ha]
  exact unlocking

theorem custody_finish (held : stage.lease? = some lease)
    (h : (finish lease outcome).Leads asked next) : Custody v body stage asked next := by
  obtain ⟨r, rfl, rfl⟩ := Turn.leads_ask.1 h
  exact .gives r held

theorem custody_inform {notice : Notice} (held : stage.lease? = some lease)
    (h : (inform lease payment outcome notice).Leads asked next) :
    Custody v body stage asked next :=
  custody_ask h rfl (fun _ => held.symm) (fun _ => nofun)

theorem custody_verdict {verdict : Verdict} (held : stage.lease? = some lease)
    (h : (afterVerdict lease payment verdict).Leads asked next) :
    Custody v body stage asked next := by
  unfold afterVerdict at h
  split at h
  next => exact custody_ask h rfl (fun _ => held.symm) (fun _ => nofun)
  next => exact custody_finish held h
  next => exact custody_inform held h
  next => exact custody_finish held h

/-- Checks are no matter of the locks. -/
theorem unlocking_of_checks {checks : List Contact} (h : ∀ a ∈ checks, a.call.isCheck) :
    ∀ a ∈ checks, a.call.isLock = false := by
  intro a ha
  have hcheck := h a ha
  cases hcall : a.call <;> simp_all [Call.isCheck, Call.isLock]

/-- Whatever a turn leads to, it is known what it does with the lease. -/
theorem custody_of_leads (h : (turn v body now stage).Leads asked next) :
    Custody v body stage asked next := by
  cases stage with
  | received =>
      simp only [turn, receive] at h
      split at h
      next => exact h.elim
      next request read =>
        split at h
        next => exact h.elim
        next =>
          split at h
          next => exact h.elim
          next ttl length =>
            obtain ⟨r, rfl, rfl⟩ := Turn.leads_ask.1 h
            exact .takes r rfl read length
  | leased request r =>
      rcases r with e | _ | lease
      · exact h.elim
      · exact h.elim
      · exact custody_ask h rfl (fun _ => rfl) (fun _ => by simp)
  | found request lease r =>
      rcases r with e | _ | payment
      · exact custody_finish rfl h
      · exact custody_finish rfl h
      · simp only [turn] at h
        split at h
        next => exact custody_finish rfl h
        next =>
          rcases Turn.leads_andThen h with ⟨verdict, -, h⟩ | ⟨s, step, rfl⟩
          · exact custody_verdict rfl h
          · refine .keeps (unlocking_of_checks ?_) rfl (by simp)
            exact Turn.asked_of_leads step (v.begin_asks _ _ now)
  | verifying request lease payment s =>
      rcases Turn.leads_andThen h with ⟨verdict, -, h⟩ | ⟨s', step, rfl⟩
      · exact custody_verdict rfl h
      · refine .keeps (unlocking_of_checks ?_) rfl (by simp)
        exact Turn.asked_of_leads step (v.turn_asks _ now _)
  | confirmed lease payment r =>
      rcases r with e | _ | _
      · exact custody_finish rfl h
      · exact custody_finish rfl h
      · exact custody_ask h rfl (fun _ => rfl) (fun _ => by simp)
  | credited lease payment r =>
      rcases r with e | _ | balance
      · exact custody_finish rfl h
      · exact h.elim
      · exact custody_inform rfl h
  | mailing lease outcome notice r =>
      rcases r with e | _ | user
      · exact custody_finish rfl h
      · exact custody_finish rfl h
      · simp only [turn] at h
        split at h
        next => exact custody_ask h rfl (fun _ => rfl) (fun _ => by simp)
        next => exact custody_finish rfl h
  | mailed lease outcome => exact custody_finish rfl h
  | released outcome => exact h.elim

variable {first wake : Instant} {length : Duration}

theorem Lasts.le (lasts : Lasts v first length stage wake)
    (longest : v.maxDuration? = some length) : wake ≤ first + length.nanos := by
  have hfirst : first ≤ first + length.nanos := Nat.le_add_right _ _
  cases stage with
  | received => exact lasts.elim
  | leased request r => exact Nat.le_trans lasts hfirst
  | found request lease r => exact Nat.le_trans lasts hfirst
  | verifying request lease payment s => exact Verifier.Within.le lasts longest
  | confirmed lease payment r => exact lasts
  | credited lease payment r => exact lasts
  | mailing lease outcome notice r => exact lasts
  | mailed lease outcome => exact lasts
  | released outcome => exact lasts

/-- What takes no time is in time. -/
theorem lasts_ask {call : Call} {resume : call.Reply → Stage} {limit : Instant}
    (goes : (Turn.ask call none resume : Step Stage Outcome).Goes Call.Prompt now asked next wake)
    (inTime : now ≤ limit) (prompt : call.Prompt)
    (lasts : ∀ r, wake ≤ limit → Lasts v first length (resume r) wake) :
    Lasts v first length next wake := by
  obtain ⟨r, -, rfl⟩ := Turn.leads_ask.1 goes.leads
  exact lasts r (Turn.goes_prompt prompt goes ▸ inTime)

theorem lasts_finish (inTime : now ≤ first + length.nanos)
    (goes : (finish lease outcome).Goes Call.Prompt now asked next wake) :
    Lasts v first length next wake :=
  lasts_ask goes inTime rfl fun _ hwake => hwake

theorem lasts_inform {notice : Notice} (inTime : now ≤ first + length.nanos)
    (goes : (inform lease payment outcome notice).Goes Call.Prompt now asked next wake) :
    Lasts v first length next wake :=
  lasts_ask goes inTime rfl fun _ hwake => hwake

theorem lasts_verdict {verdict : Verdict} (inTime : now ≤ first + length.nanos)
    (goes : (afterVerdict lease payment verdict).Goes Call.Prompt now asked next wake) :
    Lasts v first length next wake := by
  unfold afterVerdict at goes
  split at goes
  next => exact lasts_ask goes inTime rfl fun _ hwake => hwake
  next => exact lasts_finish inTime goes
  next => exact lasts_inform inTime goes
  next => exact lasts_finish inTime goes

/-- Each turn keeps the work in time. -/
theorem lasts_of_goes (lasts : Lasts v first length stage now)
    (longest : v.maxDuration? = some length)
    (goes : (turn v body now stage).Goes Call.Prompt now asked next wake) :
    Lasts v first length next wake := by
  have inTime := lasts.le longest
  cases stage with
  | received => exact lasts.elim
  | leased request r =>
      rcases r with e | _ | lease
      · exact goes.elim
      · exact goes.elim
      · exact lasts_ask goes lasts rfl fun _ hwake => hwake
  | found request lease r =>
      rcases r with e | _ | payment
      · exact lasts_finish inTime goes
      · exact lasts_finish inTime goes
      · simp only [turn] at goes
        split at goes
        next => exact lasts_finish inTime goes
        next =>
          rcases Turn.goes_andThen goes with ⟨verdict, -, goes⟩ | ⟨inner, s, inside, rfl⟩
          · exact lasts_verdict inTime goes
          · exact Verifier.within_begin lasts inside
  | verifying request lease payment s =>
      rcases Turn.goes_andThen goes with ⟨verdict, -, goes⟩ | ⟨inner, s', inside, rfl⟩
      · exact lasts_verdict inTime goes
      · exact Verifier.Within.next lasts inside
  | confirmed lease payment r =>
      rcases r with e | _ | _
      · exact lasts_finish inTime goes
      · exact lasts_finish inTime goes
      · exact lasts_ask goes inTime rfl fun _ hwake => hwake
  | credited lease payment r =>
      rcases r with e | _ | balance
      · exact lasts_finish inTime goes
      · exact goes.elim
      · exact lasts_inform inTime goes
  | mailing lease outcome notice r =>
      rcases r with e | _ | user
      · exact lasts_finish inTime goes
      · exact lasts_finish inTime goes
      · simp only [turn] at goes
        split at goes
        next => exact lasts_ask goes inTime rfl fun _ hwake => hwake
        next => exact lasts_finish inTime goes
  | mailed lease outcome => exact lasts_finish inTime goes
  | released outcome => exact goes.elim

/-- A lock is held strictly longer than a verification takes. -/
theorem nanos_lockTtl? {ttl : Duration} (h : lockTtl? v = some ttl) :
    ∃ length, v.maxDuration? = some length ∧
      ttl.nanos = length.nanos + lockSlack.nanos := by
  simp only [lockTtl?, Option.bind_eq_bind, Option.bind_eq_some_iff] at h
  obtain ⟨length, longest, hadd⟩ := h
  exact ⟨length, longest, Verifier.nanos_add? hadd⟩

theorem Leased.cons (leased : Leased lease asked) {a : Contact}
    (unlocking : a.call.isLock = false) : Leased lease (a :: asked) := by
  obtain ⟨key, ttl, h⟩ := leased
  exact ⟨key, ttl, by rw [List.filter_cons_of_neg (by simp [unlocking]), h]⟩

theorem Leased.checks (leased : Leased lease asked) {checks : List Contact}
    (h : ∀ a ∈ checks, a.call.isCheck) : Leased lease (checks ++ asked) := by
  obtain ⟨key, ttl, hfilter⟩ := leased
  refine ⟨key, ttl, ?_⟩
  rw [List.filter_append, hfilter, List.filter_eq_nil_iff.2, List.nil_append]
  intro a ha
  simp [unlocking_of_checks h a ha]

theorem leased_of_trail (trail : Trail v body stage asked) (held : stage.lease? = some lease) :
    Leased lease asked := by
  induction trail with
  | received => cases held
  | leased r read version length =>
      match r, held with
      | .ok (some lease), rfl => exact ⟨_, _, rfl⟩
  | found r trail ih => exact (ih held).cons rfl
  | verifying trail fits passes ih => exact (ih held).checks (Verifier.checks_of_passes passes)
  | confirmed r trail fits gives ih =>
      exact ((ih held).checks (Verifier.checks_of_gives gives)).cons rfl
  | credited r trail ih => exact (ih held).cons rfl

theorem leased_of_decided {due : Option (Payment × Notice)}
    (decided : Decided v body lease outcome due asked) : Leased lease asked := by
  cases decided with
  | unread trail => exact leased_of_trail trail rfl
  | missing trail => exact leased_of_trail trail rfl
  | refused trail refusal => exact leased_of_trail trail rfl
  | cancelled trail fits gives =>
      exact (leased_of_trail trail rfl).checks (Verifier.checks_of_gives gives)
  | failed trail fits other gives =>
      exact (leased_of_trail trail rfl).checks (Verifier.checks_of_gives gives)
  | objected trail fits other gives =>
      exact (leased_of_trail trail rfl).checks (Verifier.checks_of_gives gives)
  | unconfirmed trail => exact leased_of_trail trail rfl
  | overtaken trail => exact leased_of_trail trail rfl
  | ungranted trail => exact leased_of_trail trail rfl
  | granted trail => exact leased_of_trail trail rfl

theorem leased_of_informed (informed : Informed v body lease outcome asked) :
    Leased lease asked := by
  cases informed with
  | silent decided => exact leased_of_decided decided
  | unwanted r decided unwanted => exact (leased_of_decided decided).cons rfl
  | mailed r decided wanted => exact ((leased_of_decided decided).cons rfl).cons rfl

/-- A lease that the work has at a stage is the one that it was granted. -/
theorem leased_of_track (track : Track v body asked stage) (held : stage.lease? = some lease) :
    Leased lease asked := by
  cases stage with
  | mailing holder outcome notice r =>
      obtain rfl := Option.some.inj held
      obtain ⟨payment, before, decided, rfl⟩ := track
      exact (leased_of_decided decided).cons rfl
  | mailed holder outcome =>
      obtain rfl := Option.some.inj held
      exact leased_of_informed track
  | released outcome => cases held
  | _ => exact leased_of_trail track held

/-- Whoever was granted a lease gives it back as the last thing, and only then. -/
theorem released_of_done (done : Done v body outcome asked) {key : String} {ttl : Duration}
    (granted : Contact.acquire key ttl (.ok (some lease)) ∈ asked) :
    ∃ r before, asked = .release lease r :: before ∧
      ∀ a ∈ before, ∀ other, a.call ≠ .release other := by
  cases done with
  | malformed read => cases granted
  | unsupported read version => cases granted
  | unlocked trail none =>
      cases trail with
      | leased r read version length =>
          obtain ⟨-, -, hr⟩ := Contact.acquire_inj (List.mem_singleton.1 granted)
          exact absurd hr.symm (none lease)
  | @released holder _ before r informed =>
      obtain ⟨key', ttl', hfilter⟩ := leased_of_informed informed
      have hbefore : Contact.acquire key ttl (.ok (some lease)) ∈ before := by
        rcases List.mem_cons.1 granted with heq | hbefore
        · cases heq
        · exact hbefore
      have honly : ∀ a ∈ before, a.call.isLock →
          a = Contact.acquire key' ttl' (.ok (some holder)) := by
        intro a ha hlock
        have hmem : a ∈ before.filter (·.call.isLock) := List.mem_filter.2 ⟨ha, hlock⟩
        rw [hfilter] at hmem
        exact List.mem_singleton.1 hmem
      obtain ⟨-, -, hr⟩ := Contact.acquire_inj (honly _ hbefore rfl)
      obtain rfl := Option.some.inj (Except.ok.inj hr)
      refine ⟨r, before, rfl, ?_⟩
      intro a ha other hcall
      rw [honly a ha (by rw [hcall]; rfl)] at hcall
      cases hcall

end

end Workflow

end Settlement
