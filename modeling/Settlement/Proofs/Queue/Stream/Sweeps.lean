import Mathlib.Data.List.Basic
import Mathlib.Data.List.Chain
import Settlement.Proofs.Queue.Stream.Pages
import Settlement.Proofs.Queue.Stream.Visits

/-!
# When a stream is swept

A consumer that has replayed its backlog takes over idle entries part by part. `Course` is what its
position comes to mean, whatever the server answers: it is replaying, or in the middle of a sweep,
or at rest until the next one. From each of these a fetch that ends without a failure does one of
four things (`Turnout`), and comes to such a position again (`Turnout.course`).

`sweeping_of_visits` puts the fetches together: the replay is over once and for all, each part of a
sweep starts where the part before stopped, and between two sweeps lies at least the idle time.
-/

namespace Settlement.Queue.Stream

open Redis (Command)
open Replay (entries taken)

namespace Sent

/-- A page of the replay. -/
def isReplay (x : Sent) : Bool :=
  match x.command with
  | .readPending _ _ _ _ _ => true
  | _ => false

/-- A read of new entries. -/
def isNew (x : Sent) : Bool :=
  match x.command with
  | .readNew _ _ _ _ _ => true
  | _ => false

/-- Where a part of a sweep starts. -/
def start? (x : Sent) : Option String :=
  match x.command with
  | .takeOver _ _ _ _ start _ => some start
  | _ => none

end Sent

/-- A part of a sweep: when it was asked for, where it starts, where the server says that the next
one starts, the messages that were taken over, and when that was noted. -/
structure Claim where
  sent : Instant
  start : String
  next : String
  batch : List Delivery
  done : Instant

/-- Where the server says that a sweep goes on. -/
def cursor (r : Redis.Result) : String := ((r.bind readTakeOver).toOption.map Prod.fst).getD ""

/-- The parts of sweeps among the reads of a fetch. -/
def claimsIn (queue : String) (ended : Instant) : List Sent → List Claim
  | [] => []
  | x :: later =>
    (x.start?.map fun start => ⟨x.instant, start, cursor x.reply, messages queue (taken x.reply),
      resumed ended later⟩).toList ++ claimsIn queue ended later

/-- The parts of sweeps that a fetch asks for. -/
def Visit.claims (queue : String) (v : Visit) : List Claim := claimsIn queue v.ended (reads v.sent)

/-- The parts of sweeps that fetches ask for. -/
def claims (queue : String) (visits : List Visit) : List Claim := visits.flatMap (·.claims queue)

/-- What fetches read, in its order. -/
def readBy (visits : List Visit) : List Sent := reads (visits.flatMap (·.sent))

/-- Pages of the replay, none of them empty. -/
def Paging (read : List Sent) : Prop := ∀ x ∈ read, x.isReplay = true ∧ entries x.reply ≠ []

/-- The replay came to an empty page. Behind it a sweep starts from the beginning, and no page is
read any more. -/
def Replayed (read : List Sent) : Prop :=
  ∃ pages last claim later, read = pages ++ last :: claim :: later ∧ Paging pages ∧
    last.isReplay = true ∧ entries last.reply = [] ∧ claim.start? = some sweepStart ∧
    ∀ x ∈ claim :: later, x.isReplay = false

/-- What a fetch does about sweeps, after those in `past`. -/
structure Takes (s : StreamReader) (past : List Visit) (v : Visit) : Prop where
  /-- While a sweep is open, it asks for one part, from where the last one stopped. -/
  goes_on : ∀ c, (claims s.queue past).getLast? = some c → c.next ≠ sweepStart →
    ∃ c', v.claims s.queue = [c'] ∧ c'.start = c.next
  /-- Before the next sweep is due, it asks for none and reads new entries. -/
  rests : ∀ c, (claims s.queue past).getLast? = some c → c.next = sweepStart →
    v.began < c.done + s.claimIdle.nanos → v.claims s.queue = [] ∧ ∃ x ∈ v.sent, x.isNew = true
  /-- When the next sweep is due, it starts it. -/
  resumes : ∀ c, (claims s.queue past).getLast? = some c → c.next = sweepStart →
    c.done + s.claimIdle.nanos ≤ v.began → ∃ c', v.claims s.queue = [c'] ∧ c'.start = sweepStart
  /-- It reads new entries besides a part of a sweep exactly if no message came of that. -/
  frugal : ∀ c ∈ v.claims s.queue, (∃ x ∈ v.sent, x.isNew = true) ↔ c.batch = []

/-- A part of a sweep follows another one: it starts where the one before stopped, and if a sweep
was over with that, not before the idle time has passed. -/
def Follows (s : StreamReader) (c c' : Claim) : Prop :=
  c'.start = c.next ∧ (c.next = sweepStart → c.done + s.claimIdle.nanos ≤ c'.sent)

/-- What fetches do about the replay and about sweeps. -/
structure Sweeping (s : StreamReader) (visits : List Visit) : Prop where
  /-- They read pages of the replay only, or the replay is over and stays so. -/
  replay_once : Paging (readBy visits) ∧ claims s.queue visits = [] ∨ Replayed (readBy visits)
  /-- What each of them does follows from the last part of a sweep before it. -/
  takes : ∀ past v, past ++ [v] <+: visits → Takes s past v
  /-- The first sweep starts at the beginning. -/
  first : ∀ c ∈ (claims s.queue visits).head?, c.start = sweepStart
  /-- No part is left out, and no sweep follows another one too early. -/
  chained : (claims s.queue visits).IsChain (Follows s)

/-- What a position means after some fetches: the consumer is replaying; or its last part of a sweep
was not the end of it, and no time is waited for; or it was, and the next sweep is due one idle time
after it. -/
inductive Course (s : StreamReader) (visits : List Visit) (now : Instant) : Position → Prop
  | replaying (after : String) (paging : Paging (readBy visits))
      (unswept : claims s.queue visits = []) : Course s visits now ⟨some after, sweepStart, none⟩
  | sweeping {c : Claim} {due? : Option Instant} (replayed : Replayed (readBy visits))
      (last : (claims s.queue visits).getLast? = some c) (unfinished : c.next ≠ sweepStart)
      (past : ∀ due, due? = some due → due ≤ now) : Course s visits now ⟨none, c.next, due?⟩
  | resting {c : Claim} (replayed : Replayed (readBy visits))
      (last : (claims s.queue visits).getLast? = some c) (finished : c.next = sweepStart) :
      Course s visits now ⟨none, sweepStart, some (c.done + s.claimIdle.nanos)⟩

/-- What one part of a sweep comes to: it is the only one of its fetch, new entries are read exactly
if it brought no message, and the next sweep is due one idle time later if it was the last part. -/
structure Claimed (s : StreamReader) (ended : Instant) (read : List Sent) (c : Claim)
    (due? : Option Instant) (p : Position) : Prop where
  only : claimsIn s.queue ended read = [c]
  frugal : (∃ x ∈ read, x.isNew = true) ↔ c.batch = []
  done : p.replay = none
  cursor : p.cursor = c.next
  finished : c.next = sweepStart → p.nextSweep = some (c.done + s.claimIdle.nanos)
  unfinished : c.next ≠ sweepStart → p.nextSweep = due?

section

variable {s : StreamReader} {max : Nat} {block : Duration} {p p' : Position}
  {now ended : Instant} {read : List Sent} {visits : List Visit} {v : Visit}

theorem cursor_eq {r : Redis.Result} {next : String} {page : List Entry}
    (h : r.bind readTakeOver = .ok (next, page)) : cursor r = next ∧ taken r = page := by
  rw [cursor, taken, h]
  exact ⟨rfl, rfl⟩

theorem swept?_eq_some {next : String} {idle : Duration} (h : p.swept? next now idle = some p') :
    p'.replay = p.replay ∧ p'.cursor = next ∧
      (next = sweepStart → p'.nextSweep = some (now + idle.nanos)) ∧
      (next ≠ sweepStart → p'.nextSweep = p.nextSweep) := by
  unfold Position.swept? at h
  split at h
  next hnext =>
    obtain ⟨due, hdue, rfl⟩ := Option.map_eq_some_iff.1 h
    unfold Instant.after? at hdue
    split at hdue
    · obtain rfl := Option.some.inj hdue
      exact ⟨rfl, rfl, fun _ => rfl, fun hne => absurd hnext hne⟩
    · cases hdue
  next hnext =>
    obtain rfl := Option.some.inj h
    exact ⟨rfl, rfl, fun heq => absurd heq hnext, fun _ => rfl⟩

/-- Behind a part of a sweep there is a read of new entries or nothing. -/
theorem behind_part (ended : Instant) {page : List Entry} {later : List Sent}
    (fruitless : messages s.queue page = [] →
      ∃ instant r, later = [⟨instant, newEntries s max block, r⟩])
    (fruitful : messages s.queue page ≠ [] → later = []) :
    claimsIn s.queue ended later = [] ∧
      ((∃ x ∈ later, x.isNew = true) ↔ messages s.queue page = []) ∧
      ∀ x ∈ later, x.isReplay = false := by
  by_cases empty : messages s.queue page = []
  · obtain ⟨instant, r, rfl⟩ := fruitless empty
    simp [claimsIn, Sent.start?, Sent.isNew, Sent.isReplay, newEntries, empty]
  · obtain rfl := fruitful empty
    simp [claimsIn, empty]

/-- What is read when the replay is over is new entries, before the next sweep is due, or a part of
a sweep. -/
theorem claims_of_onward (done : p.replay = none)
    (onward : Onward s max block p now ended read p') :
    (∃ due, p.nextSweep = some due ∧ now < due ∧ p' = p ∧ claimsIn s.queue ended read = [] ∧
      (∃ x ∈ read, x.isNew = true) ∧ ∀ x ∈ read, x.isReplay = false) ∨
    (∀ due, p.nextSweep = some due → due ≤ now) ∧ ∃ c, Claimed s ended read c p.nextSweep p' ∧
      c.start = p.cursor ∧ c.sent = now ∧
      ∃ x later, read = x :: later ∧ x.start? = some p.cursor ∧ ∀ y ∈ read, y.isReplay = false := by
  cases onward with
  | polls known early =>
      exact Or.inl ⟨_, known, early, rfl, rfl, ⟨_, List.mem_singleton_self _, rfl⟩,
        List.forall_mem_singleton.2 rfl⟩
  | @sweeps r next page later p' due took swept fruitless fruitful =>
      obtain ⟨hcursor, htaken⟩ := cursor_eq took
      obtain ⟨hreplay, hnext, hfinished, hunfinished⟩ := swept?_eq_some swept
      obtain ⟨unclaimed, polled, unread⟩ := behind_part ended fruitless fruitful
      refine Or.inr ⟨due, ⟨now, p.cursor, next, messages s.queue page, resumed ended later⟩,
        ⟨?_, ?_, hreplay.trans done, hnext, hfinished, hunfinished⟩, rfl, rfl, _, later, rfl, rfl,
        List.forall_mem_cons.2 ⟨rfl, unread⟩⟩
      · rw [claimsIn, unclaimed, hcursor, htaken]
        rfl
      · rw [← polled]
        simp [Sent.isNew, partFrom]

theorem Replayed.append {more : List Sent} (h : Replayed read)
    (unread : ∀ x ∈ more, x.isReplay = false) : Replayed (read ++ more) := by
  obtain ⟨pages, last, claim, later, rfl, paging, hlast, empty, hclaim, hlater⟩ := h
  refine ⟨pages, last, claim, later ++ more, by simp, paging, hlast, empty, hclaim, ?_⟩
  rw [← List.cons_append]
  exact List.forall_mem_append.2 ⟨hlater, unread⟩

theorem Replayed.behind {before : List Sent} (paging : Paging before) (h : Replayed read) :
    Replayed (before ++ read) := by
  obtain ⟨pages, last, claim, later, rfl, paging', rest⟩ := h
  exact ⟨before ++ pages, last, claim, later, by simp,
    List.forall_mem_append.2 ⟨paging, paging'⟩, rest⟩

/-- A page of the replay is no part of a sweep. -/
theorem Claimed.behind_page {c : Claim} {due? : Option Instant} (after : String) (r : Redis.Result)
    (h : Claimed s ended read c due? p) :
    Claimed s ended (⟨now, pageBehind s max after, r⟩ :: read) c due? p where
  only := h.only
  frugal := by
    rw [← h.frugal]
    simp [Sent.isNew, pageBehind]
  done := h.done
  cursor := h.cursor
  finished := h.finished
  unfinished := h.unfinished

theorem Does.onward (does : Does s max block p now ended read p') (done : p.replay = none) :
    Onward s max block p now ended read p' := by
  cases does with
  | goesOn done' onward => exact onward
  | hands replaying full => cases done.symm.trans replaying
  | turns replaying free later rest => cases done.symm.trans replaying

/-- What is read while a backlog is replayed: pages only, or all that is left of it and then the
first part of a sweep. -/
theorem claims_of_does (does : Does s max block p now ended read p') {start : String}
    (replaying : p = ⟨some start, sweepStart, none⟩) :
    ((∃ after, p' = ⟨some after, sweepStart, none⟩) ∧ Paging read ∧
      claimsIn s.queue ended read = []) ∨
    ∃ c, Claimed s ended read c none p' ∧ c.start = sweepStart ∧ Replayed read := by
  induction does generalizing start with
  | goesOn done' onward =>
      subst replaying
      cases done'
  | @hands p now ended after r replaying' full =>
      have filled : entries r ≠ [] := fun empty => full (by rw [empty]; rfl)
      subst replaying
      refine Or.inl ⟨⟨((entries r).getLast filled).id, ?_⟩, ?_, rfl⟩
      · rw [lastId, List.getLast?_eq_some_getLast filled]
        rfl
      · simpa [Paging, Sent.isReplay, pageBehind] using filled
  | @turns p p' now next ended after r read replaying' free later rest ih =>
      subst replaying
      by_cases empty : entries r = []
      · -- The replay is over, and no sweep is known of yet.
        rw [empty] at rest
        obtain ⟨due, known, -⟩ | ⟨-, c, claimed, hstart, -, x, more, rfl, hx, unread⟩ :=
          claims_of_onward rfl (rest.onward rfl)
        · cases known
        · exact Or.inr ⟨c, claimed.behind_page after r, hstart, [], _, x, more, rfl,
            List.forall_mem_nil _, rfl, empty, hx, unread⟩
      · have page : Paging [⟨now, pageBehind s max after, r⟩] := by
          simpa [Paging, Sent.isReplay, pageBehind] using empty
        have goesOn : Position.replayed ⟨some start, sweepStart, none⟩ (lastId (entries r)) =
            ⟨some ((entries r).getLast empty).id, sweepStart, none⟩ := by
          rw [lastId, List.getLast?_eq_some_getLast empty]
          rfl
        obtain ⟨replaying, paging, unswept⟩ | ⟨c, claimed, hstart, replayed⟩ := ih goesOn
        · exact Or.inl ⟨replaying, List.forall_mem_append.2 ⟨page, paging⟩, unswept⟩
        · exact Or.inr ⟨c, claimed.behind_page after r, hstart, replayed.behind page⟩

/-! ## One fetch after the other -/

/-- What a fetch comes to after others: it replays; it opens the first sweep; it waits for the next
one; or it goes on with one, or starts the next. -/
inductive Turnout (s : StreamReader) (visits : List Visit) (v : Visit) : Position → Prop
  | replays {after : String} (paging : Paging (readBy visits ++ reads v.sent))
      (unswept : claims s.queue visits = []) (unclaimed : v.claims s.queue = []) :
      Turnout s visits v ⟨some after, sweepStart, none⟩
  | opens {c : Claim} {p : Position} (replayed : Replayed (readBy visits ++ reads v.sent))
      (unswept : claims s.queue visits = []) (start : c.start = sweepStart)
      (claimed : Claimed s v.ended (reads v.sent) c none p) : Turnout s visits v p
  | waits {c : Claim} (replayed : Replayed (readBy visits ++ reads v.sent))
      (last : (claims s.queue visits).getLast? = some c) (finished : c.next = sweepStart)
      (early : v.began < c.done + s.claimIdle.nanos) (unclaimed : v.claims s.queue = [])
      (polled : ∃ x ∈ reads v.sent, x.isNew = true) :
      Turnout s visits v ⟨none, sweepStart, some (c.done + s.claimIdle.nanos)⟩
  | claims {c c' : Claim} {due? : Option Instant} {p : Position}
      (replayed : Replayed (readBy visits ++ reads v.sent))
      (last : (claims s.queue visits).getLast? = some c) (start : c'.start = c.next)
      (due : c.next = sweepStart → c.done + s.claimIdle.nanos ≤ v.began) (sent : c'.sent = v.began)
      (claimed : Claimed s v.ended (reads v.sent) c' due? p)
      (past : ∀ due, due? = some due → due ≤ v.began) : Turnout s visits v p

theorem readBy_snoc : readBy (visits ++ [v]) = readBy visits ++ reads v.sent := by
  simp [readBy, reads]

theorem claims_snoc (queue : String) :
    claims queue (visits ++ [v]) = claims queue visits ++ v.claims queue := by
  simp [claims]

/-- Of new entries it does not matter whether acknowledgements are counted. -/
theorem exists_isNew_reads {sent : List Sent} :
    (∃ x ∈ reads sent, x.isNew = true) ↔ ∃ x ∈ sent, x.isNew = true := by
  constructor
  · rintro ⟨x, hx, new⟩
    exact ⟨x, List.mem_of_mem_filter hx, new⟩
  · rintro ⟨x, hx, new⟩
    refine ⟨x, List.mem_filter.2 ⟨hx, ?_⟩, new⟩
    unfold Sent.isNew at new
    unfold Sent.isRead
    split at new
    next h => rw [h]
    next => cases new

theorem Course.turnout (h : Course s visits now p) (later : now ≤ v.began)
    (does : Does s v.max v.block p v.began v.ended (reads v.sent) p') :
    Turnout s visits v p' := by
  cases h with
  | replaying after paging unswept =>
      obtain ⟨⟨after', rfl⟩, paging', unclaimed⟩ | ⟨c, claimed, hstart, replayed⟩ :=
        claims_of_does does rfl
      · exact .replays (List.forall_mem_append.2 ⟨paging, paging'⟩) unswept unclaimed
      · exact .opens (replayed.behind paging) unswept hstart claimed
  | @sweeping c due? replayed last unfinished past =>
      obtain ⟨due, known, early, -⟩ | ⟨due, c', claimed, hstart, sent, -, -, -, -, unread⟩ :=
        claims_of_onward rfl (does.onward rfl)
      · exact absurd early (Nat.not_lt_of_le (Nat.le_trans (past due known) later))
      · exact .claims (replayed.append unread) last hstart (fun h => absurd h unfinished) sent
          claimed due
  | @resting c replayed last finished =>
      obtain ⟨due, known, early, rfl, unclaimed, polled, unread⟩ |
        ⟨due, c', claimed, hstart, sent, -, -, -, -, unread⟩ :=
        claims_of_onward rfl (does.onward rfl)
      · obtain rfl := Option.some.inj known
        exact .waits (replayed.append unread) last finished early unclaimed polled
      · exact .claims (replayed.append unread) last (hstart.trans finished.symm)
          (fun _ => due _ rfl) sent claimed due

theorem Claimed.course {c : Claim} {due? : Option Instant} (h : Claimed s ended read c due? p)
    (replayed : Replayed (readBy visits)) (last : (claims s.queue visits).getLast? = some c)
    (past : ∀ due, due? = some due → due ≤ now) : Course s visits now p := by
  obtain ⟨replay, next, due⟩ := p
  obtain ⟨-, -, rfl, rfl, finished, unfinished⟩ := h
  by_cases around : c.next = sweepStart
  · obtain rfl : due = _ := finished around
    rw [around]
    exact .resting replayed last around
  · obtain rfl : due = _ := unfinished around
    exact .sweeping replayed last around past

namespace Turnout

variable (h : Turnout s visits v p)

include h

theorem course (ended : v.began ≤ v.ended) : Course s (visits ++ [v]) v.ended p := by
  cases h with
  | replays paging unswept unclaimed =>
      refine .replaying _ (readBy_snoc ▸ paging) ?_
      rw [claims_snoc, unswept, unclaimed]
      rfl
  | opens replayed unswept start claimed =>
      refine claimed.course (readBy_snoc ▸ replayed) ?_ (fun due hdue => nomatch hdue)
      rw [claims_snoc, Visit.claims, claimed.only, List.getLast?_concat]
  | waits replayed last finished early unclaimed polled =>
      refine .resting (readBy_snoc ▸ replayed) ?_ finished
      rw [claims_snoc, unclaimed, List.append_nil, last]
  | claims replayed last start due sent claimed past =>
      refine claimed.course (readBy_snoc ▸ replayed) ?_
        (fun due hdue => Nat.le_trans (past due hdue) ended)
      rw [claims_snoc, Visit.claims, claimed.only, List.getLast?_concat]

theorem takes : Takes s visits v := by
  cases h with
  | replays paging unswept unclaimed =>
      constructor <;> simp [unswept, unclaimed]
  | @opens c p replayed unswept start claimed =>
      have only : v.claims s.queue = [c] := claimed.only
      refine ⟨by simp [unswept], by simp [unswept], by simp [unswept], ?_⟩
      rw [only, List.forall_mem_singleton, ← exists_isNew_reads]
      exact claimed.frugal
  | @waits c replayed last finished early unclaimed polled =>
      refine ⟨fun c₁ h₁ unfinished => ?_, fun _ _ _ _ => ⟨unclaimed, exists_isNew_reads.1 polled⟩,
        fun c₁ h₁ _ due => ?_, by simp [unclaimed]⟩
      · obtain rfl := Option.some.inj (last.symm.trans h₁)
        exact absurd finished unfinished
      · obtain rfl := Option.some.inj (last.symm.trans h₁)
        exact absurd early (Nat.not_lt_of_le due)
  | @claims c c' due? p replayed last start due sent claimed past =>
      have only : v.claims s.queue = [c'] := claimed.only
      refine ⟨fun c₁ h₁ _ => ?_, fun c₁ h₁ finished early => ?_, fun c₁ h₁ finished _ => ?_, ?_⟩
      · obtain rfl := Option.some.inj (last.symm.trans h₁)
        exact ⟨c', only, start⟩
      · obtain rfl := Option.some.inj (last.symm.trans h₁)
        exact absurd early (Nat.not_lt_of_le (due finished))
      · obtain rfl := Option.some.inj (last.symm.trans h₁)
        exact ⟨c', only, start.trans finished⟩
      · rw [only, List.forall_mem_singleton, ← exists_isNew_reads]
        exact claimed.frugal

theorem first (before : ∀ c ∈ (Stream.claims s.queue visits).head?, c.start = sweepStart) :
    ∀ c ∈ (Stream.claims s.queue (visits ++ [v])).head?, c.start = sweepStart := by
  rw [claims_snoc]
  cases h with
  | replays paging unswept unclaimed => simp [unswept, unclaimed]
  | @opens c p replayed unswept start claimed =>
      have only : v.claims s.queue = [c] := claimed.only
      simp [unswept, only, start]
  | waits replayed last finished early unclaimed polled =>
      rwa [unclaimed, List.append_nil]
  | claims replayed last start due sent claimed past =>
      have some := List.ne_nil_of_mem (List.mem_of_getLast? last)
      rwa [List.head?_append_of_ne_nil _ some]

theorem chained (before : (Stream.claims s.queue visits).IsChain (Follows s)) :
    (Stream.claims s.queue (visits ++ [v])).IsChain (Follows s) := by
  rw [claims_snoc]
  cases h with
  | replays paging unswept unclaimed =>
      rw [unswept, unclaimed]
      exact .nil
  | @opens c p replayed unswept start claimed =>
      have only : v.claims s.queue = [c] := claimed.only
      rw [unswept, only]
      exact .singleton c
  | waits replayed last finished early unclaimed polled =>
      rwa [unclaimed, List.append_nil]
  | @claims c c' due? p replayed last start due sent claimed past =>
      have only : v.claims s.queue = [c'] := claimed.only
      rw [only]
      refine before.append (.singleton c') ?_
      rintro c₁ h₁ c₂ h₂
      obtain rfl := Option.some.inj (last.symm.trans h₁)
      obtain rfl := Option.some.inj h₂
      exact ⟨start, fun finished => sent ▸ due finished⟩

end Turnout

theorem Course.replay_once (h : Course s visits now p) :
    Paging (readBy visits) ∧ claims s.queue visits = [] ∨ Replayed (readBy visits) := by
  cases h with
  | replaying after paging unswept => exact Or.inl ⟨paging, unswept⟩
  | sweeping replayed last unfinished past => exact Or.inr replayed
  | resting replayed last finished => exact Or.inr replayed

theorem Visits.course (h : Visits s visits p now) : Course s visits now p := by
  induction h with
  | start now => exact .replaying _ (List.forall_mem_nil _) rfl
  | next before later proceeds ih =>
      exact (ih.turnout later (proceeds.does rfl)).course proceeds.le_ended

/-- **When sweeps run.** However the server answers, a consumer that has read its backlog to the end
never reads it again, and sweeps from the beginning. While a sweep is open each fetch asks for the
part that follows, and the sweep is over when the server says so. After that there is no other for
one idle time, and the first fetch from then on starts it. -/
theorem sweeping_of_visits (h : Visits s visits p now) : Sweeping s visits := by
  induction h with
  | start now =>
      refine ⟨Or.inl ⟨List.forall_mem_nil _, rfl⟩, ?_, by simp [claims], .nil⟩
      rintro past v ⟨later, heq⟩
      simp at heq
  | next before later proceeds ih =>
      have turnout := before.course.turnout later (proceeds.does rfl)
      refine ⟨(turnout.course proceeds.le_ended).replay_once, ?_, turnout.first ih.first,
        turnout.chained ih.chained⟩
      intro past v hprefix
      obtain heq | earlier := List.prefix_concat_iff.1 hprefix
      · obtain ⟨rfl, last⟩ := List.append_inj' heq rfl
        obtain rfl := List.singleton_inj.1 last
        exact turnout.takes
      · exact ih.takes past v earlier

end

namespace Around

def reader : StreamReader := ⟨"payments", "settlers", "settler-1", .ofSecs 600⟩

def block : Duration := .ofSecs 1

def idle : Entry := ⟨"1-0", [("body", .data "one".toUTF8)]⟩

def message : Delivery := ⟨"1-0", "payments", "one".toUTF8, true⟩

def part (next : String) (page : List Entry) : Redis.Result := .ok (takeOverReply next page)

theorem bind_part (next : String) (page : List Entry) :
    (part next page).bind readTakeOver = .ok (next, page) :=
  readTakeOver_takeOverReply _ _

/-- The backlog is empty, and the first part of a sweep brings a message. -/
def opening : Visit :=
  ⟨2, block, 0, [⟨0, pageBehind reader 2 "0", .ok .nil⟩,
    ⟨1, partFrom reader 2 "0-0", part "5-0" [idle]⟩], 2, [message]⟩

/-- The second part is the last one, and brings none. -/
def closing : Visit :=
  ⟨2, block, 3, [⟨3, partFrom reader 2 "5-0", part "0-0" []⟩,
    ⟨4, newEntries reader 2 block, .ok .nil⟩], 5, []⟩

/-- The next sweep is not due yet. -/
def between : Visit := ⟨2, block, 6, [⟨6, newEntries reader 2 block, .ok .nil⟩], 7, []⟩

/-- The next sweep is due by now. -/
def again : Visit :=
  ⟨2, block, 600000000004, [⟨600000000004, partFrom reader 2 "0-0", part "0-0" []⟩,
    ⟨600000000005, newEntries reader 2 block, .ok .nil⟩], 600000000006, []⟩

def visits : List Visit := [opening, closing, between, again]

/-- A part of a sweep without a message. -/
theorem closes {p : Position} {now : Instant} {start : String}
    (turn : reader.fetchTurn 2 block now ⟨p, .choosing⟩ =
      StreamReader.asking p (partFrom reader 2 start) .swept)
    (swept : p.swept? "0-0" (now + 1) reader.claimIdle =
      some ⟨p.replay, "0-0", some (now + 1 + reader.claimIdle.nanos)⟩) :
    Proceeds reader 2 block now ⟨p, .choosing⟩
      [⟨now, partFrom reader 2 start, part "0-0" []⟩,
        ⟨now + 1, newEntries reader 2 block, .ok .nil⟩] (now + 2)
      ⟨.ok [], ⟨p.replay, "0-0", some (now + 1 + reader.claimIdle.nanos)⟩⟩ := by
  have polls : reader.fetchTurn 2 block (now + 1) ⟨p, .swept (part "0-0" [])⟩ =
      reader.poll 2 block ⟨p.replay, "0-0", some (now + 1 + reader.claimIdle.nanos)⟩ := by
    simp only [StreamReader.fetchTurn, bind_part]
    rw [split_nil, StreamReader.settle, if_pos List.isEmpty_nil, StreamReader.afterSweep, swept]
    rfl
  exact .asks turn (Nat.le_succ _) (.asks polls (Nat.le_succ _) (.ends rfl))

theorem runs : Visits reader visits ⟨none, "0-0", some 1200000000005⟩ 600000000006 := by
  have opens : Proceeds reader 2 block 0 ⟨.start, .choosing⟩ opening.sent 2
      ⟨.ok [message], ⟨none, "5-0", none⟩⟩ := by
    refine .asks rfl (Nat.le_succ _) (.asks rfl (Nat.le_succ _) (.ends ?_))
    simp only [StreamReader.fetchTurn, bind_part]
    rfl
  have first : Visits reader [opening] ⟨none, "5-0", none⟩ 2 :=
    .next (.start 0) (Nat.le_refl _) opens
  have second : Visits reader [opening, closing] ⟨none, "0-0", some 600000000004⟩ 5 :=
    .next first (by decide) (closes rfl rfl)
  have third : Visits reader [opening, closing, between] ⟨none, "0-0", some 600000000004⟩ 7 :=
    .next second (by decide) (.asks rfl (Nat.le_succ _) (.ends rfl))
  exact .next third (by decide) (closes rfl rfl)

end Around

/-- A sweep in two parts, a fetch before the next one is due, and the next one. -/
theorem sweeping_of_visits_around :
    Visits Around.reader Around.visits ⟨none, "0-0", some 1200000000005⟩ 600000000006 ∧
      Sweeping Around.reader Around.visits :=
  ⟨Around.runs, sweeping_of_visits Around.runs⟩

end Settlement.Queue.Stream
