import Settlement.Proofs.Solo
import Settlement.Proofs.Workflow.Crowd
import Settlement.Proofs.Workflow.Screening

/-!
# A message that is worked on alone

Whatever the locks, the store and the chain answer, a message that is worked on alone soon comes to
where it is judged: it has come to its end, or it is cleared and the chain is asked for the first
time (`Judged`). Until then only preliminary calls have been made, so what they leave alone is as it
was, and a store has answered from what it held at the start. `Fares` puts this together.
-/

namespace Settlement.Workflow

open Settlement.System

section

variable {v : Verifier} {body : ByteArray} {W : Type}
  {answer : Instant → (call : Call) → W → Answer W call.Reply}

/-- The work on a message over a world of its own. -/
abbrev work (v : Verifier) (body : ByteArray)
    (answer : Instant → (call : Call) → W → Answer W call.Reply) :
    Machine Call Call.Reply W Stage Outcome :=
  ⟨turn v body, answer⟩

def Preliminary (log : List (Entry Call Call.Reply)) : Prop :=
  ∀ entry ∈ log, entry.call.isPreliminary

/-- The message has come to its end before the chain was asked, or has just asked the chain, or the
worker breaks down over the length of the lock. -/
inductive Judged (v : Verifier) (body : ByteArray) (x : Point Call Call.Reply W Stage) : Prop
  | ended {outcome : Outcome} (stops : (turn v body x.instant x.stage).Stops (some outcome))
      (preliminary : Preliminary x.log)
  | asked {entry : Entry Call Call.Reply} {before : List (Entry Call Call.Reply)}
      (log : x.log = entry :: before) (remote : entry.call.isRemote)
      (preliminary : Preliminary before)
  | broken (endless : Endless v body) (stops : (turn v body x.instant x.stage).Stops none)
      (log : x.log = [])

/-- The work comes to where the message is judged. -/
abbrev ComesToJudgement (v : Verifier) (body : ByteArray)
    (answer : Instant → (call : Call) → W → Answer W call.Reply) (cancelAt : Option Instant)
    (x : Point Call Call.Reply W Stage) : Prop :=
  (work v body answer).Attains cancelAt (Judged v body) x

variable {cancelAt : Option Instant} {x y : Point Call Call.Reply W Stage} {request : Request}
  {lease : Lease} {payment : Payment} {outcome : Outcome}

theorem preliminary_cons {log : List (Entry Call Call.Reply)} {entry : Entry Call Call.Reply}
    (h : entry.call.isPreliminary) (preliminary : Preliminary log) :
    Preliminary (entry :: log) :=
  List.forall_mem_cons.2 ⟨h, preliminary⟩

theorem judged_of_done (h : turn v body x.instant x.stage = .done outcome)
    (preliminary : Preliminary x.log) : ComesToJudgement v body answer cancelAt x :=
  Machine.attains_here (.ended (by rw [h]; rfl) preliminary)

theorem judged_of_remote {call : Call} {cut : Option (Cut Stage)} {resume : call.Reply → Stage}
    (h : turn v body x.instant x.stage = .ask call cut resume) (remote : call.isRemote)
    (preliminary : Preliminary x.log) :
    ComesToJudgement v body answer cancelAt x :=
  Machine.attains_of_after (Machine.after?_ask h)
    (Machine.attains_here (.asked rfl remote preliminary))

theorem judged_of_finish (h : turn v body x.instant x.stage = finish lease outcome)
    (preliminary : Preliminary x.log) :
    ComesToJudgement v body answer cancelAt x := by
  refine Machine.attains_of_ask h fun r y hstage hlog => ?_
  have ends : turn v body y.instant y.stage = .done outcome := by
    rw [hstage]
    rfl
  exact judged_of_done ends (hlog ▸ preliminary_cons rfl preliminary)

theorem afterVerdict_of_other {reason : Rejection} (other : ∀ e, reason ≠ .verification e) :
    afterVerdict lease payment (.error reason) = finish lease (.rejected reason) := by
  unfold afterVerdict
  split
  next h => cases h
  next h => exact absurd (Except.error.inj h) (other _)
  next h => exact absurd (Except.error.inj h) (other _)
  next h =>
    cases h
    rfl

theorem judged_of_settles {S : Type} {t : Step S Verdict} {stage : S → Stage}
    (settles : Verifier.Settles t)
    (h : turn v body x.instant x.stage = t.andThen stage (afterVerdict lease payment))
    (preliminary : Preliminary x.log) :
    ComesToJudgement v body answer cancelAt x := by
  rcases settles with ⟨reason, other, rfl⟩ | ⟨call, cut, resume, remote, rfl⟩
  · exact judged_of_finish (h.trans (afterVerdict_of_other other)) preliminary
  · exact judged_of_remote h remote preliminary

theorem judged_of_addressed {hash : Hash} {r : Except StoreError (Option String)}
    (chain : v.chain = .ethereum) (own : request.chain = .ethereum)
    (read : Verifier.paymentHash payment = .ok hash)
    (hstage : x.stage = .verifying request lease payment (.ethereum (.addressed hash r)))
    (preliminary : Preliminary x.log) : ComesToJudgement v body answer cancelAt x := by
  have hturn : turn v body x.instant x.stage =
      (v.turn payment x.instant (.ethereum (.addressed hash r))).andThen
        (.verifying request lease payment) (afterVerdict lease payment) := by
    rw [hstage]
    rfl
  exact judged_of_settles (Verifier.settles_addressed chain own read _) hturn preliminary

theorem judged_of_found (own : request.chain = v.chain) {r : Except StoreError (Option Payment)}
    (hstage : x.stage = .found request lease r) (preliminary : Preliminary x.log) :
    ComesToJudgement v body answer cancelAt x := by
  have hturn : turn v body x.instant x.stage = turn v body x.instant (.found request lease r) := by
    rw [hstage]
  rcases r with e | _ | payment
  · exact judged_of_finish hturn preliminary
  · exact judged_of_finish hturn preliminary
  · cases hfits : refusal? v request payment with
    | some reason =>
        have hrefused : turn v body x.instant x.stage = finish lease (.rejected reason) :=
          hturn.trans (by simp only [turn, hfits])
        exact judged_of_finish hrefused preliminary
    | none =>
        have hbegin : turn v body x.instant x.stage =
            (v.begin request payment x.instant).andThen (.verifying request lease payment)
              (afterVerdict lease payment) :=
          hturn.trans (by simp only [turn, hfits])
        rcases Verifier.settles_begin own x.instant with ⟨hash, chain, read, haddress⟩ | settles
        · rw [haddress] at hbegin
          refine Machine.attains_of_ask hbegin fun r y hstage hlog => ?_
          exact judged_of_addressed chain (own.trans chain) read hstage
            (hlog ▸ preliminary_cons rfl preliminary)
        · exact judged_of_settles settles hbegin preliminary

theorem judged_of_leased (own : request.chain = v.chain) {r : Except LockError (Option Lease)}
    (hstage : x.stage = .leased request r) (preliminary : Preliminary x.log) :
    ComesToJudgement v body answer cancelAt x := by
  have hturn : turn v body x.instant x.stage = turn v body x.instant (.leased request r) := by
    rw [hstage]
  rcases r with e | _ | lease
  · exact judged_of_done hturn preliminary
  · exact judged_of_done hturn preliminary
  · refine Machine.attains_of_ask hturn fun r y hstage hlog => ?_
    exact judged_of_found own hstage (hlog ▸ preliminary_cons rfl preliminary)

/-- Whatever the world answers, the work comes to where the message is judged. -/
theorem judged_of_received (v : Verifier) (body : ByteArray)
    (answer : Instant → (call : Call) → W → Answer W call.Reply) (cancelAt : Option Instant)
    (world : W) : ComesToJudgement v body answer cancelAt ⟨0, world, .received, []⟩ := by
  have preliminary : Preliminary [] := by simp [Preliminary]
  rcases receive_cases v body with ⟨outcome, h⟩ | ⟨endless, h⟩ | ⟨request, ttl, read, h⟩
  · exact judged_of_done h preliminary
  · exact Machine.attains_here (.broken endless (by rw [turn, h]; rfl) rfl)
  · refine Machine.attains_of_ask h fun r y hstage hlog => ?_
    exact judged_of_leased (Request.chain_of_ofBody? read) hstage
      (hlog ▸ preliminary_cons rfl preliminary)

/-- The store is the part of the world that answers the calls of a store. -/
def Serves (answer : Instant → (call : Call) → W → Answer W call.Reply) (store : W → Store) :
    Prop :=
  ∀ now call w, (store w).Answers call (answer now call w).reply (store (answer now call w).world)

/-- If the world has a store, it has answered so from what it held at the start. -/
def Told (answer : Instant → (call : Call) → W → Answer W call.Reply) (world : W)
    (checked : List Contact) : Prop :=
  ∀ store : W → Store, Serves answer store →
    ∀ a ∈ checked, (store world).Answers a.call a.reply (store world)

/-- What the preliminary calls leave alone never changes. -/
def Spared (v : Verifier) (body : ByteArray)
    (answer : Instant → (call : Call) → W → Answer W call.Reply) (world : W)
    (cancelAt : Option Instant) : Prop :=
  ∀ (T : Type) (part : W → T), (work v body answer).Spares (·.isPreliminary) part →
    ∀ fuel, part (System.run (work v body answer) fuel
      ⟨0, world, [.begin .received cancelAt], 0, []⟩).world = part world

/-- How a message fares that is worked on alone: it is turned away, and nothing but preliminary
calls has been made; or it is cleared and then the chain is asked; or the worker breaks down over
the length of its lock, before anything has been asked. -/
inductive Fares (v : Verifier) (body : ByteArray)
    (answer : Instant → (call : Call) → W → Answer W call.Reply) (world : W)
    (cancelAt : Option Instant) : Prop
  | barred {instant : Instant} {log : List (Entry Call Call.Reply)} {outcome : Outcome}
      {checked : List Contact}
      (halts : (work v body answer).Halts world .received cancelAt instant log (some outcome))
      (first : checked <:+ log.map Entry.asked) (barred : Barred v body checked outcome)
      (preliminary : Preliminary log) (told : Told answer world checked)
      (spared : Spared v body answer world cancelAt)
  | cleared {fuel : Nat} {entry : Entry Call Call.Reply} {before : List (Entry Call Call.Reply)}
      {checked : List Contact}
      (log : (System.run (work v body answer) fuel
        ⟨0, world, [.begin .received cancelAt], 0, []⟩).log = entry :: before)
      (remote : entry.call.isRemote) (preliminary : Preliminary before)
      (first : checked <:+ before.map Entry.asked) (cleared : Cleared v body checked)
      (told : Told answer world checked)
  | broken {instant : Instant} (endless : Endless v body)
      (halts : (work v body answer).Halts world .received cancelAt instant [] none)

theorem eq_of_answers {s s' : Store} {call : Call} {r : call.Reply}
    (harmless : call.isPreliminary ∨ call.isRemote) (h : s.Answers call r s') : s' = s := by
  have kept : ∀ {α : Type} {result : Except StoreError α} {r},
      s.Yields (result, s) r s' → s' = s := by
    rintro α result r (h | ⟨-, rfl⟩)
    · exact congrArg Prod.snd h
    · rfl
  cases call with
  | findPayment user number => exact kept h
  | findAddress user => exact kept h
  | ethereum query => exact h
  | dash query => exact h
  | bitcoinCash query => exact h
  | acquire key ttl => exact h
  | release lease => exact h
  | confirmPayment hash => simp [Call.isPreliminary, Call.isRemote] at harmless
  | addCredits user amount => simp [Call.isPreliminary, Call.isRemote] at harmless
  | findUser user => simp [Call.isPreliminary, Call.isRemote] at harmless
  | notify email => simp [Call.isPreliminary, Call.isRemote] at harmless

theorem told_of_comes {world : W} {checked : List Contact}
    (comes : (work v body answer).Comes cancelAt ⟨0, world, .received, []⟩ y)
    (harmless : ∀ entry ∈ y.log, entry.call.isPreliminary ∨ entry.call.isRemote)
    (hchecked : ∀ a ∈ checked, a ∈ y.asked) : Told answer world checked := by
  intro store serves a ha
  have spares : (work v body answer).Spares
      (fun call => call.isPreliminary ∨ call.isRemote) store :=
    fun now call w harmless => eq_of_answers harmless (serves now call w)
  obtain ⟨entry, hentry, rfl⟩ := List.mem_map.1 (hchecked a ha)
  exact Machine.told_of_comes spares serves comes harmless entry hentry

theorem spared_of_halts {world : W} {instant : Instant} {log : List (Entry Call Call.Reply)}
    {result : Option Outcome}
    (halts : (work v body answer).Halts world .received cancelAt instant log result)
    (preliminary : Preliminary log) : Spared v body answer world cancelAt := by
  intro T part spares fuel
  obtain ⟨y, comes, hlog, hworld⟩ :=
    Machine.comes_of_fuel (work v body answer) world .received cancelAt fuel
  have suffix := halts.log_suffix fuel
  rw [hlog] at suffix
  rw [hworld]
  exact Machine.part_of_comes spares comes fun entry hentry => preliminary entry (suffix.mem hentry)

theorem not_remote_of_preliminary {call : Call} (h : call.isPreliminary) : ¬call.isRemote := by
  cases call <;> simp_all [Call.isPreliminary, Call.isRemote]

theorem fares_alone (v : Verifier) (body : ByteArray)
    (answer : Instant → (call : Call) → W → Answer W call.Reply) (world : W)
    (cancelAt : Option Instant) : Fares v body answer world cancelAt := by
  obtain ⟨y, comes, judged⟩ := judged_of_received v body answer cancelAt world
  have course := comes.course
  cases judged with
  | ended stops preliminary =>
      have halts := Machine.halts_of_comes comes stops
      rcases passed_or_barred_of_ends ⟨_, _, course, Turn.eq_done_of_stops stops⟩ with
        passed | ⟨checked, first, barred, -⟩
      · obtain ⟨-, a, ha, remote⟩ := passed
        obtain ⟨entry, hentry, rfl⟩ := List.mem_map.1 ha
        exact absurd remote (not_remote_of_preliminary (preliminary entry hentry))
      · refine .barred halts first barred preliminary ?_ (spared_of_halts halts preliminary)
        exact told_of_comes comes (fun entry hentry => Or.inl (preliminary entry hentry))
          fun a ha => first.mem ha
  | @asked entry before log remote preliminary =>
      obtain ⟨fuel, hlog⟩ := Machine.log_eq_of_comes comes
      have hasked : y.asked = [] ++ entry.asked :: before.map Entry.asked :=
        congrArg (List.map Entry.asked) log
      obtain ⟨checked, first, cleared⟩ := cleared_of_course course hasked remote
      refine .cleared (hlog.trans log) remote preliminary first cleared ?_
      refine told_of_comes comes ?_ fun a ha => ?_
      · rw [log]
        exact List.forall_mem_cons.2 ⟨Or.inr remote, fun e he => Or.inl (preliminary e he)⟩
      · rw [hasked]
        exact List.mem_cons_of_mem _ (first.mem ha)
  | broken endless stops log => exact .broken endless (log ▸ Machine.halts_of_comes comes stops)

/-- Whoever else is at work, and whatever is answered, a chain is asked on behalf of a message only
after that has passed all checks. One that comes to its end has passed them and the chain has been
asked, or it ends with the outcome of the first check that it did not pass, and only locks and the
store's lookups have been called. Alone it comes to the one or the other, unless its lock would have
to be held for a time that is no duration; and a store has then answered from what it held at the
start, and holds it still if the message was turned away. -/
theorem cleared_or_barred (v : Verifier) (body : ByteArray) :
    (∀ asked stage, Course (turn v body) .received asked stage →
      ∀ later a earlier, asked = later ++ a :: earlier → a.call.isRemote →
        ∃ checked, checked <:+ earlier ∧ Cleared v body checked) ∧
    (∀ asked outcome, Ends (turn v body) .received asked outcome →
      Passed v body asked ∨ ∃ checked, checked <:+ asked ∧ Barred v body checked outcome ∧
        ∀ a ∈ asked, a.call.isPreliminary) ∧
    ∀ (W : Type) (answer : Instant → (call : Call) → W → Answer W call.Reply) (world : W)
      (cancelAt : Option Instant), Fares v body answer world cancelAt := by
  refine ⟨?_, ?_, ?_⟩
  · intro asked stage course later a earlier split remote
    exact cleared_of_course course split remote
  · intro asked outcome ends
    exact passed_or_barred_of_ends ends
  · intro W answer world cancelAt
    exact fares_alone v body answer world cancelAt

end

namespace Forwarded

def verifier : Nat → Verifier := fun _ => .dash Sample.dashConfirmer

def payments : Store := Sample.store [Sample.dashPayment 1 "invoice"]

/-- A message that names a forward. -/
def named : Nat → ByteArray := fun _ => "[1,\"alice\",\"forward\",1]".toUTF8

/-- A message that names none. -/
def unnamed : Nat → ByteArray := fun _ => "[1,\"alice\",\"\",1]".toUTF8

/-- What the work on a message makes of the store. -/
def last (message : Nat → ByteArray) : Desk :=
  play (messages Sample.dashNode verifier message) (List.replicate 20 0) (desk payments 1)

theorem reaches_last (message : Nat → ByteArray) :
    Reaches (turns verifier message) Store.Answers (desk payments 1) (last message) :=
  reaches_play (messages_obeys Sample.dashNode verifier message) _ _

end Forwarded

open Forwarded in
/-- A message that names a forward has the service asked about it, and one that names none is turned
away as forged. -/
theorem cleared_or_barred_forwarded :
    (∃ checked, Cleared (verifier 0) (named 0) checked) ∧
    (∃ asked checked, Ends (turn (verifier 0) (unnamed 0)) .received asked
        (.rejected (.forged "empty payment forward id")) ∧ checked <:+ asked ∧
      Barred (verifier 0) (unnamed 0) checked (.rejected (.forged "empty payment forward id")) ∧
      ∀ a ∈ asked, a.call.isPreliminary) ∧
    Serves (fun _ call store => answerAt Sample.dashNode call store) id ∧
    Fares (verifier 0) (unnamed 0) (fun _ call store => answerAt Sample.dashNode call store)
      payments none := by
  have opening : Opening (desk payments 1) := opening_desk 1 (by decide)
  refine ⟨?_, ?_, messages_obeys Sample.dashNode verifier unnamed 0,
    (cleared_or_barred (verifier 0) (unnamed 0)).2.2 _ _ _ _⟩
  · obtain ⟨stage, course⟩ :=
      course_of_reaches (reaches_last named) opening.fresh opening.begins 0
    have remote : ((last named).askedBy 0).any (·.call.isRemote) := by decide +kernel
    obtain ⟨a, ha, remote⟩ := List.any_eq_true.1 remote
    obtain ⟨later, earlier, hsplit⟩ := List.append_of_mem ha
    obtain ⟨checked, -, cleared⟩ :=
      (cleared_or_barred (verifier 0) (named 0)).1 _ _ course _ _ _ hsplit remote
    exact ⟨checked, cleared⟩
  · have ended : (last unnamed).result? 0 =
        some (.rejected (.forged "empty payment forward id")) := by decide +kernel
    have ends := ends_of_reaches (reaches_last unnamed) opening.fresh opening.begins ended
    have silent : ((last unnamed).askedBy 0).all (!·.call.isRemote) := by decide +kernel
    rcases (cleared_or_barred (verifier 0) (unnamed 0)).2.1 _ _ ends with
      passed | ⟨checked, first, barred, preliminary⟩
    · obtain ⟨-, a, ha, remote⟩ := passed
      have hsilent := List.all_eq_true.1 silent a ha
      rw [remote] at hsilent
      cases hsilent
    · exact ⟨_, checked, ends, first, barred, preliminary⟩

end Settlement.Workflow
