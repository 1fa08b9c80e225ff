import Settlement.Proofs.Timeline

/-!
# How long a turn takes

`Turn.Goes` says to which stage a turn leads that is taken at an instant, and at which instant the
activity goes on there. Replies are any, and so is the time that they take, but a call that is
prompt takes none; a pause may be cancelled at any time. What a turn asks is the same as without a
clock (`Goes.leads`).

A deadline holds where nothing else cuts a turn short (`Turn.Uncut`): an activity under a deadline
goes on not later than that (`Timed.Until`).
-/

namespace Settlement

section

variable {S S' : Type} {now natural : Instant}

theorem endOfWait_map (cut : Option (Cut S)) (f : S → S') (stage : S) :
    endOfWait now natural (cut.map (Cut.map f)) (f stage) =
      ((endOfWait now natural cut stage).1, f (endOfWait now natural cut stage).2) := by
  cases cut with
  | none => rfl
  | some k =>
      simp only [endOfWait, Option.map_some, Cut.map]
      split <;> rfl

theorem endOfPause_map (cut : Option (Cut S)) (f : S → S') (woken cancelled : S)
    (cancelAt : Option Instant) :
    endOfPause now natural (cut.map (Cut.map f)) (f woken) (f cancelled) cancelAt =
      ((endOfPause now natural cut woken cancelled cancelAt).1,
        f (endOfPause now natural cut woken cancelled cancelAt).2) := by
  simp only [endOfPause, endOfWait_map]
  cases cancelAt with
  | none => rfl
  | some instant =>
      dsimp only
      split <;> rfl

theorem le_endOfPause (cut : Option (Cut S)) (woken cancelled : S) (cancelAt : Option Instant)
    (h : now ≤ natural) : now ≤ (endOfPause now natural cut woken cancelled cancelAt).1 := by
  have hwait := le_endOfWait cut woken h
  cases cancelAt with
  | none => exact hwait
  | some instant =>
      simp only [endOfPause]
      split
      · exact Nat.le_max_left _ _
      · exact hwait

/-- A pause that is cancelled ends earlier, not later. -/
theorem endOfPause_le (cut : Option (Cut S)) (woken cancelled : S) (cancelAt : Option Instant) :
    (endOfPause now natural cut woken cancelled cancelAt).1 ≤
      (endOfWait now natural cut woken).1 := by
  cases cancelAt with
  | none => exact Nat.le_refl _
  | some instant =>
      simp only [endOfPause]
      by_cases h : max now instant ≤ (endOfWait now natural cut woken).1
      · rw [if_pos h]
        exact h
      · exact Nat.le_of_eq (congrArg Prod.fst (if_neg h))

theorem endOfWait_le {instant : Instant} {late : S} (stage : S) (h : now ≤ instant) :
    (endOfWait now natural (some ⟨instant, late⟩) stage).1 ≤ instant := by
  simp only [endOfWait]
  split
  next hle => exact hle
  next => exact Nat.le_of_eq (Nat.max_eq_right h)

end

namespace Turn

variable {C D : Type} {R : C → Type} {Q : D → Type} {S S' A B : Type}

/-- The turn is taken at `now` and may lead to the stage `next`, where the activity goes on at
`wake`; it asks `asked` on the way. -/
def Goes (prompt : C → Prop) (now : Instant) :
    Turn C R S A → List (Asked C R) → S → Instant → Prop
  | done _, _, _, _ => False
  | ask call cut resume, asked, next, wake =>
    ∃ (r : R call) (delay : Duration), asked = [⟨call, r⟩] ∧ (prompt call → delay.nanos = 0) ∧
      endOfWait now (now + delay.nanos) cut (resume r) = (wake, next)
  | pause length cut woken cancelled, asked, next, wake =>
    asked = [] ∧ ∃ cancelAt,
      endOfPause now (now + length.nanos) cut woken cancelled cancelAt = (wake, next)
  | crash, _, _, _ => False

/-- Nothing cuts the turn short. -/
def Uncut : Turn C R S A → Prop
  | ask _ cut _ => cut = none
  | pause _ cut _ _ => cut = none
  | _ => True

section

variable {prompt : C → Prop} {now wake : Instant} {t : Turn C R S A} {asked : List (Asked C R)}
  {next : S}

theorem Goes.leads (h : t.Goes prompt now asked next wake) : t.Leads asked next := by
  cases t with
  | done a => exact h
  | ask call cut resume =>
      obtain ⟨r, delay, rfl, -, hend⟩ := h
      have hstage := endOfWait_stage now (now + delay.nanos) cut (resume r)
      rw [hend] at hstage
      exact ⟨r, rfl, hstage⟩
  | pause length cut woken cancelled =>
      obtain ⟨rfl, cancelAt, hend⟩ := h
      have hstage := endOfPause_stage now (now + length.nanos) cut woken cancelled cancelAt
      rw [hend] at hstage
      exact ⟨rfl, hstage⟩
  | crash => exact h

/-- Nothing goes on before it is its turn. -/
theorem Goes.le (h : t.Goes prompt now asked next wake) : now ≤ wake := by
  cases t with
  | done a => exact h.elim
  | ask call cut resume =>
      obtain ⟨r, delay, -, -, hend⟩ := h
      have hle := le_endOfWait cut (resume r) (Nat.le_add_right now delay.nanos)
      rwa [hend] at hle
  | pause length cut woken cancelled =>
      obtain ⟨-, cancelAt, hend⟩ := h
      have hle := le_endOfPause cut woken cancelled cancelAt (Nat.le_add_right now length.nanos)
      rwa [hend] at hle
  | crash => exact h.elim

/-- A prompt call that nothing cuts short takes no time. -/
theorem goes_prompt {call : C} {resume : R call → S} (hprompt : prompt call)
    (h : (ask call none resume : Turn C R S A).Goes prompt now asked next wake) : wake = now := by
  obtain ⟨r, delay, -, instantly, hend⟩ := h
  rw [endOfWait, instantly hprompt, Nat.add_zero] at hend
  exact (Prod.mk.inj hend).1.symm

/-- A pause that nothing cuts short takes no longer than its length. -/
theorem goes_pause {length : Duration} {woken cancelled : S}
    (h : (pause length none woken cancelled : Turn C R S A).Goes prompt now asked next wake) :
    wake ≤ now + length.nanos ∧ (next = woken ∨ next = cancelled) := by
  refine ⟨?_, (leads_pause.1 h.leads).2⟩
  obtain ⟨-, cancelAt, hend⟩ := h
  have hle : (endOfPause now (now + length.nanos) none woken cancelled cancelAt).1 ≤
      now + length.nanos := endOfPause_le none woken cancelled cancelAt
  rwa [hend] at hle

/-- The turn of a part goes where the part goes; when the part is done, it goes where the whole goes
on. -/
theorem goes_within {prompt : D → Prop} {call : C → D} {stage : S → S'}
    {next : A → Turn D Q S' B} {t : Turn C (fun c => Q (call c)) S A}
    {asked : List (Asked D Q)} {s' : S'}
    (h : (t.within call (fun _ r => r) stage next).Goes prompt now asked s' wake) :
    (∃ a, t = done a ∧ (next a).Goes prompt now asked s' wake) ∨
      ∃ inner s, t.Goes (fun c => prompt (call c)) now inner s wake ∧ s' = stage s := by
  cases t with
  | done a => exact Or.inl ⟨a, rfl, h⟩
  | ask c cut resume =>
      obtain ⟨r, delay, -, instantly, hend⟩ := h
      rw [endOfWait_map] at hend
      obtain ⟨rfl, rfl⟩ := Prod.mk.inj hend
      exact Or.inr ⟨_, _, ⟨r, delay, rfl, instantly, rfl⟩, rfl⟩
  | pause length cut woken cancelled =>
      obtain ⟨-, cancelAt, hend⟩ := h
      rw [endOfPause_map] at hend
      obtain ⟨rfl, rfl⟩ := Prod.mk.inj hend
      exact Or.inr ⟨_, _, ⟨rfl, cancelAt, rfl⟩, rfl⟩
  | crash => exact h.elim

theorem goes_andThen {stage : S → S'} {next : A → Turn C R S' B} {s' : S'}
    (h : (t.andThen stage next).Goes prompt now asked s' wake) :
    (∃ a, t = done a ∧ (next a).Goes prompt now asked s' wake) ∨
      ∃ inner s, t.Goes prompt now inner s wake ∧ s' = stage s :=
  goes_within h

/-- A turn that a deadline cuts short, and nothing else, goes on not later than that. -/
theorem goes_cutAt {instant : Instant} {late : S} (uncut : t.Uncut) (before : now ≤ instant)
    (h : (t.cutAt instant late).Goes prompt now asked next wake) : wake ≤ instant := by
  cases t with
  | done a => exact h.elim
  | ask call cut resume =>
      obtain rfl : cut = none := uncut
      obtain ⟨r, delay, -, -, hend⟩ := h
      have hle : (endOfWait now (now + delay.nanos) (some ⟨instant, late⟩) (resume r)).1 ≤
          instant := endOfWait_le (resume r) before
      rwa [hend] at hle
  | pause length cut woken cancelled =>
      obtain rfl : cut = none := uncut
      obtain ⟨-, cancelAt, hend⟩ := h
      have hle : (endOfPause now (now + length.nanos) (some ⟨instant, late⟩) woken cancelled
          cancelAt).1 ≤ instant :=
        Nat.le_trans (endOfPause_le _ woken cancelled cancelAt) (endOfWait_le woken before)
      rwa [hend] at hle
  | crash => exact h.elim

theorem uncut_within {call : C → D} {reply : ∀ c, Q (call c) → R c} {stage : S → S'}
    {next : A → Turn D Q S' B} (uncut : t.Uncut) (hnext : ∀ a, (next a).Uncut) :
    (t.within call reply stage next).Uncut := by
  cases t with
  | done a => exact hnext a
  | ask c cut resume =>
      obtain rfl : cut = none := uncut
      rfl
  | pause length cut woken cancelled =>
      obtain rfl : cut = none := uncut
      rfl
  | crash => trivial

end

end Turn

namespace Timed

variable {C : Type} {R : C → Type} {S A : Type}

/-- The activity goes on at `wake`, not later than its deadline, which is not later than `limit`. -/
def Until (limit : Instant) : Timed S → Instant → Prop
  | running deadline _, wake => wake ≤ deadline ∧ deadline ≤ limit
  | expired, wake => wake ≤ limit

theorem Until.le {limit wake : Instant} {s : Timed S} (h : s.Until limit wake) : wake ≤ limit := by
  cases s with
  | running deadline stage => exact Nat.le_trans h.1 h.2
  | expired => exact h

theorem until_start {limit now : Instant} {length : Duration} {stage : S}
    (h : now + length.nanos ≤ limit) : (start now length stage).Until limit now :=
  ⟨Nat.le_add_right _ _, h⟩

/-- Under a deadline a turn goes on in time. -/
theorem Until.next {inner : S → Turn C R S A} {late : A} {prompt : C → Prop}
    {limit now wake : Instant} {s s' : Timed S} {asked : List (Asked C R)}
    (uncut : ∀ stage, (inner stage).Uncut) (h : s.Until limit now)
    (goes : (turn inner late s).Goes prompt now asked s' wake) : s'.Until limit wake := by
  cases s with
  | expired => exact goes.elim
  | running deadline stage =>
      have huncut : ((inner stage).andThen (running deadline) .done).Uncut :=
        Turn.uncut_within (uncut stage) fun a => (trivial : Turn.Uncut (.done a))
      have hwake : wake ≤ deadline := Turn.goes_cutAt huncut h.1 goes
      rcases Turn.leads_cutAt goes.leads with rfl | leads
      · exact Nat.le_trans hwake h.2
      · rcases Turn.leads_andThen leads with ⟨a, -, hdone⟩ | ⟨next, -, rfl⟩
        · exact hdone.elim
        · exact ⟨hwake, h.2⟩

end Timed

end Settlement
