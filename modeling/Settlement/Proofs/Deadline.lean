import Settlement.Proofs.Solo

/-!
# Activities that end by their deadline

An activity under a deadline ends if it cannot go on for ever while no time passes. `Ranked` says so
by a rank: a call brings it down, and so does a pause that is cancelled; a pause that is not
cancelled takes time, and there the rank may go up again (`Turn.Descends`). So every turn brings the
time that is left down, or leaves it and brings the rank down (`Ranked.next`), and the activity
stops (`Ranked.stops`), not after its deadline.
-/

namespace Settlement

variable {C : Type} {R : C → Type} {W S A : Type}

namespace Turn

variable {S' B : Type}

/-- The turn, taken in a world with the rank `r`, keeps `P`, and what it ends with fulfils `Q`.
Nothing cuts it short; a call brings the rank down, as a pause does that is cancelled; a pause takes
time. -/
def Descends (answer : Instant → (call : C) → W → Answer W (R call)) (P : W → S → Prop)
    (Q : Option A → Prop) (rank : W → S → Nat) (world : W) (r : Nat) : Turn C R S A → Prop
  | done a => Q (some a)
  | ask call cut resume => cut = none ∧ ∀ now,
    P (answer now call world).world (resume (answer now call world).reply) ∧
      rank (answer now call world).world (resume (answer now call world).reply) < r
  | pause length cut woken cancelled => cut = none ∧ 0 < length.nanos ∧
    P world woken ∧ P world cancelled ∧ rank world cancelled < r
  | crash => Q none

theorem descends_andThen {answer : Instant → (call : C) → W → Answer W (R call)}
    {P : W → S' → Prop} {Q : Option B → Prop} {rank : W → S' → Nat} {world : W} {r : Nat}
    {stage : S → S'} {next : A → Turn C R S' B} {t : Turn C R S A}
    (h : t.Descends answer (fun w s => P w (stage s))
      (fun result => (result.elim crash next).Descends answer P Q rank world r)
      (fun w s => rank w (stage s)) world r) :
    (t.andThen stage next).Descends answer P Q rank world r := by
  cases t with
  | done a => exact h
  | ask call cut resume =>
      obtain ⟨rfl, hask⟩ := h
      exact ⟨rfl, hask⟩
  | pause length cut woken cancelled =>
      obtain ⟨rfl, hpause⟩ := h
      exact ⟨rfl, hpause⟩
  | crash => exact h

theorem Descends.of_stops {answer : Instant → (call : C) → W → Answer W (R call)}
    {P : W → S → Prop} {Q : Option A → Prop} {rank : W → S → Nat} {world : W} {r : Nat}
    {t : Turn C R S A} {result : Option A} (h : t.Descends answer P Q rank world r)
    (stops : t.Stops result) : Q result := by
  rcases cases_of_stops stops with ⟨a, rfl, rfl⟩ | ⟨rfl, rfl⟩
  · exact h
  · exact h

end Turn

/-- While no time passes, an activity can do only so much, in a world that answers its calls. It
keeps `P`, and what it ends with fulfils `Q`. -/
def Ranked (inner : Instant → S → Turn C R S A)
    (answer : Instant → (call : C) → W → Answer W (R call)) (P : W → S → Prop)
    (Q : Option A → Prop) (rank : W → S → Nat) : Prop :=
  ∀ now world stage, P world stage →
    (inner now stage).Descends answer P Q rank world (rank world stage)

namespace Ranked

variable {inner : Instant → S → Turn C R S A}
  {answer : Instant → (call : C) → W → Answer W (R call)} {P : W → S → Prop}
  {Q : Option A → Prop} {rank : W → S → Nat} {deadline : Instant} {x : Point C R W (Timed S)}
  {stage : S}

/-- Where a turn leads that is taken at `now` with the rank `r`: to the end, at the deadline, or to
a stage that is not after it, and nearer to it or of a lower rank. -/
def InTime (P : W → S → Prop) (rank : W → S → Nat) (deadline now : Instant) (r : Nat)
    (y : Point C R W (Timed S)) : Prop :=
  (y.stage = .expired ∧ y.instant = deadline) ∨
    ∃ next, y.stage = .running deadline next ∧ P y.world next ∧ y.instant ≤ deadline ∧
      (now < y.instant ∨ rank y.world next < r)

/-- A wait under the deadline ends by itself, not after it, or there. -/
theorem endOfWait_deadline {now : Instant} (natural : Instant) (before : now ≤ deadline)
    (stage : Timed S) :
    (natural ≤ deadline ∧
        endOfWait now natural (some ⟨deadline, .expired⟩) stage = (natural, stage)) ∨
      endOfWait now natural (some ⟨deadline, .expired⟩) stage = (deadline, .expired) := by
  unfold endOfWait
  by_cases h : natural ≤ deadline
  · exact Or.inl ⟨h, if_pos h⟩
  · right
    simp [h, Nat.max_eq_right before]

/-- A pause under the deadline may be cancelled, too. -/
theorem endOfPause_deadline {now : Instant} (natural : Instant) (before : now ≤ deadline)
    (woken cancelled : Timed S) (cancelAt : Option Instant) :
    ∃ wake stage, endOfPause now natural (some ⟨deadline, .expired⟩) woken cancelled cancelAt =
      (wake, stage) ∧ ((wake = natural ∧ natural ≤ deadline ∧ stage = woken) ∨
        (wake = deadline ∧ stage = .expired) ∨ (wake ≤ deadline ∧ stage = cancelled)) := by
  have hwait := endOfWait_deadline natural before woken
  have hle : (endOfWait now natural (some ⟨deadline, .expired⟩) woken).1 ≤ deadline :=
    endOfWait_le woken before
  cases cancelAt with
  | none =>
      rcases hwait with ⟨hle, hend⟩ | hend
      · exact ⟨_, _, hend, Or.inl ⟨rfl, hle, rfl⟩⟩
      · exact ⟨_, _, hend, Or.inr (Or.inl ⟨rfl, rfl⟩)⟩
  | some instant =>
      by_cases h : max now instant ≤
          (endOfWait now natural (some ⟨deadline, .expired⟩) woken).1
      · exact ⟨_, _, if_pos h, Or.inr (Or.inr ⟨Nat.le_trans h hle, rfl⟩)⟩
      · have hend : endOfPause now natural (some ⟨deadline, .expired⟩) woken cancelled
            (some instant) = endOfWait now natural (some ⟨deadline, .expired⟩) woken := if_neg h
        rw [hend]
        rcases hwait with ⟨hle, hend⟩ | hend
        · exact ⟨_, _, hend, Or.inl ⟨rfl, hle, rfl⟩⟩
        · exact ⟨_, _, hend, Or.inr (Or.inl ⟨rfl, rfl⟩)⟩

/-- What one turn under the deadline comes to. -/
theorem next (ranked : Ranked inner answer P Q rank) (late : A) (cancelAt : Option Instant)
    (here : x.stage = .running deadline stage) (kept : P x.world stage)
    (before : x.instant ≤ deadline) :
    (∃ result, (Machine.mk (fun now => Timed.turn (inner now) late) answer).StopsAt x result) ∨
      ∃ y, (Machine.mk (fun now => Timed.turn (inner now) late) answer).after? cancelAt x = some y ∧
        InTime P rank deadline x.instant (rank x.world stage) y := by
  have hdescends := ranked x.instant x.world stage kept
  cases hturn : inner x.instant stage with
  | done a =>
      refine Or.inl ⟨some a, ?_⟩
      simp only [Machine.StopsAt, here, Timed.turn, hturn]
      rfl
  | crash =>
      refine Or.inl ⟨none, ?_⟩
      simp only [Machine.StopsAt, here, Timed.turn, hturn]
      rfl
  | ask call cut resume =>
      rw [hturn] at hdescends
      obtain ⟨rfl, hask⟩ := hdescends
      have hwhole : (Machine.mk (fun now => Timed.turn (inner now) late) answer).turn x.instant
          x.stage = .ask call (some ⟨deadline, .expired⟩) fun r => .running deadline (resume r) := by
        simp only [here, Timed.turn, hturn]
        rfl
      refine Or.inr ⟨_, Machine.after?_ask hwhole, ?_⟩
      rcases endOfWait_deadline (x.instant + (answer x.instant call x.world).delay.nanos) before
        (Timed.running deadline (resume (answer x.instant call x.world).reply)) with
        ⟨hle, hend⟩ | hend
      · rw [hend]
        obtain ⟨hkept, hless⟩ := hask x.instant
        exact Or.inr ⟨_, rfl, hkept, hle, Or.inr hless⟩
      · rw [hend]
        exact Or.inl ⟨rfl, rfl⟩
  | pause length cut woken cancelled =>
      rw [hturn] at hdescends
      obtain ⟨rfl, hpos, hwoken, hcancelled, hless⟩ := hdescends
      have hwhole : (Machine.mk (fun now => Timed.turn (inner now) late) answer).turn x.instant
          x.stage = .pause length (some ⟨deadline, .expired⟩) (.running deadline woken)
            (.running deadline cancelled) := by
        simp only [here, Timed.turn, hturn]
        rfl
      refine Or.inr ⟨_, Machine.after?_pause hwhole, ?_⟩
      obtain ⟨wake, next, hend, hcases⟩ := endOfPause_deadline (x.instant + length.nanos) before
        (Timed.running deadline woken) (Timed.running deadline cancelled) cancelAt
      rw [hend]
      rcases hcases with ⟨rfl, hle, rfl⟩ | ⟨rfl, rfl⟩ | ⟨hle, rfl⟩
      · exact Or.inr ⟨_, rfl, hwoken, hle, Or.inl (Nat.lt_add_of_pos_right hpos)⟩
      · exact Or.inl ⟨rfl, rfl⟩
      · exact Or.inr ⟨_, rfl, hcancelled, hle, Or.inr hless⟩

/-- An activity that stops under a deadline, in time, stops without one as well. -/
theorem stops_of_timed (late : A) {result : Option A} {now : Instant}
    (h : (Timed.turn (inner now) late (.running deadline stage)).Stops result) :
    (inner now stage).Stops result := by
  simp only [Timed.turn] at h
  cases hturn : inner now stage with
  | done a => rw [hturn] at h; exact h
  | crash => rw [hturn] at h; exact h
  | ask call cut resume => rw [hturn] at h; cases cut <;> exact h
  | pause length cut woken cancelled => rw [hturn] at h; cases cut <;> exact h

/-- Under the deadline the activity stops, and not after it. The recursion is on the time that is
left, and on the rank while it stays the same. -/
theorem stops (ranked : Ranked inner answer P Q rank) (late : A) (cancelAt : Option Instant)
    (x : Point C R W (Timed S)) (stage : S) (here : x.stage = .running deadline stage)
    (kept : P x.world stage) (before : x.instant ≤ deadline) :
    ∃ y result, (Machine.mk (fun now => Timed.turn (inner now) late) answer).Comes cancelAt x y ∧
      (Machine.mk (fun now => Timed.turn (inner now) late) answer).StopsAt y result ∧
      y.instant ≤ deadline ∧ ((y.stage = .expired ∧ y.instant = deadline) ∨
        ∃ stage, y.stage = .running deadline stage ∧ P y.world stage) := by
  rcases ranked.next late cancelAt here kept before with ⟨result, stops⟩ | ⟨y, step, inTime⟩
  · exact ⟨x, result, .refl, stops, before, Or.inr ⟨stage, here, kept⟩⟩
  · have hle := Machine.instant_le_of_after step
    rcases inTime with ⟨hstage, hinstant⟩ | ⟨next, hstage, hkept, hbefore, hless⟩
    · refine ⟨y, some late, .single step, ?_, Nat.le_of_eq hinstant, Or.inl ⟨hstage, hinstant⟩⟩
      simp only [Machine.StopsAt, hstage]
      rfl
    · obtain ⟨z, result, comes, rest⟩ := stops ranked late cancelAt y next hstage hkept hbefore
      exact ⟨z, result, .head step comes, rest⟩
termination_by (deadline - x.instant, rank x.world stage)
decreasing_by
  rcases Nat.eq_or_lt_of_le hle with heq | hlt
  · rw [← heq]
    exact .right _ (hless.resolve_left fun hlt => Nat.ne_of_lt hlt heq)
  · exact .left _ _ (Nat.sub_lt_sub_left (Nat.lt_of_lt_of_le hlt hbefore) hlt)

/-- An activity that has `limit` comes to an end, not after that: over time, which is just at its
deadline, or where it would stop without one. -/
theorem halts (ranked : Ranked inner answer P Q rank) (late : A) {world : W} {first : S}
    (start : P world first) (limit : Duration) (cancelAt : Option Instant) :
    ∃ (y : Point C R W (Timed S)) (result : Option A),
      (Machine.mk (fun now => Timed.turn (inner now) late) answer).Halts world
        (.start 0 limit first) cancelAt y.instant y.log result ∧
      y.instant ≤ limit.nanos ∧
      ((result = some late ∧ y.instant = limit.nanos) ∨
        Q result ∧ ∃ stage, Course inner first y.asked stage ∧
          (inner y.instant stage).Stops result) := by
  have hstart : Timed.start 0 limit first = .running limit.nanos first :=
    Machine.start_zero limit first
  obtain ⟨y, result, comes, stops, hle, hlast⟩ := ranked.stops late cancelAt
    ⟨0, world, .start 0 limit first, []⟩ first hstart start (Nat.zero_le _)
  refine ⟨y, result, Machine.halts_of_comes comes stops, hle, ?_⟩
  rcases hlast with ⟨hstage, hinstant⟩ | ⟨stage, hstage, kept⟩
  · rw [Machine.StopsAt, hstage] at stops
    exact Or.inl ⟨stops, hinstant⟩
  · have course := comes.course
    rw [hstart, hstage] at course
    rcases course_timed course with hexpired | ⟨_, hsame, course⟩
    · cases hexpired
    · obtain rfl := (Timed.running.inj hsame).2
      rw [Machine.StopsAt, hstage] at stops
      have last := stops_of_timed late stops
      exact Or.inr ⟨(ranked _ _ _ kept).of_stops last, stage, course, last⟩

end Ranked

end Settlement
