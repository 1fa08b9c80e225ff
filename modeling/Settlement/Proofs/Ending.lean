import Settlement.Proofs.Hosting

/-!
# How a run ends

`Machine.Closes` says with what result a run ends from a point on, when, and in which world. It is
read off turn by turn (`closes_iff_of_after`), and a run that goes through an activity within it
closes as that activity does, and then as the rest (`Hosts.closes_iff`). A machine may work on a
part of a world and leave the rest of it alone: then it does the same beside any such rest
(`Embeds`).
-/

namespace Settlement

variable {C : Type} {R : C → Type} {W W' S A : Type}

/-- The answer in a larger world. -/
def Answer.over {ρ : Type} (f : W → W') (a : Answer W ρ) : Answer W' ρ :=
  ⟨a.reply, a.delay, f a.world⟩

/-- The point in a larger world. -/
def Point.over (f : W → W') (x : Point C R W S) : Point C R W' S :=
  ⟨x.instant, f x.world, x.stage, x.log⟩

namespace Machine

/-- From a point on the run ends with a result, or breaks down, at an instant and in a world. -/
def Closes (m : Machine C R W S A) (cancelAt : Option Instant) (x : Point C R W S)
    (result : Option A) (instant : Instant) (world : W) : Prop :=
  ∃ y, m.Comes cancelAt x y ∧ m.StopsAt y result ∧ y.instant = instant ∧ y.world = world

section

variable {m : Machine C R W S A} {cancelAt : Option Instant} {x y : Point C R W S}
  {result result' : Option A} {instant : Instant} {world world' : W}

theorem closes_iff_of_stops (stops : m.StopsAt x result) :
    m.Closes cancelAt x result' instant world ↔
      result' = result ∧ instant = x.instant ∧ world = x.world := by
  constructor
  · rintro ⟨y, comes, stops', rfl, rfl⟩
    obtain rfl := comes.eq_of_stops stops
    exact ⟨stops'.unique stops, rfl, rfl⟩
  · rintro ⟨rfl, rfl, rfl⟩
    exact ⟨x, .refl, stops, rfl, rfl⟩

theorem closes_iff_of_after (step : m.after? cancelAt x = some y) :
    m.Closes cancelAt x result instant world ↔ m.Closes cancelAt y result instant world := by
  constructor
  · rintro ⟨z, comes, stops, hz⟩
    rcases Relation.ReflTransGen.cases_head comes with rfl | ⟨y', step', comes⟩
    · rw [after?_of_stops stops] at step
      cases step
    · obtain rfl := Option.some.inj (step.symm.trans step')
      exact ⟨z, comes, stops, hz⟩
  · rintro ⟨z, comes, stops, hz⟩
    exact ⟨z, .head step comes, stops, hz⟩

theorem Comes.closes_iff (comes : m.Comes cancelAt x y) :
    m.Closes cancelAt x result instant world ↔ m.Closes cancelAt y result instant world := by
  induction comes with
  | refl => rfl
  | tail _ step ih => exact ih.trans (closes_iff_of_after step)

/-- What a turn does to the world is what is done by the call that it makes, if it makes one. -/
theorem world_of_after (step : m.after? cancelAt x = some y) :
    (∃ call, (m.turn x.instant x.stage).Leads
        [⟨call, (m.answer x.instant call x.world).reply⟩] y.stage ∧
        y.world = (m.answer x.instant call x.world).world) ∨
      (m.turn x.instant x.stage).Leads [] y.stage ∧ y.world = x.world := by
  cases hturn : m.turn x.instant x.stage with
  | done a => simp [after?, hturn] at step
  | crash => simp [after?, hturn] at step
  | ask call cut resume =>
      rw [after?_ask hturn, Option.some.injEq] at step
      subst step
      exact Or.inl ⟨call, ⟨_, rfl, endOfWait_stage _ _ cut _⟩, rfl⟩
  | pause length cut woken cancelled =>
      rw [after?_pause hturn, Option.some.injEq] at step
      subst step
      exact Or.inr ⟨⟨rfl, endOfPause_stage _ _ cut woken cancelled cancelAt⟩, rfl⟩

/-- A call that is answered at once. -/
theorem closes_iff_of_ask {call : C} {resume : R call → S} {r : R call}
    (turn : m.turn x.instant x.stage = .ask call none resume)
    (answer : m.answer x.instant call x.world = ⟨r, ⟨0⟩, world'⟩) :
    m.Closes cancelAt x result instant world ↔
      m.Closes cancelAt ⟨x.instant, world', resume r, ⟨x.instant, 0, call, r⟩ :: x.log⟩ result
        instant world := by
  refine closes_iff_of_after ?_
  rw [after?_ask turn, answer]
  rfl

theorem closes_iff_of_done {a : A} (turn : m.turn x.instant x.stage = .done a) :
    m.Closes cancelAt x result instant world ↔
      result = some a ∧ instant = x.instant ∧ world = x.world :=
  closes_iff_of_stops (by rw [StopsAt, turn]; rfl)

theorem closes_iff_of_crash (turn : m.turn x.instant x.stage = .crash) :
    m.Closes cancelAt x result instant world ↔
      result = none ∧ instant = x.instant ∧ world = x.world :=
  closes_iff_of_stops (by rw [StopsAt, turn]; rfl)

end

section

variable {D : Type} {Q : D → Type} {S' B : Type} {call : C → D}
  {part : Machine C (fun c => Q (call c)) W S A} {whole : Machine D Q W S' B}
  {stage : S → S'} {next : A → Turn D Q S' B} {before : List (Entry D Q)}
  {x : Point C (fun c => Q (call c)) W S} {z : Point D Q W S'} {cancelAt : Option Instant}

/-- The whole ends as its part does and then as the rest, if it is known how the rest ends. -/
theorem Hosts.closes_iff (answer : ∀ now c w, whole.answer now (call c) w = part.answer now c w)
    (turn : ∀ now s, whole.turn now (stage s) =
      (part.turn now s).within call (fun _ r => r) stage next)
    (hosts : Hosts call part whole stage next before x z) {b : B} {instant : Instant} {world : W}
    {rest : A → Instant → W → Prop}
    (after : ∀ z' a, whole.turn z'.instant z'.stage = next a →
      (whole.Closes cancelAt z' (some b) instant world ↔ rest a z'.instant z'.world)) :
    whole.Closes cancelAt z (some b) instant world ↔
      ∃ a i w, part.Closes cancelAt x (some a) i w ∧ rest a i w := by
  constructor
  · rintro ⟨z', comes, stops, hz'⟩
    obtain ⟨y, result, z₁, comes', ended, hosts', goes⟩ := hosts.ends answer turn comes stops
    have closes : whole.Closes cancelAt z₁ (some b) instant world := ⟨z', goes, stops, hz'⟩
    cases result with
    | none =>
        have crash : whole.turn z₁.instant z₁.stage = .crash := by
          rcases Turn.cases_of_stops ended with ⟨_, _, hnone⟩ | ⟨hturn, -⟩
          · cases hnone
          · rw [hosts'.turn, hturn]
            rfl
        cases ((closes_iff_of_crash crash).1 closes).1
    | some a =>
        refine ⟨a, y.instant, y.world, ⟨y, comes', ended, rfl, rfl⟩, ?_⟩
        rw [← hosts'.instant, ← hosts'.world]
        exact (after z₁ a (hosts'.over ended)).1 closes
  · rintro ⟨a, _, _, ⟨y, comes, ended, rfl, rfl⟩, hrest⟩
    obtain ⟨z₁, comes', hosts'⟩ := hosts.comes answer turn comes
    rw [← hosts'.instant, ← hosts'.world] at hrest
    exact comes'.closes_iff.2 ((after z₁ a (hosts'.over ended)).2 hrest)

end

/-- One machine does in a larger world what another does in a part of it: it takes the same turns,
and what they ask for is answered from the part and leaves the rest alone. -/
structure Embeds (small : Machine C R W S A) (large : Machine C R W' S A) (f : W → W') :
    Prop where
  turn : ∀ now s, large.turn now s = small.turn now s
  answer : ∀ now s w, (small.turn now s).Asks fun call =>
    large.answer now call (f w) = (small.answer now call w).over f

section

variable {small : Machine C R W S A} {large : Machine C R W' S A} {f : W → W'}
  {cancelAt : Option Instant} {x y : Point C R W S} {z : Point C R W' S}

theorem Embeds.after? (embeds : Embeds small large f) (cancelAt : Option Instant)
    (x : Point C R W S) :
    large.after? cancelAt (x.over f) = (small.after? cancelAt x).map (Point.over f) := by
  have turn : large.turn (x.over f).instant (x.over f).stage = small.turn x.instant x.stage :=
    embeds.turn _ _
  have asks := embeds.answer x.instant x.stage x.world
  unfold Machine.after?
  rw [turn]
  cases hturn : small.turn x.instant x.stage with
  | done a => rfl
  | crash => rfl
  | pause length cut woken cancelled => rfl
  | ask call cut resume =>
      rw [hturn] at asks
      have answer : large.answer (x.over f).instant call (x.over f).world =
          (small.answer x.instant call x.world).over f := asks
      dsimp only
      rw [answer]
      rfl

theorem Embeds.comes (embeds : Embeds small large f) (comes : small.Comes cancelAt x y) :
    large.Comes cancelAt (x.over f) (y.over f) := by
  induction comes with
  | refl => exact .refl
  | tail _ step ih => exact ih.tail ((embeds.after? cancelAt _).trans (congrArg _ step))

/-- Whatever the run comes to, the rest of the world is as it was. -/
theorem Embeds.of_comes (embeds : Embeds small large f)
    (comes : large.Comes cancelAt (x.over f) z) : ∃ y, z = y.over f ∧ small.Comes cancelAt x y := by
  induction comes with
  | refl => exact ⟨x, rfl, .refl⟩
  | tail _ step ih =>
      obtain ⟨y, rfl, comes⟩ := ih
      rw [embeds.after?] at step
      obtain ⟨y', step', rfl⟩ := Option.map_eq_some_iff.1 step
      exact ⟨y', rfl, comes.tail step'⟩

theorem Embeds.stopsAt_iff (embeds : Embeds small large f) {result : Option A} :
    large.StopsAt (x.over f) result ↔ small.StopsAt x result := by
  have turn : large.turn (x.over f).instant (x.over f).stage = small.turn x.instant x.stage :=
    embeds.turn _ _
  rw [StopsAt, turn, StopsAt]

theorem Embeds.closes_iff (embeds : Embeds small large f) {result : Option A} {instant : Instant}
    {world : W'} : large.Closes cancelAt (x.over f) result instant world ↔
      ∃ w, small.Closes cancelAt x result instant w ∧ world = f w := by
  constructor
  · rintro ⟨z, comes, stops, rfl, rfl⟩
    obtain ⟨y, rfl, comes'⟩ := embeds.of_comes comes
    exact ⟨y.world, ⟨y, comes', embeds.stopsAt_iff.1 stops, rfl, rfl⟩, rfl⟩
  · rintro ⟨_, ⟨y, comes, stops, rfl, rfl⟩, rfl⟩
    exact ⟨y.over f, embeds.comes comes, embeds.stopsAt_iff.2 stops, rfl, rfl⟩

end

end Machine

end Settlement
