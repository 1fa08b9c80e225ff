import Settlement.Proofs.Shift
import Settlement.Proofs.Solo

/-!
# Two runs in step

A machine begins at `a` and another one at `b`, each alone in a world of its own. Two of their turns
are in step if they take the same time and lead on to worlds and stages that are alike
(`Turn.InStep`). Runs whose turns are in step as long as they are alike end alike, equally long
after their beginnings (`Machine.Comes.inStep`).
-/

namespace Settlement

variable {C : Type} {R : C → Type} {W S A : Type} {m m' : Machine C R W S A} {a b : Instant}
  {like : W × S → W × S → Prop} {ends : W → W → A → A → Prop} {x y z x' : Point C R W S}
  {result : A}

/-- Two turns, `t` after the beginnings, that go on in what is `like`, or end in worlds and with
results that may stand beside each other. -/
inductive Turn.InStep (m m' : Machine C R W S A) (a b : Instant) (like : W × S → W × S → Prop)
    (ends : W → W → A → A → Prop) (t : Nat) (w w' : W) : Turn C R S A → Turn C R S A → Prop
  | done {result result' : A} (worlds : ends w w' result result') :
      InStep m m' a b like ends t w w' (.done result) (.done result')
  | ask {call call' : C} {cut cut' : Option (Cut S)} {resume : R call → S} {resume' : R call' → S}
      (delay : (m'.answer (b + t) call' w').delay = (m.answer (a + t) call w).delay)
      (cuts : Cut.Alike a b (fun s s' => like ((m.answer (a + t) call w).world, s)
        ((m'.answer (b + t) call' w').world, s')) cut cut')
      (goes : like ((m.answer (a + t) call w).world, resume (m.answer (a + t) call w).reply)
        ((m'.answer (b + t) call' w').world, resume' (m'.answer (b + t) call' w').reply)) :
      InStep m m' a b like ends t w w' (.ask call cut resume) (.ask call' cut' resume')
  | pause {length : Duration} {cut cut' : Option (Cut S)} {woken woken' cancelled cancelled' : S}
      (cuts : Cut.Alike a b (fun s s' => like (w, s) (w', s')) cut cut')
      (wakes : like (w, woken) (w', woken')) :
      InStep m m' a b like ends t w w' (.pause length cut woken cancelled)
        (.pause length cut' woken' cancelled')

namespace Machine

/-- The activity ends with a result from here on. -/
def EndsWith (m : Machine C R W S A) (x : Point C R W S) (result : A) : Prop :=
  ∃ y, m.Comes none x y ∧ m.StopsAt y (some result)

theorem EndsWith.next (endsWith : m.EndsWith x result) (step : m.after? none x = some y) :
    m.EndsWith y result := by
  obtain ⟨z, comes, stops⟩ := endsWith
  rcases Relation.ReflTransGen.cases_head comes with rfl | ⟨y', step', comes⟩
  · rw [after?_of_stops stops] at step
    cases step
  · obtain rfl := Option.some.inj (step.symm.trans step')
    exact ⟨z, comes, stops⟩

theorem EndsWith.eq_of_stops {other : Option A} (endsWith : m.EndsWith x result)
    (stops : m.StopsAt x other) : other = some result := by
  obtain ⟨z, comes, stops'⟩ := endsWith
  rcases Relation.ReflTransGen.cases_head comes with rfl | ⟨y, step, -⟩
  · exact stops.unique stops'
  · rw [after?_of_stops stops] at step
    cases step

/-- An activity ends in one way. -/
theorem Comes.unique {z : Point C R W S} {other : A} (comes : m.Comes none x y)
    (stops : m.StopsAt y (some result)) (comes' : m.Comes none x z)
    (stops' : m.StopsAt z (some other)) : y = z ∧ result = other := by
  induction comes using Relation.ReflTransGen.head_induction_on with
  | refl =>
      rcases Relation.ReflTransGen.cases_head comes' with rfl | ⟨_, step, -⟩
      · exact ⟨rfl, Option.some.inj (stops.unique stops')⟩
      · rw [after?_of_stops stops] at step
        cases step
  | head step _ ih =>
      rcases Relation.ReflTransGen.cases_head comes' with rfl | ⟨_, step', comes'⟩
      · rw [after?_of_stops stops'] at step
        cases step
      · obtain rfl := Option.some.inj (step.symm.trans step')
        exact ih comes'

/-- Both are as long after the beginning of their runs, and alike. -/
structure Abreast (a b : Instant) (like : W × S → W × S → Prop) (x x' : Point C R W S) :
    Prop where
  elapsed : ∃ t : Nat, x.instant = a + t ∧ x'.instant = b + t
  alike : like (x.world, x.stage) (x'.world, x'.stage)

/-- Turns that are in step lead on to what is abreast again. -/
theorem after_of_inStep {t : Nat} (now : x.instant = a + t) (now' : x'.instant = b + t)
    (turns : Turn.InStep m m' a b like ends t x.world x'.world (m.turn x.instant x.stage)
      (m'.turn x'.instant x'.stage))
    (step : m.after? none x = some y) :
    ∃ y', m'.after? none x' = some y' ∧ Abreast a b like y y' := by
  generalize hturn : m.turn x.instant x.stage = turn at turns
  generalize hturn' : m'.turn x'.instant x'.stage = turn' at turns
  cases turns with
  | @done result result' worlds =>
      have stops : m.StopsAt x (some result) := by
        rw [StopsAt, hturn]
        rfl
      rw [after?_of_stops stops] at step
      cases step
  | @ask call call' cut cut' resume resume' delay cuts goes =>
      rw [after?_ask hturn, now, Option.some.injEq] at step
      subst step
      refine ⟨_, after?_ask hturn', ?_⟩
      rw [now', delay]
      obtain ⟨wake, next, next', h, h', stages⟩ := endOfWait_alike cuts t
        (t + (m.answer (a + t) call x.world).delay.nanos) goes
      rw [← Nat.add_assoc] at h h'
      simp only [h, h']
      exact ⟨⟨wake, rfl, rfl⟩, stages⟩
  | @pause length cut cut' woken woken' cancelled cancelled' cuts wakes =>
      rw [after?_pause hturn, now, Option.some.injEq] at step
      subst step
      refine ⟨_, after?_pause hturn', ?_⟩
      rw [now']
      obtain ⟨wake, next, next', h, h', stages⟩ := endOfWait_alike cuts t (t + length.nanos) wakes
      rw [← Nat.add_assoc] at h h'
      simp only [endOfPause, h, h']
      exact ⟨⟨wake, rfl, rfl⟩, stages⟩

theorem stops_of_inStep {t : Nat}
    (turns : Turn.InStep m m' a b like ends t x.world x'.world (m.turn x.instant x.stage)
      (m'.turn x'.instant x'.stage))
    (stops : m.StopsAt x (some result)) :
    ∃ result', m'.StopsAt x' (some result') ∧ ends x.world x'.world result result' := by
  have hturn := Turn.eq_done_of_stops stops
  unfold StopsAt
  generalize m'.turn x'.instant x'.stage = turn' at turns
  rw [hturn] at turns
  cases turns with
  | done worlds => exact ⟨_, rfl, worlds⟩

/-- A run that ends with a result is accompanied to its end. That a point lies on the run, and that
the run ends so, may be used to show that the turn there is in step. -/
theorem Comes.inStep
    (turns : ∀ (t : Nat) (x x' : Point C R W S), x.instant = a + t → x'.instant = b + t →
      like (x.world, x.stage) (x'.world, x'.stage) → m.Comes none z x → m.EndsWith x result →
      Turn.InStep m m' a b like ends t x.world x'.world (m.turn x.instant x.stage)
        (m'.turn x'.instant x'.stage))
    (comes : m.Comes none x y) (stops : m.StopsAt y (some result)) (before : m.Comes none z x)
    (abreast : Abreast a b like x x') :
    ∃ y' result', m'.Comes none x' y' ∧ m'.StopsAt y' (some result') ∧
      (∃ t : Nat, y.instant = a + t ∧ y'.instant = b + t) ∧
      ends y.world y'.world result result' := by
  induction comes using Relation.ReflTransGen.head_induction_on generalizing x' with
  | refl =>
      obtain ⟨t, now, now'⟩ := abreast.elapsed
      have inStep := turns t y x' now now' abreast.alike before ⟨y, .refl, stops⟩
      obtain ⟨result', stops', worlds⟩ := stops_of_inStep inStep stops
      exact ⟨x', result', .refl, stops', abreast.elapsed, worlds⟩
  | head step comes ih =>
      obtain ⟨t, now, now'⟩ := abreast.elapsed
      have inStep := turns t _ x' now now' abreast.alike before ⟨y, .head step comes, stops⟩
      obtain ⟨x'', step', abreast'⟩ := after_of_inStep now now' inStep step
      obtain ⟨y', result', comes', rest⟩ := ih (before.tail step) abreast'
      exact ⟨y', result', .head step' comes', rest⟩

end Machine

end Settlement
