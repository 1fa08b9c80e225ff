import Settlement.Proofs.Pace

/-!
# The same activity at another time

An activity may begin at `a` or at `b`. What it does at `a + t` and at `b + t` is alike if it is the
same but for the instants, which are as long after `a` as after `b`: the ones at which it is cut
short (`Turn.Alike`), and with them the deadline that it is under (`Timed.Alike`). So a wait that
is alike ends at the same time after either (`endOfWait_alike`). The results may be the same in a
wider sense.
-/

namespace Settlement

section

variable {S : Type} {a b : Instant} {like : S → S → Prop} {cut cut' : Option (Cut S)} {s s' : S}

/-- Both are not cut short, or as long after `a` as after `b`, and then go on alike. -/
inductive Cut.Alike (a b : Instant) (like : S → S → Prop) :
    Option (Cut S) → Option (Cut S) → Prop
  | none : Alike a b like none none
  | some {s s' : S} (t : Nat) (stages : like s s') :
      Alike a b like (some ⟨a + t, s⟩) (some ⟨b + t, s'⟩)

theorem Cut.Alike.map {S' : Type} {like' : S' → S' → Prop} {stage stage' : S → S'}
    (cuts : Cut.Alike a b like cut cut')
    (stages : ∀ s s', like s s' → like' (stage s) (stage' s')) :
    Cut.Alike a b like' (cut.map (Cut.map stage)) (cut'.map (Cut.map stage')) := by
  cases cuts with
  | none => exact .none
  | some t h => exact .some t (stages _ _ h)

theorem endOfWait_alike (cuts : Cut.Alike a b like cut cut') (t natural : Nat)
    (stages : like s s') :
    ∃ wake next next', endOfWait (a + t) (a + natural) cut s = (a + wake, next) ∧
      endOfWait (b + t) (b + natural) cut' s' = (b + wake, next') ∧ like next next' := by
  cases cuts with
  | none => exact ⟨natural, s, s', rfl, rfl, stages⟩
  | some limit late =>
      by_cases inTime : natural ≤ limit
      · exact ⟨natural, s, s', if_pos (Nat.add_le_add_left inTime a),
          if_pos (Nat.add_le_add_left inTime b), stages⟩
      · have ends : ∀ c : Nat, max (c + t) (c + limit) = c + max t limit :=
          fun c => Nat.add_max_add_left c t limit
        have after : ∀ c : Nat, ¬c + natural ≤ c + limit :=
          fun c h => inTime (Nat.le_of_add_le_add_left h)
        refine ⟨max t limit, _, _, (if_neg (after a)).trans ?_, (if_neg (after b)).trans ?_, late⟩
        · rw [ends a]
        · rw [ends b]

end

namespace Turn

variable {C D : Type} {R : C → Type} {Q : D → Type} {S S' A B : Type} {a b : Instant}
  {like : S → S → Prop} {like' : S' → S' → Prop} {same : A → A → Prop} {same' : B → B → Prop}

/-- The two turns do the same, as long after `a` as after `b`. -/
inductive Alike (a b : Instant) (like : S → S → Prop) (same : A → A → Prop) :
    Turn C R S A → Turn C R S A → Prop
  | done {result result' : A} (results : same result result') :
      Alike a b like same (.done result) (.done result')
  | ask {call : C} {cut cut' : Option (Cut S)} {resume resume' : R call → S}
      (cuts : Cut.Alike a b like cut cut') (stages : ∀ r, like (resume r) (resume' r)) :
      Alike a b like same (.ask call cut resume) (.ask call cut' resume')
  | pause {length : Duration} {cut cut' : Option (Cut S)} {woken woken' cancelled cancelled' : S}
      (cuts : Cut.Alike a b like cut cut') (wakes : like woken woken')
      (ends : like cancelled cancelled') :
      Alike a b like same (.pause length cut woken cancelled)
        (.pause length cut' woken' cancelled')
  | crash : Alike a b like same .crash .crash

/-- A turn that nothing cuts short does not depend on the time. -/
theorem Uncut.alike {t : Turn C R S A} (uncut : t.Uncut) (a b : Instant)
    (refl : ∀ result, same result result) : t.Alike a b Eq same t := by
  cases t with
  | done result => exact .done (refl result)
  | ask call cut resume =>
      obtain rfl : cut = none := uncut
      exact .ask .none fun r => rfl
  | pause length cut woken cancelled =>
      obtain rfl : cut = none := uncut
      exact .pause .none rfl rfl
  | crash => exact .crash

theorem Alike.within {call : C → D} {reply : ∀ c, Q (call c) → R c} {stage stage' : S → S'}
    {next next' : A → Turn D Q S' B} {t t' : Turn C R S A} (turns : t.Alike a b like same t')
    (stages : ∀ s s', like s s' → like' (stage s) (stage' s'))
    (goes : ∀ result result', same result result' →
      (next result).Alike a b like' same' (next' result')) :
    (t.within call reply stage next).Alike a b like' same' (t'.within call reply stage' next') := by
  cases turns with
  | done results => exact goes _ _ results
  | ask cuts resumes => exact .ask (cuts.map stages) fun r => stages _ _ (resumes _)
  | pause cuts wakes ends => exact .pause (cuts.map stages) (stages _ _ wakes) (stages _ _ ends)
  | crash => exact .crash

theorem Alike.cutAt {t t' : Turn C R S A} {late late' : S} (turns : t.Alike a b like same t')
    (limit : Nat) (ends : like late late') :
    (t.cutAt (a + limit) late).Alike a b like same (t'.cutAt (b + limit) late') := by
  cases turns with
  | done results => exact .done results
  | ask cuts stages =>
      cases cuts with
      | none => exact .ask (.some limit ends) stages
      | some t h => exact .ask (.some t h) stages
  | pause cuts wakes cancels =>
      cases cuts with
      | none => exact .pause (.some limit ends) wakes cancels
      | some t h => exact .pause (.some t h) wakes cancels
  | crash => exact .crash

end Turn

namespace Timed

variable {C : Type} {R : C → Type} {S A : Type} {a b : Instant}

/-- The two activities are at one stage, with deadlines that are as long after `a` as after `b`. -/
inductive Alike (a b : Instant) : Timed S → Timed S → Prop
  | running (limit : Nat) (s : S) : Alike a b (.running (a + limit) s) (.running (b + limit) s)
  | expired : Alike a b .expired .expired

theorem alike_start (a b : Instant) (t : Nat) (limit : Duration) (s : S) :
    Alike a b (start (a + t) limit s) (start (b + t) limit s) := by
  rw [start, start, Nat.add_assoc, Nat.add_assoc]
  exact .running _ s

/-- The activity is on its way, at this stage. -/
def stage? : Timed S → Option S
  | running _ stage => some stage
  | expired => none

theorem Alike.turn {inner inner' : S → Turn C R S A} {same : A → A → Prop} {late : A}
    {s s' : Timed S} (stages : Alike a b s s') (lates : same late late)
    (turns : ∀ stage ∈ s.stage?, (inner stage).Alike a b Eq same (inner' stage)) :
    (Timed.turn inner late s).Alike a b (Alike a b) same (Timed.turn inner' late s') := by
  cases stages with
  | running limit s =>
      refine Turn.Alike.cutAt ((turns s rfl).within ?_ fun _ _ => .done) limit .expired
      rintro s _ rfl
      exact .running limit s
  | expired => exact .done lates

end Timed

end Settlement
