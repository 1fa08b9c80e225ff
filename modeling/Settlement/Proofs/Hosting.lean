import Settlement.Proofs.Solo

/-!
# An activity within another

While a part of an activity is under way, the whole goes on as the part does, in the same time and
with the same calls (`Machine.Hosts`). A whole that ends has seen its part end before
(`Hosts.ends`).
-/

namespace Settlement

section

variable {C D : Type} {Q : D → Type} {W S S' A B : Type} {call : C → D}

/-- The call of a part as one of the whole. -/
def Entry.within (call : C → D) (entry : Entry C fun c => Q (call c)) : Entry D Q :=
  ⟨entry.instant, entry.worker, call entry.call, entry.reply⟩

namespace Machine

variable {part : Machine C (fun c => Q (call c)) W S A} {whole : Machine D Q W S' B}
  {stage : S → S'} {next : A → Turn D Q S' B} {before : List (Entry D Q)}
  {x y : Point C (fun c => Q (call c)) W S} {z : Point D Q W S'} {cancelAt : Option Instant}

/-- The whole is where its part is, and about to take the part's turn. -/
structure Hosts (call : C → D) (part : Machine C (fun c => Q (call c)) W S A)
    (whole : Machine D Q W S' B) (stage : S → S') (next : A → Turn D Q S' B)
    (before : List (Entry D Q)) (x : Point C (fun c => Q (call c)) W S) (z : Point D Q W S') :
    Prop where
  instant : z.instant = x.instant
  world : z.world = x.world
  turn : whole.turn z.instant z.stage =
    (part.turn x.instant x.stage).within call (fun _ r => r) stage next
  log : z.log = x.log.map (Entry.within call) ++ before

/-- While the part is not over, the whole goes on as it does. -/
theorem Hosts.step (answer : ∀ now c w, whole.answer now (call c) w = part.answer now c w)
    (turn : ∀ now s, whole.turn now (stage s) =
      (part.turn now s).within call (fun _ r => r) stage next)
    (hosts : Hosts call part whole stage next before x z) (step : part.after? cancelAt x = some y) :
    ∃ z', whole.after? cancelAt z = some z' ∧ Hosts call part whole stage next before y z' := by
  obtain ⟨hinstant, hworld, hturn, hlog⟩ := hosts
  cases hpart : part.turn x.instant x.stage with
  | done a => simp [after?, hpart] at step
  | crash => simp [after?, hpart] at step
  | ask c cut resume =>
      rw [after?_ask hpart, Option.some.injEq] at step
      subst step
      rw [hpart] at hturn
      refine ⟨_, after?_ask hturn, ?_⟩
      rw [hinstant, hworld, answer]
      dsimp only
      rw [endOfWait_map]
      exact ⟨rfl, rfl, turn _ _, congrArg (List.cons _) hlog⟩
  | pause length cut woken cancelled =>
      rw [after?_pause hpart, Option.some.injEq] at step
      subst step
      rw [hpart] at hturn
      refine ⟨_, after?_pause hturn, ?_⟩
      rw [hinstant, endOfPause_map]
      exact ⟨rfl, hworld, turn _ _, hlog⟩

theorem Hosts.comes (answer : ∀ now c w, whole.answer now (call c) w = part.answer now c w)
    (turn : ∀ now s, whole.turn now (stage s) =
      (part.turn now s).within call (fun _ r => r) stage next)
    (hosts : Hosts call part whole stage next before x z) (comes : part.Comes cancelAt x y) :
    ∃ z', whole.Comes cancelAt z z' ∧ Hosts call part whole stage next before y z' := by
  induction comes with
  | refl => exact ⟨z, .refl, hosts⟩
  | tail _ step ih =>
      obtain ⟨z', comes', hosts'⟩ := ih
      obtain ⟨z'', step', hosts''⟩ := hosts'.step answer turn step
      exact ⟨z'', comes'.tail step', hosts''⟩

/-- When the part is over, the whole does what follows it. -/
theorem Hosts.over {a : A} (hosts : Hosts call part whole stage next before x z)
    (stops : part.StopsAt x (some a)) : whole.turn z.instant z.stage = next a := by
  rw [hosts.turn, Turn.eq_done_of_stops stops]
  rfl

/-- Where the whole has come to, its part is still under way, or has come to its end before. -/
theorem Hosts.reaches (answer : ∀ now c w, whole.answer now (call c) w = part.answer now c w)
    (turn : ∀ now s, whole.turn now (stage s) =
      (part.turn now s).within call (fun _ r => r) stage next)
    (hosts : Hosts call part whole stage next before x z) {z' : Point D Q W S'}
    (comes : whole.Comes cancelAt z z') :
    (∃ y, part.Comes cancelAt x y ∧ Hosts call part whole stage next before y z') ∨
      ∃ y result z₁, part.Comes cancelAt x y ∧ part.StopsAt y result ∧
        Hosts call part whole stage next before y z₁ ∧ whole.Comes cancelAt z₁ z' := by
  induction comes with
  | refl => exact Or.inl ⟨x, .refl, hosts⟩
  | @tail z₂ z' _ step ih =>
      rcases ih with ⟨y, comes, hosts'⟩ | ⟨y, result, z₁, comes, ended, hosts', rest⟩
      · rcases part.after_or_stops cancelAt y with ⟨y', step'⟩ | ⟨result, ended⟩
        · -- The part goes on, and the turn that the whole has taken is this one.
          obtain ⟨z₃, goes, hosts''⟩ := hosts'.step answer turn step'
          obtain rfl := Option.some.inj (step.symm.trans goes)
          exact Or.inl ⟨y', comes.tail step', hosts''⟩
        · exact Or.inr ⟨y, result, z₂, comes, ended, hosts', .single step⟩
      · exact Or.inr ⟨y, result, z₁, comes, ended, hosts', rest.tail step⟩

/-- What ends has passed the end of its part. -/
theorem Hosts.ends (answer : ∀ now c w, whole.answer now (call c) w = part.answer now c w)
    (turn : ∀ now s, whole.turn now (stage s) =
      (part.turn now s).within call (fun _ r => r) stage next)
    (hosts : Hosts call part whole stage next before x z) {z' : Point D Q W S'} {result : Option B}
    (comes : whole.Comes cancelAt z z') (stops : whole.StopsAt z' result) :
    ∃ y result' z₁, part.Comes cancelAt x y ∧ part.StopsAt y result' ∧
      Hosts call part whole stage next before y z₁ ∧ whole.Comes cancelAt z₁ z' := by
  rcases hosts.reaches answer turn comes with ⟨y, comes', hosts'⟩ | passed
  · rcases part.after_or_stops cancelAt y with ⟨y', step⟩ | ⟨result', ended⟩
    · obtain ⟨z₁, step', -⟩ := hosts'.step answer turn step
      rw [after?_of_stops stops] at step'
      cases step'
    · exact ⟨y, result', z', comes', ended, hosts', .refl⟩
  · exact passed

end Machine

theorem Turn.andThen_within {S'' E : Type} {R : C → Type} {reply : ∀ c, Q (call c) → R c}
    {stage : S → S'} {next : A → Turn D Q S' B} {stage' : S' → S''} {next' : B → Turn D Q S'' E}
    (t : Turn C R S A) : (t.within call reply stage next).andThen stage' next' =
      t.within call reply (fun s => stage' (stage s)) fun a => (next a).andThen stage' next' := by
  cases t with
  | done a => rfl
  | crash => rfl
  | ask c cut resume => cases cut <;> rfl
  | pause length cut woken cancelled => cases cut <;> rfl

theorem Turn.andThen_andThen {S'' E : Type} {R : C → Type} {stage : S → S'}
    {next : A → Turn C R S' B} {stage' : S' → S''} {next' : B → Turn C R S'' E}
    (t : Turn C R S A) : (t.andThen stage next).andThen stage' next' =
      t.andThen (fun s => stage' (stage s)) fun a => (next a).andThen stage' next' :=
  Turn.andThen_within t

/-- A part that is cut short with the whole is a part under that deadline. -/
theorem Turn.cutAt_within {R : C → Type} {reply : ∀ c, Q (call c) → R c} {stage : S → S'}
    {next : A → Turn D Q S' B} {instant : Instant} {late : S} (t : Turn C R S A) :
    (t.within call reply stage next).cutAt instant (stage late) =
      (t.cutAt instant late).within call reply stage
        fun a => (next a).cutAt instant (stage late) := by
  cases t with
  | done a => rfl
  | crash => rfl
  | ask c cut resume => cases cut <;> rfl
  | pause length cut woken cancelled => cases cut <;> rfl

end

end Settlement
