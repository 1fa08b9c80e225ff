import Settlement.Turn

/-!
# The course of an activity

What an activity does depends on the replies it gets and on when its waits end. `Turn.Leads` leaves
both open: a call may be replied to in any way, and any wait may end by itself, be cut short or, for
a pause, be cancelled. `Course` strings such turns together, with what was asked on the way, latest
first; `Ends` says that the activity may come to a result that way.

A part of an activity has a course of its own: a turn of the whole is a turn of the part until the
part is done (`leads_within`), and an activity under a deadline takes the course that it takes
without one until its time is over (`course_timed`).
-/

namespace Settlement

/-- A call with the reply to it. -/
structure Asked (C : Type) (R : C → Type) where
  call : C
  reply : R call

namespace Turn

variable {C D : Type} {R : C → Type} {Q : D → Type} {S S' A B : Type}

/-- The turn may lead to the stage `next`, and asks `asked` on the way. -/
def Leads : Turn C R S A → List (Asked C R) → S → Prop
  | done _, _, _ => False
  | ask call cut resume, asked, next =>
    ∃ r : R call, asked = [⟨call, r⟩] ∧ (next = resume r ∨ ∃ k, cut = some k ∧ next = k.resume)
  | pause _ cut woken cancelled, asked, next =>
    asked = [] ∧ (next = woken ∨ next = cancelled ∨ ∃ k, cut = some k ∧ next = k.resume)
  | crash, _, _ => False

theorem leads_ask {call : C} {resume : R call → S} {asked : List (Asked C R)} {next : S} :
    (ask call none resume : Turn C R S A).Leads asked next ↔
      ∃ r, asked = [⟨call, r⟩] ∧ next = resume r := by
  simp [Leads]

theorem leads_pause {length : Duration} {woken cancelled : S} {asked : List (Asked C R)}
    {next : S} :
    (pause length none woken cancelled : Turn C R S A).Leads asked next ↔
      asked = [] ∧ (next = woken ∨ next = cancelled) := by
  simp [Leads]

/-- What the turn asks for, if it asks, fulfils `P`. -/
def Asks (P : C → Prop) : Turn C R S A → Prop
  | ask call _ _ => P call
  | _ => True

theorem Asks.imp {P P' : C → Prop} {t : Turn C R S A} (h : t.Asks P)
    (imp : ∀ call, P call → P' call) : t.Asks P' := by
  cases t with
  | ask call cut resume => exact imp call h
  | _ => trivial

theorem asked_of_leads {P : C → Prop} {t : Turn C R S A} {asked : List (Asked C R)} {next : S}
    (h : t.Leads asked next) (asks : t.Asks P) : ∀ a ∈ asked, P a.call := by
  cases t with
  | done a => exact h.elim
  | ask call cut resume =>
      obtain ⟨r, rfl, -⟩ := h
      intro a ha
      rw [List.mem_singleton.1 ha]
      exact asks
  | pause length cut woken cancelled =>
      obtain ⟨rfl, -⟩ := h
      simp
  | crash => exact h.elim

theorem asks_of_all {P : C → Prop} (t : Turn C R S A) (h : ∀ c, P c) : t.Asks P := by
  cases t with
  | ask call cut resume => exact h call
  | done a => trivial
  | pause length cut woken cancelled => trivial
  | crash => trivial

/-- The whole asks for what its part asks for, and for what it asks for when that is done. -/
theorem asks_within {P : D → Prop} {call : C → D} {reply : ∀ c, Q (call c) → R c}
    {stage : S → S'} {next : A → Turn D Q S' B} {t : Turn C R S A}
    (h : t.Asks fun c => P (call c)) (hnext : ∀ a, (next a).Asks P) :
    (t.within call reply stage next).Asks P := by
  cases t with
  | done a => exact hnext a
  | ask c cut resume => exact h
  | pause length cut woken cancelled => trivial
  | crash => trivial

theorem asks_cutAt {P : C → Prop} {instant : Instant} {late : S} {t : Turn C R S A}
    (h : t.Asks P) : (t.cutAt instant late).Asks P := by
  cases t with
  | done a => trivial
  | ask call cut resume =>
      cases cut with
      | some k => exact h
      | none => exact h
  | pause length cut woken cancelled => cases cut <;> trivial
  | crash => trivial

/-- The turn of a part leads where the part goes, with the part's calls as calls of the whole; when
the part is done, it leads where the whole goes on. -/
theorem leads_within {call : C → D} {stage : S → S'}
    {next : A → Turn D Q S' B} {t : Turn C (fun c => Q (call c)) S A}
    {asked : List (Asked D Q)} {s' : S'}
    (h : (t.within call (fun _ r => r) stage next).Leads asked s') :
    (∃ a, t = done a ∧ (next a).Leads asked s') ∨
      ∃ inner s, t.Leads inner s ∧ s' = stage s ∧
        asked = inner.map fun a => ⟨call a.call, a.reply⟩ := by
  cases t with
  | done a => exact Or.inl ⟨a, rfl, h⟩
  | ask c cut resume =>
      obtain ⟨r, rfl, hs⟩ := h
      rcases hs with rfl | ⟨k, hk, rfl⟩
      · exact Or.inr ⟨[⟨c, r⟩], resume r, ⟨r, rfl, Or.inl rfl⟩, rfl, rfl⟩
      · obtain ⟨k, rfl, rfl⟩ := Option.map_eq_some_iff.1 hk
        exact Or.inr ⟨[⟨c, r⟩], k.resume, ⟨r, rfl, Or.inr ⟨k, rfl, rfl⟩⟩, rfl, rfl⟩
  | pause length cut woken cancelled =>
      obtain ⟨rfl, hs⟩ := h
      rcases hs with rfl | rfl | ⟨k, hk, rfl⟩
      · exact Or.inr ⟨[], woken, ⟨rfl, Or.inl rfl⟩, rfl, rfl⟩
      · exact Or.inr ⟨[], cancelled, ⟨rfl, Or.inr (Or.inl rfl)⟩, rfl, rfl⟩
      · obtain ⟨k, rfl, rfl⟩ := Option.map_eq_some_iff.1 hk
        exact Or.inr ⟨[], k.resume, ⟨rfl, Or.inr (Or.inr ⟨k, rfl, rfl⟩)⟩, rfl, rfl⟩
  | crash => exact h.elim

theorem leads_andThen {stage : S → S'} {next : A → Turn C R S' B} {t : Turn C R S A}
    {asked : List (Asked C R)} {s' : S'} (h : (t.andThen stage next).Leads asked s') :
    (∃ a, t = done a ∧ (next a).Leads asked s') ∨ ∃ s, t.Leads asked s ∧ s' = stage s := by
  rcases leads_within h with ⟨a, ha, hn⟩ | ⟨inner, s, hs, rfl, rfl⟩
  · exact Or.inl ⟨a, ha, hn⟩
  · exact Or.inr ⟨s, by simpa using hs, rfl⟩

/-- Cut short or not, a turn asks the same, and leads to where it is cut to or where it led. -/
theorem leads_cutAt {instant : Instant} {late : S} {t : Turn C R S A} {asked : List (Asked C R)}
    {next : S} (h : (t.cutAt instant late).Leads asked next) :
    next = late ∨ t.Leads asked next := by
  cases t with
  | done a => exact h.elim
  | ask call cut resume =>
      cases cut with
      | some k => exact Or.inr h
      | none =>
          obtain ⟨r, rfl, rfl | ⟨k, hk, rfl⟩⟩ := h
          · exact Or.inr ⟨r, rfl, Or.inl rfl⟩
          · exact Or.inl (Option.some.inj hk ▸ rfl)
  | pause length cut woken cancelled =>
      cases cut with
      | some k => exact Or.inr h
      | none =>
          obtain ⟨rfl, rfl | rfl | ⟨k, hk, rfl⟩⟩ := h
          · exact Or.inr ⟨rfl, Or.inl rfl⟩
          · exact Or.inr ⟨rfl, Or.inr (Or.inl rfl)⟩
          · exact Or.inl (Option.some.inj hk ▸ rfl)
  | crash => exact h.elim

theorem eq_done_of_cutAt {instant : Instant} {late : S} {t : Turn C R S A} {a : A}
    (h : t.cutAt instant late = done a) : t = done a := by
  cases t with
  | done b => exact h
  | ask call cut resume => cases cut <;> simp [cutAt] at h
  | pause length cut woken cancelled => cases cut <;> simp [cutAt] at h
  | crash => simp [cutAt] at h

theorem eq_done_of_within {call : C → D} {reply : ∀ c, Q (call c) → R c} {stage : S → S'}
    {next : A → Turn D Q S' B} {t : Turn C R S A} {b : B}
    (h : t.within call reply stage next = done b) : ∃ a, t = done a ∧ next a = done b := by
  cases t with
  | done a => exact ⟨a, rfl, h⟩
  | ask call cut resume => simp [within] at h
  | pause length cut woken cancelled => simp [within] at h
  | crash => simp [within] at h

theorem eq_done_of_andThen {stage : S → S'} {next : A → Turn C R S' B} {t : Turn C R S A} {b : B}
    (h : t.andThen stage next = done b) : ∃ a, t = done a ∧ next a = done b :=
  eq_done_of_within h

end Turn

variable {C : Type} {R : C → Type} {S A : Type}

/-- The activity may have come from the stage `first` to a stage, having asked what is listed,
latest first. -/
inductive Course (turn : Instant → S → Turn C R S A) (first : S) : List (Asked C R) → S → Prop
  | start : Course turn first [] first
  | next {before asked : List (Asked C R)} {stage stage' : S} (now : Instant) :
      Course turn first before stage → (turn now stage).Leads asked stage' →
        Course turn first (asked ++ before) stage'

/-- An activity whose turns all ask for what fulfils `P` has asked for nothing else. -/
theorem asked_of_course {P : C → Prop} {turn : Instant → S → Turn C R S A} {first stage : S}
    {asked : List (Asked C R)} (h : Course turn first asked stage)
    (asks : ∀ now s, (turn now s).Asks P) : ∀ a ∈ asked, P a.call := by
  induction h with
  | start => simp
  | next now _ step ih =>
      intro a ha
      rcases List.mem_append.1 ha with ha | ha
      · exact Turn.asked_of_leads step (asks now _) a ha
      · exact ih a ha

/-- The activity may have come from the stage `first` to its end with a result. -/
def Ends (turn : Instant → S → Turn C R S A) (first : S) (asked : List (Asked C R)) (a : A) :
    Prop :=
  ∃ stage now, Course turn first asked stage ∧ turn now stage = .done a

theorem asks_timed {P : C → Prop} {inner : S → Turn C R S A} {late : A}
    (h : ∀ s, (inner s).Asks P) (s : Timed S) : (Timed.turn inner late s).Asks P := by
  cases s with
  | running deadline s => exact Turn.asks_cutAt (Turn.asks_within (h s) fun _ => trivial)
  | expired => trivial

/-- Under a deadline an activity takes the course that it takes without one, or is over time. -/
theorem course_timed {inner : Instant → S → Turn C R S A} {late : A} {deadline : Instant}
    {first : S} {asked : List (Asked C R)} {stage : Timed S}
    (h : Course (fun now => Timed.turn (inner now) late) (.running deadline first) asked stage) :
    stage = .expired ∨ ∃ s, stage = .running deadline s ∧ Course inner first asked s := by
  induction h with
  | start => exact Or.inr ⟨first, rfl, .start⟩
  | next now _ step ih =>
      rcases ih with rfl | ⟨s, rfl, hs⟩
      · exact step.elim
      · rcases Turn.leads_cutAt step with rfl | step
        · exact Or.inl rfl
        · rcases Turn.leads_andThen step with ⟨a, -, hdone⟩ | ⟨s', hs', rfl⟩
          · exact hdone.elim
          · exact Or.inr ⟨s', rfl, hs.next now hs'⟩

theorem ends_timed {inner : Instant → S → Turn C R S A} {late : A} {deadline : Instant}
    {first : S} {asked : List (Asked C R)} {a : A}
    (h : Ends (fun now => Timed.turn (inner now) late) (.running deadline first) asked a) :
    a = late ∨ Ends inner first asked a := by
  obtain ⟨stage, now, course, hdone⟩ := h
  rcases course_timed course with rfl | ⟨s, rfl, hs⟩
  · exact Or.inl (Turn.done.inj hdone).symm
  · obtain ⟨b, hb, hba⟩ := Turn.eq_done_of_andThen (Turn.eq_done_of_cutAt hdone)
    exact Or.inr ⟨s, now, hs, Turn.done.inj hba ▸ hb⟩

end Settlement
