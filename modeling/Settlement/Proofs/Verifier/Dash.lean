import Settlement.Proofs.Chain.Dash.Counted
import Settlement.Proofs.Verifier.Checks

/-!
# The course of a Dash verification

A Dash payment is verified by watching the forward that the request names, so the checks of the
verification are the calls of one confirmation. The payment itself gives nothing but its charge.
-/

namespace Settlement

namespace Contact

def ofDash (a : Asked Dash.Query Dash.Query.Reply) : Contact := ⟨.dash a.call, a.reply⟩

def dash? : Contact → Option (Asked Dash.Query Dash.Query.Reply)
  | ⟨.dash query, r⟩ => some ⟨query, r⟩
  | _ => none

end Contact

/-- The calls of the Dash service among what was asked. -/
def dashCalls (asked : List Contact) : List (Asked Dash.Query Dash.Query.Reply) :=
  asked.filterMap Contact.dash?

theorem dashCalls_map (asked : List (Asked Dash.Query Dash.Query.Reply)) :
    dashCalls (asked.map .ofDash) = asked := by
  rw [dashCalls, List.filterMap_map]
  exact List.filterMap_some

theorem mem_dashCalls {asked : List Contact} {query : Dash.Query} {r : query.Reply} :
    ⟨query, r⟩ ∈ dashCalls asked ↔ ⟨.dash query, r⟩ ∈ asked := by
  rw [dashCalls, List.mem_filterMap]
  constructor
  · rintro ⟨a, ha, hquery⟩
    unfold Contact.dash? at hquery
    split at hquery
    next query' r' =>
      cases hquery
      exact ha
    next => simp at hquery
  · intro h
    exact ⟨_, h, rfl⟩

namespace Verifier

variable {c : Dash.Confirmer} {request : Request} {payment : Payment} {checks : List Contact}

theorem leads_dashTurn {forward : String} {now : Instant} {stage : Timed Dash.Stage}
    {asked : List Contact} {s : VerifierStage}
    (h : (dashTurn c payment forward now stage).Leads asked s) :
    ∃ inner stage', (c.timedTurn forward payment.charge now stage).Leads inner stage' ∧
      s = .dash forward stage' ∧ asked = inner.map .ofDash := by
  rcases Turn.leads_within h with ⟨result, -, h⟩ | ⟨inner, stage', step, rfl, rfl⟩
  · exact h.elim
  · exact ⟨inner, stage', step, rfl, rfl⟩

theorem passes_dash {s : VerifierStage} (h : (Verifier.dash c).Passes request payment checks s) :
    ∃ r now inner stage, request = .dash r ∧ s = .dash r.forwardId stage ∧
      checks = inner.map .ofDash ∧
      Course (c.timedTurn r.forwardId payment.charge) (c.start now) inner stage := by
  induction h with
  | opens now step =>
      cases request with
      | ethereum r => exact step.elim
      | bitcoinCash r => exact step.elim
      | dash r =>
          simp only [begin] at step
          split at step
          · exact step.elim
          · obtain ⟨inner, stage, leads, rfl, rfl⟩ := leads_dashTurn step
            refine ⟨r, now, inner, stage, rfl, rfl, rfl, ?_⟩
            rw [← List.append_nil inner]
            exact Course.start.next now leads
  | goes now _ step ih =>
      obtain ⟨r, start, before, stage, rfl, rfl, rfl, course⟩ := ih
      obtain ⟨inner, stage', leads, rfl, rfl⟩ := leads_dashTurn step
      refine ⟨r, start, inner ++ before, stage', rfl, rfl, ?_, course.next now leads⟩
      rw [List.map_append]

theorem ends_of_dashTurn {forward : String} {start now : Instant} {stage : Timed Dash.Stage}
    {inner : List (Asked Dash.Query Dash.Query.Reply)}
    (course : Course (c.timedTurn forward payment.charge) (c.start start) inner stage)
    (ends : dashTurn c payment forward now stage = .done (.ok ())) :
    ∃ total, Ends (c.turn forward payment.charge) (.looking .empty) inner (.ok total) := by
  obtain ⟨result, hdone, hverdict⟩ := Turn.eq_done_of_within ends
  match result, hdone, hverdict with
  | .ok total, hdone, hverdict =>
      rcases ends_timed ⟨stage, now, course, hdone⟩ with hlate | ends
      · simp at hlate
      · exact ⟨total, ends⟩

/-- A Dash payment is verified by a confirmation of the request's forward. -/
theorem ends_of_gives_dash (h : (Verifier.dash c).Gives request payment checks (.ok ())) :
    ∃ r total, request = .dash r ∧
      Ends (c.turn r.forwardId payment.charge) (.looking .empty) (dashCalls checks)
        (.ok total) := by
  cases h with
  | atOnce now ends =>
      cases request with
      | ethereum r => simp [begin] at ends
      | bitcoinCash r => simp [begin] at ends
      | dash r =>
          simp only [begin] at ends
          split at ends
          · simp at ends
          · obtain ⟨total, ends⟩ := ends_of_dashTurn .start ends
            exact ⟨r, total, rfl, ends⟩
  | later now passes ends =>
      obtain ⟨r, start, inner, stage, rfl, rfl, rfl, course⟩ := passes_dash passes
      obtain ⟨total, ends⟩ := ends_of_dashTurn course ends
      rw [dashCalls_map]
      exact ⟨r, total, rfl, ends⟩

end Verifier

end Settlement
