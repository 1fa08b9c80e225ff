import Settlement.Proofs.Chain.Scripts
import Settlement.Proofs.Deadline

/-!
# How many calls an Ethereum confirmation makes at once

While no time passes, the confirmation asks for heads one after the other as long as they differ. So
it uses up the script, and when that repeats its last answer, there are at most two more heads to
ask for (`headsAhead`). All the other calls are made once between two pauses.
-/

namespace Settlement.Ethereum

open Rehearsal (Ended Script)

/-- A timeout that is held at a stage is one of a script. -/
def Stage.Told (node : Rehearsal.Node) : Stage → Prop
  | looked r => Rehearsal.Told node r
  | placed r => Rehearsal.Told node r
  | counted _ _ r => Rehearsal.Told node r
  | buried r => Rehearsal.Told node r
  | settled _ r => Rehearsal.Told node r
  | _ => True

/-- How many heads may be asked for before two in a row are the same. The last one on the script is
repeated, so then there are at most two: the answer may differ from it, and from the one before. -/
def headsAhead (heights : Script Nat) (last : Option Nat)
    (r : Except ConfirmationError Nat) : Nat :=
  3 * (heights.getD []).length + (if r = (heights.next "").1.outcome then 0 else 1) +
    (if r.toOption = last then 0 else 1)

/-- The calls that may still be made while no time passes. -/
def rank (node : Rehearsal.Node) : Stage → Nat
  | .looking => 8 + 3 * (node.heights.getD []).length
  | .looked _ => 7 + 3 * (node.heights.getD []).length
  | .placed _ => 6 + 3 * (node.heights.getD []).length
  | .counting _ _ => 6 + 3 * (node.heights.getD []).length
  | .counted _ last r => 3 + headsAhead node.heights last r
  | .buried _ => 2
  | .settled _ _ => 1
  | .interrupted => 0

theorem headsAhead_le (heights : Script Nat) (last : Option Nat)
    (r : Except ConfirmationError Nat) :
    headsAhead heights last r ≤ 3 * (heights.getD []).length + 2 := by
  unfold headsAhead
  split <;> split <;> omega

theorem headsAhead_next_le (heights : Script Nat) (last : Option Nat) :
    headsAhead heights last (heights.next "").1.outcome ≤ 3 * (heights.getD []).length + 1 := by
  unfold headsAhead
  rw [if_pos rfl]
  split <;> omega

theorem length_next_le (heights : Script Nat) :
    ((heights.next "").2.getD []).length ≤ (heights.getD []).length := by
  match heights with
  | none => exact Nat.le_refl _
  | some [] => exact Nat.le_refl _
  | some [item] => exact Nat.le_refl _
  | some (item :: second :: rest) => exact Nat.le_succ _

/-- Another head is asked for only when the last one differs from the one before. -/
theorem headsAhead_lt (heights : Script Nat) {last : Option Nat} {head : Nat}
    (h : last ≠ some head) :
    headsAhead (heights.next "").2 (some head) (heights.next "").1.outcome <
      headsAhead heights last (.ok head) := by
  have hlast : headsAhead heights last (.ok head) = 3 * (heights.getD []).length +
      (if .ok head = (heights.next "").1.outcome then 0 else 1) + 1 :=
    congrArg _ (if_neg (Ne.symm h))
  rw [hlast]
  match heights with
  | none => simp [headsAhead, Script.next, Except.toOption]
  | some [] => simp [headsAhead, Script.next, Except.toOption]
  | some [item] =>
      by_cases hitem : Except.ok head = item.outcome
      · simp [headsAhead, Script.next, ← hitem, Except.toOption]
      · rw [Script.next_singleton, if_neg hitem]
        exact Nat.lt_succ_of_le (headsAhead_next_le (some [item]) (some head))
  | some (item :: second :: rest) =>
      have hle := headsAhead_le (some (second :: rest)) (some head) item.outcome
      simp only [Script.next, Option.getD_some, List.length_cons] at hle ⊢
      omega

variable {node later : Rehearsal.Node}

theorem Confirmer.descends_turn (c : Confirmer) (hash : Hash) (expected : Expectation)
    (poll : 0 < c.policy.pollInterval.nanos) (hlater : node.Later later) (stage : Stage)
    (told : stage.Told node) : (c.turn hash expected stage).Descends
      (fun _ query node => node.ethereum query)
      (fun world stage => node.Later world ∧ stage.Told node) (Ended node False) rank later
      (rank later stage) := by
  have htransaction := (later.answers_ethereumTransaction hash).later hlater
  have hreceipt := (later.answers_receipt hash).later hlater
  have hheight := later.answers_height.later hlater
  have hcounted : ∀ block last, (askHead block last).Descends
      (fun _ query node => node.ethereum query)
      (fun world stage => node.Later world ∧ stage.Told node) (Ended node False) rank later
      (6 + 3 * (later.heights.getD []).length) := by
    intro block last
    have hle := headsAhead_le (later.heights.next "").2 last (later.heights.next "").1.outcome
    have hlength := length_next_le later.heights
    refine ⟨rfl, fun now => ⟨hheight, Nat.lt_of_le_of_lt (Nat.add_le_add_left hle 3) ?_⟩⟩
    omega
  cases stage with
  | looking => exact ⟨rfl, fun now => ⟨htransaction, Nat.add_lt_add_right (by decide) _⟩⟩
  | looked r =>
      rcases r with e | _ | tx
      · exact told.error
      · exact nofun
      · simp only [turn]
        split
        · exact ⟨rfl, fun now => ⟨hreceipt, Nat.add_lt_add_right (by decide) _⟩⟩
        · exact ⟨rfl, poll, ⟨hlater, trivial⟩, ⟨hlater, trivial⟩,
            Nat.lt_add_right _ (Nat.succ_pos 6)⟩
  | placed r =>
      rcases r with e | _ | receipt
      · exact told.error
      · exact nofun
      · simp only [turn]
        split
        · exact nofun
        · exact hcounted _ _
  | counting block last => exact hcounted _ _
  | counted block last r =>
      cases r with
      | error e => exact told.error
      | ok head =>
          simp only [turn]
          split
          · exact ⟨rfl, fun now => ⟨hreceipt, Nat.lt_add_right _ (Nat.lt_succ_self 2)⟩⟩
          · split
            · exact ⟨rfl, poll, ⟨hlater, trivial⟩, ⟨hlater, trivial⟩,
                Nat.lt_add_right _ (Nat.succ_pos 2)⟩
            next moved =>
              exact ⟨rfl, fun now => ⟨hheight,
                Nat.add_lt_add_left (headsAhead_lt later.heights moved) 3⟩⟩
  | buried r =>
      rcases r with e | _ | receipt
      · exact told.error
      · exact nofun
      · exact ⟨rfl, fun now => ⟨htransaction, Nat.lt_succ_self _⟩⟩
  | settled receipt r =>
      rcases r with e | _ | tx
      · exact told.error
      · exact nofun
      · simp only [turn]
        split <;> exact nofun
  | interrupted => exact nofun

end Settlement.Ethereum
