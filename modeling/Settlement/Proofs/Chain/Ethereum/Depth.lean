import Settlement.Proofs.Interleaving
import Settlement.Rehearsal.Node

/-!
# How deep a confirmed transaction is

The depth of a transaction is measured from the block of the first receipt. The receipt that is
checked and returned is read after that, and its block is not looked at again. `Counted` says what
has been read at each stage: the heads are all short of the depth but the last one. So a transaction
that stays in its block is as deep as required when its receipt is returned, and one that is moved
by a reorganisation need not be (`depth_of_ok`).
-/

namespace Settlement.Ethereum

def headIn : Asked Query Query.Reply → Option Nat
  | ⟨.head, (.ok head : Except ConfirmationError Nat)⟩ => some head
  | _ => none

def receiptIn : Asked Query Query.Reply → Option Receipt
  | ⟨.receipt _, (.ok (some receipt) : Except ConfirmationError (Option Receipt))⟩ => some receipt
  | _ => none

/-- The heads that were read, latest first. -/
def heads (asked : List (Asked Query Query.Reply)) : List Nat := asked.filterMap headIn

/-- The receipts that were read, latest first. -/
def receipts (asked : List (Asked Query Query.Reply)) : List Receipt := asked.filterMap receiptIn

namespace Confirmer

variable {c : Confirmer} {hash : Hash} {expected : Expectation}
  {asked before : List (Asked Query Query.Reply)} {stage stage' : Stage}

/-- The heads do not bury the block as deep as required. -/
def Short (c : Confirmer) (block : Nat) (heads : List Nat) : Prop :=
  ∀ head ∈ heads, head - block < c.policy.required

/-- The block of the only receipt was buried by the last head, and by none before it. -/
def Buried (c : Confirmer) (asked : List (Asked Query Query.Reply)) (block : Nat) : Prop :=
  (∃ first, first.block = some block ∧ receipts asked = [first]) ∧
    ∃ head rest, heads asked = head :: rest ∧ c.policy.required ≤ head - block ∧ Short c block rest

/-- What has been read up to a stage. -/
def Counted (c : Confirmer) (asked : List (Asked Query Query.Reply)) : Stage → Prop
  | .looking => heads asked = [] ∧ receipts asked = []
  | .looked _ => heads asked = [] ∧ receipts asked = []
  | .placed r => heads asked = [] ∧ ∀ first, r = .ok (some first) → receipts asked = [first]
  | .counting block _ =>
    (∃ first, first.block = some block ∧ receipts asked = [first]) ∧ Short c block (heads asked)
  | .counted block _ r =>
    (∃ first, first.block = some block ∧ receipts asked = [first]) ∧
      ∃ rest, Short c block rest ∧ ∀ head, r = .ok head → heads asked = head :: rest
  | .buried r => ∃ block before, Buried c before block ∧ heads asked = heads before ∧
      ∀ receipt, r = .ok (some receipt) → receipts asked = receipt :: receipts before
  | .settled receipt _ => ∃ block before, Buried c before block ∧ heads asked = heads before ∧
      receipts asked = receipt :: receipts before
  | .interrupted => True

theorem counted_step (counted : Counted c before stage)
    (h : (c.turn hash expected stage).Leads asked stage') : Counted c (asked ++ before) stage' := by
  cases stage with
  | looking =>
      obtain ⟨r, rfl, rfl⟩ := Turn.leads_ask.1 h
      exact counted
  | looked r =>
      match r, h with
      | .ok (some tx), h =>
          simp only [turn] at h
          split at h
          · obtain ⟨r, rfl, rfl⟩ := Turn.leads_ask.1 h
            obtain ⟨hheads, hreceipts⟩ := counted
            refine ⟨hheads, ?_⟩
            rintro first rfl
            change first :: receipts before = [first]
            rw [hreceipts]
          · obtain ⟨rfl, rfl | rfl⟩ := Turn.leads_pause.1 h
            · exact counted
            · trivial
  | placed r =>
      match r, h with
      | .ok (some first), h =>
          simp only [turn] at h
          split at h
          · exact h.elim
          next block hblock =>
            obtain ⟨r, rfl, rfl⟩ := Turn.leads_ask.1 h
            obtain ⟨hheads, hreceipts⟩ := counted
            refine ⟨⟨first, hblock, hreceipts first rfl⟩, [], by simp [Short], ?_⟩
            rintro head rfl
            change head :: heads before = [head]
            rw [hheads]
  | counting block last =>
      obtain ⟨r, rfl, rfl⟩ := Turn.leads_ask.1 h
      obtain ⟨hfirst, short⟩ := counted
      refine ⟨hfirst, heads before, short, ?_⟩
      rintro head rfl
      rfl
  | counted block last r =>
      match r, h with
      | .ok head, h =>
          obtain ⟨hfirst, rest, short, hheads⟩ := counted
          have hheads := hheads head rfl
          simp only [turn] at h
          split at h
          next deep =>
            obtain ⟨r, rfl, rfl⟩ := Turn.leads_ask.1 h
            refine ⟨block, before, ⟨hfirst, head, rest, hheads, deep, short⟩, rfl, ?_⟩
            rintro receipt rfl
            rfl
          next shallow =>
            -- the head joins the ones that are too low, whether the next look is at once or later
            have short : Short c block (heads before) := by
              rw [hheads]
              exact List.forall_mem_cons.2 ⟨Nat.lt_of_not_le shallow, short⟩
            split at h
            · obtain ⟨rfl, rfl | rfl⟩ := Turn.leads_pause.1 h
              · exact ⟨hfirst, short⟩
              · trivial
            · obtain ⟨r, rfl, rfl⟩ := Turn.leads_ask.1 h
              refine ⟨hfirst, heads before, short, ?_⟩
              rintro head rfl
              rfl
  | buried r =>
      match r, h with
      | .ok (some receipt), h =>
          obtain ⟨r, rfl, rfl⟩ := Turn.leads_ask.1 h
          obtain ⟨block, first, buried, hheads, hreceipts⟩ := counted
          exact ⟨block, first, buried, hheads, hreceipts receipt rfl⟩
  | settled receipt r =>
      match r, h with
      | .ok (some tx), h =>
          simp only [turn] at h
          split at h <;> exact h.elim
  | interrupted => exact h.elim

theorem counted_of_course (h : Course (fun _ => c.turn hash expected) .looking asked stage) :
    Counted c asked stage := by
  induction h with
  | start => exact ⟨rfl, rfl⟩
  | next now _ step ih => exact counted_step ih step

/-- A receipt is only returned after the checks. -/
theorem checked_of_done {receipt : Receipt}
    (done : c.turn hash expected stage = .done (.ok receipt)) :
    ∃ tx, stage = .settled receipt (.ok (some tx)) ∧
      validate c.contracts expected tx receipt = .ok () := by
  cases stage with
  | settled receipt' r =>
      match r, done with
      | .ok (some tx), done =>
          simp only [turn] at done
          split at done
          next hvalid =>
            obtain rfl : receipt' = receipt := by simpa using done
            exact ⟨tx, rfl, hvalid⟩
          next => simp at done
  | looking => simp [turn, askTransaction] at done
  | looked r =>
      rcases r with e | _ | tx
      · simp [turn] at done
      · simp [turn] at done
      · simp only [turn] at done
        split at done <;> simp [askReceipt, poll] at done
  | placed r =>
      rcases r with e | _ | first
      · simp [turn] at done
      · simp [turn] at done
      · simp only [turn] at done
        split at done <;> simp [askHead] at done
  | counting block last => simp [turn, askHead] at done
  | counted block last r =>
      rcases r with e | head
      · simp [turn] at done
      · simp only [turn] at done
        split at done
        · simp [askReceipt] at done
        · split at done <;> simp [poll, askHead] at done
  | buried r => rcases r with e | _ | first <;> simp [turn, askTransaction] at done
  | interrupted => simp [turn] at done

theorem counted_of_ends {receipt : Receipt}
    (h : Ends (fun _ => c.turn hash expected) .looking asked (.ok receipt)) :
    ∃ block before, Buried c before block ∧ heads asked = heads before ∧
      receipts asked = receipt :: receipts before := by
  obtain ⟨stage, now, course, done⟩ := h
  obtain ⟨tx, rfl, -⟩ := checked_of_done done
  exact counted_of_course course

/-- The system is a run of one confirmation, with a node that may answer anything. -/
def Runs {W : Type} (c : Confirmer) (hash : Hash) (expected : Expectation)
    (sys : System Query Query.Reply W (Timed Stage) (Except ConfirmationError Receipt)) : Prop :=
  ∃ answer world cancelAt fuel,
    sys = System.run ⟨fun _ => c.timedTurn hash expected, answer⟩ fuel
      ⟨0, world, [.begin (c.start 0) cancelAt], 0, []⟩

theorem ends_of_runs {W : Type} {receipt : Receipt}
    {sys : System Query Query.Reply W (Timed Stage) (Except ConfirmationError Receipt)}
    (runs : Runs c hash expected sys) (ok : sys.result? 0 = some (.ok receipt)) :
    Ends (fun _ => c.turn hash expected) .looking (sys.askedBy 0) (.ok receipt) := by
  obtain ⟨answer, world, cancelAt, fuel, rfl⟩ := runs
  have ends := System.ends_of_alone ok
  rcases ends_timed ends with hlate | ends
  · simp at hlate
  · exact ends

/-- The first receipt's block is buried as deep as required by the last head, and by none before.
The receipt that is returned is as deep exactly if that head buries its own block, which it does
where both receipts name one block. -/
theorem depth_of_ok {W : Type} {receipt : Receipt}
    {sys : System Query Query.Reply W (Timed Stage) (Except ConfirmationError Receipt)}
    (runs : Runs c hash expected sys) (ok : sys.result? 0 = some (.ok receipt)) :
    ∃ first block head earlier,
      receipts (sys.askedBy 0) = [receipt, first] ∧ first.block = some block ∧
      heads (sys.askedBy 0) = head :: earlier ∧ c.policy.required ≤ head - block ∧
      (∀ h ∈ earlier, h - block < c.policy.required) ∧
      ((∃ b, receipt.block = some b ∧
          ∃ h ∈ heads (sys.askedBy 0), b + c.policy.required ≤ h) ↔
        ∃ b, receipt.block = some b ∧ b + c.policy.required ≤ head) ∧
      (receipt.block = first.block → 0 < c.policy.required ∨ block ≤ head →
        ∃ b, receipt.block = some b ∧ ∃ h ∈ heads (sys.askedBy 0), b + c.policy.required ≤ h) := by
  obtain ⟨block, before, ⟨⟨first, hblock, hfirst⟩, head, earlier, hheads, deep, short⟩, hsame,
    hreceipts⟩ := counted_of_ends (ends_of_runs runs ok)
  rw [hsame, hheads]
  refine ⟨first, block, head, earlier, by rw [hreceipts, hfirst], hblock, rfl, deep, short, ?_, ?_⟩
  · constructor
    · rintro ⟨b, hb, h, hh, hdeep⟩
      refine ⟨b, hb, ?_⟩
      rcases List.mem_cons.1 hh with rfl | hh
      · exact hdeep
      · have hshort := short h hh
        omega
    · rintro ⟨b, hb, hdeep⟩
      exact ⟨b, hb, head, List.mem_cons_self, hdeep⟩
  · intro hmove hpos
    exact ⟨block, hmove.trans hblock, head, List.mem_cons_self, by omega⟩

theorem result_of_toOption {ε α : Type} {r : Option (Except ε α)} {a : α}
    (h : r.bind Except.toOption = some a) : r = some (.ok a) := by
  match r with
  | some (.ok b) => rw [show b = a from Option.some.inj h]

namespace Moved

def confirmer : Confirmer := ⟨⟨3, ⟨1⟩, ⟨1000⟩⟩, ⟨1, 2⟩⟩

def receipt (block : Nat) : Receipt := ⟨some block, some 1, [⟨1, []⟩]⟩

/-- A node whose chain has moved the transaction a hundred blocks on between two looks. -/
def node : Rehearsal.Node :=
  { Rehearsal.Node.empty with
    ethereumTransactions := some [⟨⟨0⟩, .ok (some ⟨3, some 1, some 100⟩)⟩]
    receipts := some [⟨⟨0⟩, .ok (some (receipt 100))⟩, ⟨⟨0⟩, .ok (some (receipt 200))⟩]
    heights := some [⟨⟨0⟩, .ok 103⟩] }

def last : System Query Query.Reply Rehearsal.Node (Timed Stage)
    (Except ConfirmationError Receipt) :=
  System.run (Rehearsal.ethereumMachine confirmer 0 ⟨.native, none⟩) 20
    ⟨0, node, [.begin (confirmer.start 0) none], 0, []⟩

end Moved

/-- A receipt may be returned whose block lies ahead of every head that was read. -/
theorem depth_of_ok_moved :
    Runs Moved.confirmer 0 ⟨.native, none⟩ Moved.last ∧
      Moved.last.result? 0 = some (.ok (Moved.receipt 200)) ∧
      heads (Moved.last.askedBy 0) = [103] ∧
      ¬∃ b, (Moved.receipt 200).block = some b ∧
        ∃ h ∈ heads (Moved.last.askedBy 0), b + Moved.confirmer.policy.required ≤ h := by
  have runs : Runs Moved.confirmer 0 ⟨.native, none⟩ Moved.last := ⟨_, _, _, _, rfl⟩
  have ok : Moved.last.result? 0 = some (.ok (Moved.receipt 200)) := by
    refine result_of_toOption ?_
    decide +kernel
  have hheads : heads (Moved.last.askedBy 0) = [103] := by decide +kernel
  obtain ⟨first, block, head, earlier, -, -, hlast, -, -, hdeep, -⟩ := depth_of_ok runs ok
  refine ⟨runs, ok, hheads, ?_⟩
  rw [hdeep]
  rintro ⟨b, hb, hle⟩
  obtain rfl : b = 200 := Option.some.inj hb.symm
  obtain rfl : head = 103 := by
    rw [hheads] at hlast
    exact (List.cons.inj hlast).1.symm
  exact absurd hle (by decide)

end Confirmer

end Settlement.Ethereum
