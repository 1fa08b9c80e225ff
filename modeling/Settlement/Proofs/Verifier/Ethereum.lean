import Settlement.Proofs.Chain.Ethereum.Depth
import Settlement.Proofs.Verifier.Checks

/-!
# The course of an Ethereum verification

An Ethereum payment is verified by its hash alone, in attempts that each are one confirmation.
`Attempting` says where the verification is: the attempts before have asked about that hash only,
and the attempt that is under way is on the course of a confirmation of it. So a verification that
succeeds has asked about the hash that the payment's text stands for, and about no other.
-/

namespace Settlement

namespace Ethereum

def Query.hash? : Query → Option Hash
  | transaction hash => some hash
  | receipt hash => some hash
  | head => none

namespace Confirmer

variable {c : Confirmer} {hash : Hash} {expected : Expectation}

theorem turn_asks (c : Confirmer) (hash : Hash) (expected : Expectation) (s : Stage) :
    (c.turn hash expected s).Asks fun query => ∀ h, query.hash? = some h → h = hash := by
  have own : ∀ h, some hash = some h → h = hash := fun h hh => (Option.some.inj hh).symm
  have head : ∀ h, Query.head.hash? = some h → h = hash := fun h hh => by cases hh
  cases s with
  | looking => exact own
  | looked r =>
      rcases r with e | _ | tx
      · trivial
      · trivial
      · simp only [turn]
        split
        · exact own
        · trivial
  | placed r =>
      rcases r with e | _ | first
      · trivial
      · trivial
      · simp only [turn]
        split
        · trivial
        · exact head
  | counting block last => exact head
  | counted block last r =>
      rcases r with e | n
      · trivial
      · simp only [turn]
        split
        · exact own
        · split
          · trivial
          · exact head
  | buried r =>
      rcases r with e | _ | receipt
      · trivial
      · trivial
      · exact own
  | settled receipt r =>
      rcases r with e | _ | tx
      · trivial
      · trivial
      · simp only [turn]
        split <;> trivial
  | interrupted => trivial

theorem receipt_of_ends {asked : List (Asked Query Query.Reply)} {receipt : Receipt}
    (h : Ends (fun _ => c.turn hash expected) .looking asked (.ok receipt)) :
    ∃ a ∈ asked, ∃ h, a.call.hash? = some h := by
  obtain ⟨block, before, -, -, hreceipts⟩ := counted_of_ends h
  have hmem : receipt ∈ receipts asked := by
    rw [hreceipts]
    exact List.mem_cons_self
  obtain ⟨a, ha, hin⟩ := List.mem_filterMap.1 hmem
  refine ⟨a, ha, ?_⟩
  unfold receiptIn at hin
  split at hin
  next h _ => exact ⟨h, rfl⟩
  next => cases hin

end Confirmer

end Ethereum

/-- The hash that a worker asks a node about. -/
def Call.hash? : Call → Option Hash
  | ethereum query => query.hash?
  | _ => none

/-- The hashes that the node was asked about. -/
def hashes (asked : List Contact) : List Hash := asked.filterMap (·.call.hash?)

theorem hashes_append (asked before : List Contact) :
    hashes (asked ++ before) = hashes asked ++ hashes before := List.filterMap_append

def Contact.ofEthereum (a : Asked Ethereum.Query Ethereum.Query.Reply) : Contact :=
  ⟨.ethereum a.call, a.reply⟩

theorem mem_hashes_map {inner : List (Asked Ethereum.Query Ethereum.Query.Reply)} {h : Hash} :
    h ∈ hashes (inner.map .ofEthereum) ↔ ∃ a ∈ inner, a.call.hash? = some h := by
  rw [hashes, List.filterMap_map, List.mem_filterMap]
  rfl

namespace Verifier

variable {c : Ethereum.Confirmer} {attempts : Nat} {retryPause : Duration} {request : Request}
  {payment : Payment} {hash : Hash} {expected : Ethereum.Expectation} {asked before : List Contact}
  {stage : Timed Ethereum.Stage}

def Only (hash : Hash) (asked : List Contact) : Prop := ∀ h ∈ hashes asked, h = hash

/-- Where the verification of a hash is, with what it has asked. -/
inductive Attempting (c : Ethereum.Confirmer) (hash : Hash) : List Contact → EthereumStage → Prop
  | addressed {before : List Contact} (r : Except StoreError (Option String))
      (only : Only hash before) : Attempting c hash before (.addressed hash r)
  | attempting {inner : List (Asked Ethereum.Query Ethereum.Query.Reply)} {before : List Contact}
      {expected : Ethereum.Expectation} {stage : Timed Ethereum.Stage} (attempt : Nat)
      (now : Instant) (only : Only hash before)
      (course : Course (fun _ => c.timedTurn hash expected) (c.start now) inner stage) :
      Attempting c hash (inner.map .ofEthereum ++ before) (.attempting hash expected attempt stage)
  | retrying {before : List Contact} (expected : Ethereum.Expectation) (attempt : Nat)
      (only : Only hash before) : Attempting c hash before (.retrying hash expected attempt)
  | interrupted {before : List Contact} (only : Only hash before) :
      Attempting c hash before .interrupted

theorem only_append (h : Only hash asked) (h' : Only hash before) :
    Only hash (asked ++ before) := by
  intro w hw
  rw [hashes_append] at hw
  exact (List.mem_append.1 hw).elim (h w) (h' w)

theorem only_of_course {now : Instant} {inner : List (Asked Ethereum.Query Ethereum.Query.Reply)}
    (course : Course (fun _ => c.timedTurn hash expected) (c.start now) inner stage) :
    Only hash (inner.map .ofEthereum) := by
  have asks : ∀ s, (c.timedTurn hash expected s).Asks
      fun query => ∀ h, query.hash? = some h → h = hash := by
    intro s
    exact asks_timed (c.turn_asks hash expected) s
  intro w hw
  obtain ⟨a, ha, hw⟩ := mem_hashes_map.1 hw
  exact asked_of_course course (fun _ => asks) a ha w hw

theorem leads_attemptTurn {attempt : Nat} {s : EthereumStage}
    (h : (attemptTurn c attempts retryPause hash expected attempt stage).Leads asked s) :
    (∃ result, (afterAttempt attempts retryPause hash expected attempt result).Leads asked s) ∨
      ∃ next stage', (c.timedTurn hash expected stage).Leads next stage' ∧
        s = .attempting hash expected attempt stage' ∧ asked = next.map .ofEthereum := by
  rcases Turn.leads_within h with ⟨result, -, h⟩ | ⟨next, stage', step, rfl, rfl⟩
  · exact Or.inl ⟨result, h⟩
  · exact Or.inr ⟨next, stage', step, rfl, rfl⟩

theorem attempting_of_attempt {now : Instant} {attempt : Nat} {s : EthereumStage}
    {inner : List (Asked Ethereum.Query Ethereum.Query.Reply)} (only : Only hash before)
    (course : Course (fun _ => c.timedTurn hash expected) (c.start now) inner stage)
    (h : (attemptTurn c attempts retryPause hash expected attempt stage).Leads asked s) :
    Attempting c hash (asked ++ (inner.map .ofEthereum ++ before)) s := by
  rcases leads_attemptTurn h with ⟨result, h⟩ | ⟨next, stage', step, rfl, rfl⟩
  -- an attempt that failed is now one of those before
  · have only : Only hash (inner.map .ofEthereum ++ before) :=
      only_append (only_of_course course) only
    cases result with
    | ok receipt => exact h.elim
    | error e =>
        simp only [afterAttempt] at h
        split at h
        · obtain ⟨rfl, rfl | rfl⟩ := Turn.leads_pause.1 h
          · exact .retrying expected (attempt + 1) only
          · exact .interrupted only
        · exact h.elim
  · rw [← List.append_assoc, ← List.map_append]
    exact .attempting attempt now only (course.next now step)

/-- A turn goes on with the attempt that is under way, or begins the next. -/
theorem attempting_step {now : Instant} {s s' : EthereumStage}
    (attempting : Attempting c hash before s)
    (h : (ethereumTurn c attempts retryPause payment now s).Leads asked s') :
    Attempting c hash (asked ++ before) s' := by
  cases attempting with
  | addressed r only =>
      match r, h with
      | .ok registered, h =>
          simp only [ethereumTurn] at h
          split at h
          · exact h.elim
          · exact attempting_of_attempt only .start h
  | attempting attempt start only course => exact attempting_of_attempt only course h
  | retrying expected attempt only => exact attempting_of_attempt only .start h
  | interrupted only => exact h.elim

theorem attempting_of_passes {checks : List Contact} {s : VerifierStage}
    (h : (Verifier.ethereum c attempts retryPause).Passes request payment checks s) :
    ∃ hash inner, paymentHash payment = .ok hash ∧ s = .ethereum inner ∧
      Attempting c hash checks inner := by
  induction h with
  | opens now step =>
      cases request with
      | dash r => exact step.elim
      | bitcoinCash r => exact step.elim
      | ethereum r =>
          simp only [begin] at step
          split at step
          · exact step.elim
          next hash read =>
            obtain ⟨r, rfl, rfl⟩ := Turn.leads_ask.1 step
            exact ⟨hash, _, read, rfl, .addressed r (by simp [Only, hashes, Call.hash?])⟩
  | goes now _ step ih =>
      obtain ⟨hash, inner, read, rfl, attempting⟩ := ih
      simp only [turn] at step
      rcases Turn.leads_andThen step with ⟨verdict, -, h⟩ | ⟨next, inside, rfl⟩
      · exact h.elim
      · exact ⟨hash, next, read, rfl, attempting_step attempting inside⟩

theorem ends_of_attempt {now : Instant} {attempt : Nat}
    {inner : List (Asked Ethereum.Query Ethereum.Query.Reply)}
    (course : Course (fun _ => c.timedTurn hash expected) (c.start now) inner stage)
    (ends : attemptTurn c attempts retryPause hash expected attempt stage = .done (.ok ())) :
    ∃ receipt, Ends (fun _ => c.turn hash expected) .looking inner (.ok receipt) := by
  obtain ⟨result, hdone, hresult⟩ := Turn.eq_done_of_within ends
  match result, hdone, hresult with
  | .ok receipt, hdone, _ =>
      rcases ends_timed ⟨stage, now, course, hdone⟩ with hlate | ends
      · simp at hlate
      · exact ⟨receipt, ends⟩
  | .error e, _, hresult =>
      simp only [afterAttempt] at hresult
      split at hresult <;> simp at hresult

/-- An Ethereum payment is verified by a confirmation of its hash, after attempts on the same. -/
theorem ends_of_gives_ethereum {checks : List Contact}
    (h : (Verifier.ethereum c attempts retryPause).Gives request payment checks (.ok ())) :
    ∃ hash expected receipt inner before, paymentHash payment = .ok hash ∧
      checks = inner.map .ofEthereum ++ before ∧ Only hash checks ∧
      Ends (fun _ => c.turn hash expected) .looking inner (.ok receipt) := by
  cases h with
  | atOnce now ends =>
      cases request with
      | dash r => simp [begin] at ends
      | bitcoinCash r => simp [begin] at ends
      | ethereum r =>
          simp only [begin] at ends
          split at ends <;> simp at ends
  | later now passes ends =>
      obtain ⟨hash, s, read, rfl, attempting⟩ := attempting_of_passes passes
      obtain ⟨verdict, ends, hverdict⟩ := Turn.eq_done_of_andThen ends
      obtain rfl := Turn.done.inj hverdict
      cases attempting with
      | addressed r only =>
          match r, ends with
          | .ok registered, ends =>
              simp only [ethereumTurn] at ends
              split at ends
              · simp at ends
              · obtain ⟨receipt, ends⟩ := ends_of_attempt .start ends
                exact ⟨hash, _, receipt, [], _, read, rfl, only, ends⟩
      | @attempting inner before expected stage attempt start only course =>
          obtain ⟨receipt, ends⟩ := ends_of_attempt course ends
          exact ⟨hash, expected, receipt, inner, before, read, rfl,
            only_append (only_of_course course) only, ends⟩
      | retrying expected attempt only =>
          obtain ⟨receipt, ends⟩ := ends_of_attempt .start ends
          exact ⟨hash, expected, receipt, [], _, read, rfl, only, ends⟩
      | interrupted only => simp [ethereumTurn] at ends

/-- A verification that succeeds has asked about the payment's hash, and about no other. -/
theorem hashes_of_gives {checks : List Contact}
    (h : (Verifier.ethereum c attempts retryPause).Gives request payment checks (.ok ())) :
    ∃ hash, paymentHash payment = .ok hash ∧ ∀ w, w ∈ hashes checks ↔ w = hash := by
  obtain ⟨hash, expected, receipt, inner, before, read, rfl, only, ends⟩ :=
    ends_of_gives_ethereum h
  refine ⟨hash, read, fun w => ⟨only w, ?_⟩⟩
  rintro rfl
  obtain ⟨a, ha, h, hasked⟩ := Ethereum.Confirmer.receipt_of_ends ends
  have hmem : h ∈ hashes (inner.map .ofEthereum ++ before) := by
    rw [hashes_append]
    exact List.mem_append_left _ (mem_hashes_map.2 ⟨a, ha, hasked⟩)
  rwa [only h hmem] at hmem

end Verifier

end Settlement
