import Settlement.Chain.Dash.Confirmer
import Settlement.Proofs.Course

/-!
# Which deposits are counted

A payment forward reports deposits, again and again, and a deposit counts once its transaction is
deep. `Watched` links the tally at every stage to what was answered on the way: the transactions
that the tally has seen are those that were found deep, and, with the ones that are still ahead,
those that were reported. So a charge is covered by all deposits that its forward has reported, and
by nothing else (`counted_of_ends`).
-/

namespace Settlement.Dash

def reportedIn : Asked Query Query.Reply → List String
  | ⟨.forward _, (.ok deposits : Except ConfirmationError (List Deposit))⟩ =>
    deposits.map Deposit.inputHash
  | _ => []

/-- The transaction that the service found to be deep. -/
def deepIn (required : Nat) : Asked Query Query.Reply → Option String
  | ⟨.transaction hash, (.ok tx : Except ConfirmationError Transaction)⟩ =>
    if required < tx.confirmations then some hash else none
  | _ => none

/-- The transactions of the deposits that were reported. -/
def reported (asked : List (Asked Query Query.Reply)) : List String := asked.flatMap reportedIn

/-- The transactions that were found deep: their deposits are counted. -/
def counted (required : Nat) (asked : List (Asked Query Query.Reply)) : List String :=
  asked.filterMap (deepIn required)

theorem mem_reported_cons {a : Asked Query Query.Reply} {asked : List (Asked Query Query.Reply)}
    {hash : String} :
    hash ∈ reported (a :: asked) ↔ hash ∈ reportedIn a ∨ hash ∈ reported asked := by
  rw [reported, List.flatMap_cons, List.mem_append]
  rfl

theorem mem_reported {asked : List (Asked Query Query.Reply)} {hash : String} :
    hash ∈ reported asked ↔ ∃ id deposits,
      ⟨.forward id, (.ok deposits : Except ConfirmationError (List Deposit))⟩ ∈ asked ∧
        hash ∈ deposits.map Deposit.inputHash := by
  rw [reported, List.mem_flatMap]
  constructor
  · rintro ⟨a, ha, hhash⟩
    unfold reportedIn at hhash
    split at hhash
    next id deposits => exact ⟨id, deposits, ha, hhash⟩
    next => simp at hhash
  · rintro ⟨id, deposits, ha, hhash⟩
    exact ⟨_, ha, hhash⟩

theorem mem_counted_cons {required : Nat} {a : Asked Query Query.Reply}
    {asked : List (Asked Query Query.Reply)} {hash : String} :
    hash ∈ counted required (a :: asked) ↔
      deepIn required a = some hash ∨ hash ∈ counted required asked := by
  unfold counted
  rw [List.mem_filterMap, List.mem_filterMap]
  simp only [List.mem_cons, exists_eq_or_imp]

theorem seen_of_add? {tally tally' : Tally} {deposit : Deposit}
    (h : tally.add? deposit = some tally') : tally'.seen = tally.seen := by
  obtain ⟨total, -, rfl⟩ := Option.map_eq_some_iff.1 h
  rfl

theorem mem_uncounted {tally : Tally} {deposits : List Deposit} (hash : String) :
    hash ∈ tally.seen ∨ hash ∈ (tally.uncounted deposits).map Deposit.inputHash ↔
      hash ∈ tally.seen ∨ hash ∈ deposits.map Deposit.inputHash := by
  induction deposits with
  | nil => rfl
  | cons deposit rest ih =>
      by_cases h : tally.seen.contains deposit.inputHash
      · have hskip : tally.uncounted (deposit :: rest) = tally.uncounted rest := by
          exact List.dropWhile_cons_of_pos h
        have hseen : deposit.inputHash ∈ tally.seen := List.contains_iff_mem.1 h
        rw [hskip, ih, List.map_cons, List.mem_cons]
        constructor
        · rintro (h | h)
          · exact Or.inl h
          · exact Or.inr (Or.inr h)
        · rintro (h | rfl | h)
          · exact Or.inl h
          · exact Or.inl hseen
          · exact Or.inr h
      · have hkeep : tally.uncounted (deposit :: rest) = deposit :: rest := by
          exact List.dropWhile_cons_of_neg h
        rw [hkeep]

namespace Confirmer

/-- What was answered, with the deposits that are still ahead. The transaction that is pending is
not known to be deep. -/
structure Tallied (c : Confirmer) (forward : String) (asked : List (Asked Query Query.Reply))
    (tally : Tally) (ahead : List Deposit) (pending : Option String) : Prop where
  own : ∀ id r, ⟨.forward id, r⟩ ∈ asked → id = forward
  reported : ∀ hash, hash ∈ reported asked ↔
    hash ∈ tally.seen ∨ hash ∈ ahead.map Deposit.inputHash
  counted : ∀ hash, pending ≠ some hash →
    (hash ∈ counted c.policy.required asked ↔ hash ∈ tally.seen)

def Answered (c : Confirmer) (hash : String) (asked : List (Asked Query Query.Reply)) :
    Settling → Prop
  | .looked (.ok tx) => c.policy.required < tx.confirmations →
    hash ∈ Dash.counted c.policy.required asked
  | .deep _ _ => hash ∈ Dash.counted c.policy.required asked
  | _ => True

/-- What was answered up to a stage. -/
def Watched (c : Confirmer) (forward : String) (asked : List (Asked Query Query.Reply)) :
    Stage → Prop
  | .looking tally => Tallied c forward asked tally [] none
  | .looked tally r => Tallied c forward asked tally (r.toOption.getD []) none
  | .settling tally deposit rest s =>
    Tallied c forward asked tally rest (some deposit.inputHash) ∧
      deposit.inputHash ∈ tally.seen ∧ Answered c deposit.inputHash asked s
  | .interrupted => True

variable {c : Confirmer} {forward : String} {charge : Decimal}
  {asked before : List (Asked Query Query.Reply)} {stage stage' : Stage} {tally : Tally}
  {ahead : List Deposit} {pending : Option String} {now : Instant}

theorem Tallied.cons (tallied : Tallied c forward before tally ahead pending)
    {a : Asked Query Query.Reply} (other : ∀ id r, a ≠ ⟨.forward id, r⟩)
    (silent : reportedIn a = [])
    (same : ∀ hash, deepIn c.policy.required a = some hash → pending = some hash) :
    Tallied c forward (a :: before) tally ahead pending where
  own := by
    intro id r h
    rcases List.mem_cons.1 h with h | h
    · exact absurd h.symm (other id r)
    · exact tallied.own id r h
  reported := by
    intro hash
    rw [mem_reported_cons, silent, tallied.reported]
    simp
  counted := by
    intro hash hne
    rw [mem_counted_cons, tallied.counted hash hne]
    constructor
    · rintro (h | h)
      · exact absurd (same hash h) hne
      · exact h
    · exact Or.inr

theorem deepIn_transaction {required : Nat} {hash other : String}
    {r : Except ConfirmationError Transaction}
    (h : deepIn required ⟨.transaction hash, r⟩ = some other) : hash = other := by
  match r, h with
  | .ok tx, h =>
      change (if required < tx.confirmations then some hash else none) = some other at h
      obtain ⟨-, h⟩ := by simpa using h
      exact h

/-- Asking for the transaction of the pending deposit settles whether it is deep. -/
theorem watched_transaction {deposit : Deposit} {rest : List Deposit}
    (tallied : Tallied c forward before tally rest (some deposit.inputHash))
    (seen : deposit.inputHash ∈ tally.seen) (r : Except ConfirmationError Transaction) :
    Watched c forward (⟨.transaction deposit.inputHash, r⟩ :: before)
      (.settling tally deposit rest (.looked r)) := by
  refine ⟨tallied.cons nofun rfl ?_, seen, ?_⟩
  · intro hash h
    rw [deepIn_transaction h]
  · match r with
    | .error e => trivial
    | .ok tx => exact fun deep => mem_counted_cons.2 (Or.inl (if_pos deep))

theorem watched_takeDeposits (tallied : Tallied c forward before tally ahead none)
    (h : (c.takeDeposits charge tally ahead).Leads asked stage) :
    Watched c forward (asked ++ before) stage := by
  have reported : ∀ hash, hash ∈ Dash.reported before ↔
      hash ∈ tally.seen ∨ hash ∈ (tally.uncounted ahead).map Deposit.inputHash := by
    intro hash
    rw [tallied.reported, mem_uncounted]
  unfold takeDeposits at h
  split at h
  next deposit rest hrest =>
    obtain ⟨r, rfl, rfl⟩ := Turn.leads_ask.1 h
    rw [hrest] at reported
    have taken : Tallied c forward before (tally.see deposit) rest (some deposit.inputHash) := by
      refine ⟨tallied.own, fun hash => ?_, fun hash hne => ?_⟩
      · rw [reported, List.map_cons, List.mem_cons, Tally.see, List.mem_cons, or_assoc,
          or_left_comm]
      · have hne : hash ≠ deposit.inputHash := fun h => hne (congrArg some h.symm)
        rw [tallied.counted hash (by simp), Tally.see, List.mem_cons]
        simp [hne]
    exact watched_transaction taken List.mem_cons_self r
  next hnone =>
    split at h
    · exact h.elim
    · obtain ⟨rfl, rfl | rfl⟩ := Turn.leads_pause.1 h
      · refine ⟨tallied.own, fun hash => ?_, tallied.counted⟩
        rw [List.nil_append, reported, hnone]
      · trivial

theorem Tallied.settle {hash : String}
    (tallied : Tallied c forward before tally ahead (some hash)) (seen : hash ∈ tally.seen)
    (deep : hash ∈ Dash.counted c.policy.required before) :
    Tallied c forward before tally ahead none where
  own := tallied.own
  reported := tallied.reported
  counted := by
    intro other _
    by_cases h : hash = other
    · subst h
      exact iff_of_true deep seen
    · exact tallied.counted other (by simpa using h)

theorem Tallied.congr {tally' : Tally} (tallied : Tallied c forward before tally ahead pending)
    (h : tally'.seen = tally.seen) : Tallied c forward before tally' ahead pending where
  own := tallied.own
  reported := by
    rw [h]
    exact tallied.reported
  counted := by
    rw [h]
    exact tallied.counted

theorem Tallied.ask (tallied : Tallied c forward before tally [] none)
    (r : Except ConfirmationError (List Deposit)) :
    Tallied c forward (⟨.forward forward, r⟩ :: before) tally (r.toOption.getD []) none where
  own := by
    intro id r' h
    rcases List.mem_cons.1 h with h | h
    · cases h
      rfl
    · exact tallied.own id r' h
  reported := by
    intro hash
    rw [mem_reported_cons, tallied.reported]
    cases r with
    | error e => simp [reportedIn, Except.toOption]
    | ok deposits =>
        simp only [reportedIn, Except.toOption, Option.getD_some, List.map_nil, List.not_mem_nil,
          or_false]
        exact or_comm
  counted := by
    intro hash hne
    rw [mem_counted_cons, tallied.counted hash hne]
    exact or_iff_right nofun

theorem answered_step {deposit : Deposit} {rest : List Deposit} {s s' : Settling}
    (watched : Watched c forward before (.settling tally deposit rest s))
    (h : (c.settle deposit.inputHash now s).Leads asked s') :
    Watched c forward (asked ++ before) (.settling tally deposit rest s') := by
  obtain ⟨tallied, seen, answered⟩ := watched
  cases s with
  | looking =>
      obtain ⟨r, rfl, rfl⟩ := Turn.leads_ask.1 h
      exact watched_transaction tallied seen r
  | looked r =>
      match r, h, answered with
      | .ok tx, h, answered =>
          simp only [settle] at h
          split at h
          next deep =>
            obtain ⟨r, rfl, rfl⟩ := Turn.leads_ask.1 h
            refine ⟨tallied.cons nofun rfl nofun, seen, ?_⟩
            exact mem_counted_cons.2 (Or.inr (answered deep))
          next =>
            obtain ⟨rfl, rfl | rfl⟩ := Turn.leads_pause.1 h
            · exact ⟨tallied, seen, trivial⟩
            · exact ⟨tallied, seen, trivial⟩
  | deep tx r =>
      match r, h with
      | .ok height, h =>
          simp only [settle] at h
          split at h <;> exact h.elim
  | interrupted => exact h.elim

/-- A deposit that is settled is one whose transaction is deep. -/
theorem deep_of_settle {hash : String} {s : Settling} {tx : Transaction}
    (h : c.settle hash now s = .done (.ok tx)) : ∃ tx r, s = .deep tx r := by
  cases s with
  | looking => simp [settle] at h
  | looked r =>
      rcases r with e | tx'
      · simp [settle] at h
      · simp only [settle] at h
        split at h <;> simp at h
  | deep tx' r => exact ⟨tx', r, rfl⟩
  | interrupted => simp [settle] at h

theorem watched_step (watched : Watched c forward before stage)
    (h : (c.turn forward charge now stage).Leads asked stage') :
    Watched c forward (asked ++ before) stage' := by
  cases stage with
  | looking tally =>
      obtain ⟨r, rfl, rfl⟩ := Turn.leads_ask.1 h
      exact watched.ask r
  | looked tally r =>
      match r, h with
      | .ok deposits, h => exact watched_takeDeposits watched h
  | settling tally deposit rest s =>
      rcases Turn.leads_andThen h with ⟨result, ends, hnext⟩ | ⟨s', step, rfl⟩
      · match result, ends, hnext with
        | .ok tx, ends, hnext =>
            obtain ⟨tx, r, rfl⟩ := deep_of_settle ends
            obtain ⟨tallied, seen, deep⟩ := watched
            dsimp only at hnext
            split at hnext
            -- a sum that is no amount breaks the confirmation down
            next => exact hnext.elim
            next tally' hsum =>
              have settled := tallied.settle seen deep
              exact watched_takeDeposits (settled.congr (seen_of_add? hsum)) hnext
      · exact answered_step watched step
  | interrupted => exact h.elim

theorem watched_of_course
    (h : Course (c.turn forward charge) (.looking .empty) asked stage) :
    Watched c forward asked stage := by
  induction h with
  | start =>
      refine ⟨by simp, fun hash => ?_, fun hash _ => ?_⟩
      · simp [Dash.reported, Tally.empty]
      · simp [Dash.counted, Tally.empty]
  | next now _ step ih => exact watched_step ih step

theorem tallied_of_takeDeposits {total : Decimal}
    (tallied : Tallied c forward asked tally ahead none)
    (h : c.takeDeposits charge tally ahead = .done (.ok total)) :
    Tallied c forward asked tally [] none ∧ tally.seen ≠ [] := by
  unfold takeDeposits at h
  split at h
  next => simp at h
  next hnone =>
    split at h
    next hcovers =>
      refine ⟨⟨tallied.own, fun hash => ?_, tallied.counted⟩, ?_⟩
      · rw [tallied.reported, ← mem_uncounted, hnone]
      · simp only [Tally.covers, Bool.and_eq_true] at hcovers
        simpa using hcovers.1
    next => simp at h

/-- A payment is confirmed by all deposits that its forward has reported, and by nothing else. -/
theorem counted_of_ends {total : Decimal}
    (h : Ends (c.turn forward charge) (.looking .empty) asked (.ok total)) :
    (∀ id r, ⟨.forward id, r⟩ ∈ asked → id = forward) ∧
      (∀ hash, hash ∈ Dash.counted c.policy.required asked ↔ hash ∈ Dash.reported asked) ∧
      Dash.counted c.policy.required asked ≠ [] := by
  obtain ⟨stage, now, course, ends⟩ := h
  have watched := watched_of_course course
  have tallied : ∃ tally, Tallied c forward asked tally [] none ∧ tally.seen ≠ [] := by
    cases stage with
    | looking tally => simp [turn] at ends
    | looked tally r =>
        match r, ends with
        | .ok deposits, ends => exact ⟨tally, tallied_of_takeDeposits watched ends⟩
    | settling tally deposit rest s =>
        obtain ⟨result, ends, hnext⟩ := Turn.eq_done_of_andThen ends
        match result, ends, hnext with
        | .ok tx, ends, hnext =>
            obtain ⟨tx, r, rfl⟩ := deep_of_settle ends
            obtain ⟨tallied, seen, deep⟩ := watched
            dsimp only at hnext
            split at hnext
            next => simp at hnext
            next tally' hsum =>
              have settled := (tallied.settle seen deep).congr (seen_of_add? hsum)
              exact ⟨tally', tallied_of_takeDeposits settled hnext⟩
    | interrupted => simp [turn] at ends
  obtain ⟨tally, tallied, hseen⟩ := tallied
  -- nothing is pending and nothing ahead, so both lists have the hashes that the tally has seen
  have same : ∀ hash, hash ∈ Dash.counted c.policy.required asked ↔ hash ∈ Dash.reported asked := by
    intro hash
    rw [tallied.counted hash (by simp), tallied.reported]
    simp
  refine ⟨tallied.own, same, fun hnil => hseen ?_⟩
  rw [List.eq_nil_iff_forall_not_mem]
  intro hash hmem
  rw [← tallied.counted hash (by simp), hnil] at hmem
  simp at hmem

end Confirmer

end Settlement.Dash
