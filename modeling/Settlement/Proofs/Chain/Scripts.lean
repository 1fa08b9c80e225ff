import Settlement.Rehearsal.Node

/-!
# What a script fails with

A node that follows a script fails with what the script says, and where the script says nothing it
fails in its own words, but never with a timeout. What is left of the script after an answer was on
it before.
-/

namespace Settlement.Rehearsal

variable {α : Type}

/-- An item of the script is this failure. -/
def Script.Fails (script : Script α) (e : ConfirmationError) : Prop :=
  ∃ items, script = some items ∧ ∃ item ∈ items, item.outcome = .error e

/-- An item of one of the scripts is this failure. -/
def Node.Fails (node : Node) (e : ConfirmationError) : Prop :=
  node.ethereumTransactions.Fails e ∨ node.receipts.Fails e ∨ node.forwards.Fails e ∨
    (∃ entry ∈ node.dashTransactions, ∃ item ∈ entry.2, item.outcome = .error e) ∨
    node.bitcoinCashTransactions.Fails e ∨ node.heights.Fails e

/-- A timeout is one of a script. -/
def Told (node : Node) (r : Except ConfirmationError α) : Prop :=
  ∀ limit, r = .error (.timeout limit) → node.Fails (.timeout limit)

/-- A confirmation that ends with a timeout has it from a script; it may break down if `breaks`. -/
def Ended (node : Node) (breaks : Prop) : Option (Except ConfirmationError α) → Prop
  | some a => Told node a
  | none => breaks

/-- What the script of one node fails with, the other one's does. -/
def Node.Later (node later : Node) : Prop := ∀ e, later.Fails e → node.Fails e

/-- It does not matter what else there might have been. -/
theorem Told.error {β : Type} {node : Node} {e : ConfirmationError}
    (told : Told node (.error e : Except ConfirmationError α)) :
    Told node (.error e : Except ConfirmationError β) :=
  fun limit heq => told limit (congrArg _ (Except.error.inj heq))

theorem Script.fails_next (argument : String) (script : Script α) :
    (∀ limit, (next argument script).1.outcome = .error (.timeout limit) →
      script.Fails (.timeout limit)) ∧
    ∀ e, (next argument script).2.Fails e → script.Fails e := by
  match script with
  | none => exact ⟨nofun, fun e h => h⟩
  | some [] => exact ⟨nofun, fun e h => h⟩
  | some [item] =>
      exact ⟨fun limit h => ⟨[item], rfl, item, List.mem_singleton_self _, h⟩, fun e h => h⟩
  | some (item :: second :: rest) =>
      refine ⟨fun limit h => ⟨_, rfl, item, List.mem_cons_self, h⟩, ?_⟩
      rintro e ⟨items, heq, other, hmem, h⟩
      obtain rfl := Option.some.inj heq
      exact ⟨_, rfl, other, List.mem_cons_of_mem _ hmem, h⟩

namespace Node

/-- An answer is told by the script, and leaves no other failures on it. -/
def Answers (node : Node) (a : Answer Node (Except ConfirmationError α)) : Prop :=
  Told node a.reply ∧ node.Later a.world

/-- What is told later was told before. -/
theorem Answers.later {node later : Node} {a : Answer Node (Except ConfirmationError α)}
    (answers : later.Answers a) (h : node.Later later) : node.Later a.world ∧ Told node a.reply :=
  ⟨fun e fails => h e (answers.2 e fails), fun limit heq => h _ (answers.1 limit heq)⟩

theorem answers_height (node : Node) : node.Answers node.height := by
  obtain ⟨hitem, hrest⟩ := Script.fails_next "" node.heights
  refine ⟨fun limit h => ?_, fun e h => ?_⟩
  · exact Or.inr (Or.inr (Or.inr (Or.inr (Or.inr (hitem limit h)))))
  · exact h.imp_right (Or.imp_right (Or.imp_right (Or.imp_right (Or.imp_right (hrest e)))))

theorem answers_ethereumTransaction (node : Node) (hash : Hash) :
    node.Answers (α := Option Ethereum.Transaction) (node.ethereum (.transaction hash)) := by
  obtain ⟨hitem, hrest⟩ := Script.fails_next "" node.ethereumTransactions
  exact ⟨fun limit h => Or.inl (hitem limit h), fun e h => h.imp_left (hrest e)⟩

theorem answers_receipt (node : Node) (hash : Hash) :
    node.Answers (α := Option Ethereum.Receipt) (node.ethereum (.receipt hash)) := by
  obtain ⟨hitem, hrest⟩ := Script.fails_next "" node.receipts
  exact ⟨fun limit h => Or.inr (Or.inl (hitem limit h)),
    fun e h => h.imp_right (Or.imp_left (hrest e))⟩

theorem answers_forward (node : Node) (id : String) :
    node.Answers (α := List Dash.Deposit) (node.dash (.forward id)) := by
  obtain ⟨hitem, hrest⟩ := Script.fails_next id node.forwards
  exact ⟨fun limit h => Or.inr (Or.inr (Or.inl (hitem limit h))),
    fun e h => h.imp_right (Or.imp_right (Or.imp_left (hrest e)))⟩

theorem answers_bitcoinCashTransaction (node : Node) (hash : String) :
    node.Answers (α := BitcoinCash.Transaction) (node.bitcoinCash (.transaction hash)) := by
  obtain ⟨hitem, hrest⟩ := Script.fails_next hash node.bitcoinCashTransactions
  refine ⟨fun limit h => ?_, fun e h => ?_⟩
  · exact Or.inr (Or.inr (Or.inr (Or.inr (Or.inl (hitem limit h)))))
  · exact h.imp_right (Or.imp_right (Or.imp_right (Or.imp_right (Or.imp_left (hrest e)))))

/-- The script of a Dash transaction is one of the scripts. -/
theorem fails_of_lookup {node : Node} {hash : String} {e : ConfirmationError}
    (h : Script.Fails (node.dashTransactions.lookup hash) e) :
    ∃ entry ∈ node.dashTransactions, ∃ item ∈ entry.2, item.outcome = .error e := by
  obtain ⟨items, hlookup, item⟩ := h
  obtain ⟨before, after, hentries, -⟩ := List.lookup_eq_some_iff.1 hlookup
  exact ⟨(hash, items), hentries ▸ List.mem_append_right _ List.mem_cons_self, item⟩

theorem answers_dashTransaction (node : Node) (hash : String) :
    node.Answers (α := Dash.Transaction) (node.dash (.transaction hash)) := by
  obtain ⟨hitem, hrest⟩ := Script.fails_next hash (node.dashTransactions.lookup hash)
  refine ⟨fun limit h => ?_, fun e h => ?_⟩
  · exact Or.inr (Or.inr (Or.inr (Or.inl (fails_of_lookup (hitem limit h)))))
  · refine h.imp_right (Or.imp_right (Or.imp_right (Or.imp_left ?_)))
    rintro ⟨entry, hmem, fails⟩
    have others : entry ∈ node.dashTransactions.filter (fun other => other.1 != hash) →
        ∃ entry ∈ node.dashTransactions, ∃ item ∈ entry.2, item.outcome = .error e :=
      fun h => ⟨entry, (List.mem_filter.1 h).1, fails⟩
    simp only [dash, answer] at hmem
    split at hmem
    next items hnext =>
      rcases List.mem_cons.1 hmem with rfl | hmem
      · exact fails_of_lookup (hrest e ⟨items, hnext, fails⟩)
      · exact others hmem
    next => exact others hmem

end Node

end Settlement.Rehearsal
