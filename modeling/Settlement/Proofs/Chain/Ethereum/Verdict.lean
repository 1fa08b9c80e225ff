import Settlement.Proofs.Chain.Ethereum.Depth
import Settlement.Proofs.Timeline

/-!
# What a confirmed transaction pays

`Pays` says what the last receipt and the last transaction have to look like, and `Objects` names
the first of these conditions that they fail; the checks come to one of the two
(`validate_eq_ok_iff`, `validate_eq_error_iff`). A confirmation gets to the checks only with a
receipt and a transaction that were read after a head that buries the first receipt (`Followed`),
and from there on it ends with what the checks say (`verdict_of_run`).
-/

namespace Settlement.Ethereum

variable {contracts : Contracts} {expected : Expectation} {tx : Transaction} {receipt : Receipt}

/-- The log is headed by the signature of token transfers. -/
def Log.Reports (log : Log) : Prop := log.topics.head? = some transferTopic

/-- Transfers that the logs report are transfers of the platform's token. -/
def Native (contracts : Contracts) (logs : List Log) : Prop :=
  ∀ log ∈ logs, log.Reports → log.address = contracts.token

/-- The transaction succeeded and pays for what is expected. -/
structure Pays (contracts : Contracts) (expected : Expectation) (tx : Transaction)
    (receipt : Receipt) : Prop where
  succeeded : receipt.status = some 1
  recipient : tx.recipient = some contracts.payment
  logs : receipt.logs ≠ []
  native : Native contracts receipt.logs
  moved : expected.method = .rtc → ∃ log ∈ receipt.logs, log.Reports
  sender : ∀ sender, expected.sender = some sender → tx.sender = sender

/-- The first condition that the transaction fails, with what is said of it. -/
inductive Objects (contracts : Contracts) (expected : Expectation) (tx : Transaction)
    (receipt : Receipt) : ValidationError → Prop
  | status (failed : receipt.status ≠ some 1) :
      Objects contracts expected tx receipt (.txFailed (statusText receipt.status))
  | destination (succeeded : receipt.status = some 1)
      (other : tx.recipient ≠ some contracts.payment) :
      Objects contracts expected tx receipt
        (.wrongDestination (hexText contracts.payment) (destinationText tx.recipient))
  | silent (succeeded : receipt.status = some 1) (recipient : tx.recipient = some contracts.payment)
      (logs : receipt.logs = []) : Objects contracts expected tx receipt .noLogs
  | foreign {before after : List Log} {log : Log} (succeeded : receipt.status = some 1)
      (recipient : tx.recipient = some contracts.payment)
      (logs : receipt.logs = before ++ log :: after) (native : Native contracts before)
      (reports : log.Reports) (other : log.address ≠ contracts.token) :
      Objects contracts expected tx receipt
        (.unexpectedToken (hexText contracts.token) (hexText log.address))
  | unmoved (succeeded : receipt.status = some 1)
      (recipient : tx.recipient = some contracts.payment) (logs : receipt.logs ≠ [])
      (rtc : expected.method = .rtc) (still : ∀ log ∈ receipt.logs, ¬log.Reports) :
      Objects contracts expected tx receipt .missingTokenTransfer
  | sender {sender : Address} (succeeded : receipt.status = some 1)
      (recipient : tx.recipient = some contracts.payment) (logs : receipt.logs ≠ [])
      (native : Native contracts receipt.logs)
      (moved : expected.method = .rtc → ∃ log ∈ receipt.logs, log.Reports)
      (registered : expected.sender = some sender) (other : tx.sender ≠ sender) :
      Objects contracts expected tx receipt (.wrongSender (hexText sender) (hexText tx.sender))

theorem isTransfer_iff {log : Log} : log.isTransfer = true ↔ log.Reports := beq_iff_eq

/-- The foreign transfer that the checks look for. -/
def foreign? (contracts : Contracts) (logs : List Log) : Option Log :=
  (logs.filter Log.isTransfer).find? fun log => log.address ≠ contracts.token

theorem foreign?_eq_none_iff {logs : List Log} :
    foreign? contracts logs = none ↔ Native contracts logs := by
  simp [foreign?, Native, List.find?_filter, isTransfer_iff]

theorem foreign?_eq_some_iff {logs : List Log} {log : Log} :
    foreign? contracts logs = some log ↔ ∃ before after, logs = before ++ log :: after ∧
      Native contracts before ∧ log.Reports ∧ log.address ≠ contracts.token := by
  simp only [foreign?, List.find?_filter, List.find?_eq_some_iff_append, Native]
  constructor
  · rintro ⟨hlog, before, after, rfl, hbefore⟩
    simp only [isTransfer_iff, decide_eq_true_eq] at hlog
    refine ⟨before, after, rfl, fun l hl reports => ?_, hlog⟩
    have hfalse := hbefore l hl
    simpa [isTransfer_iff.2 reports] using hfalse
  · rintro ⟨before, after, rfl, native, reports, other⟩
    refine ⟨by simp [isTransfer_iff.2 reports, other], before, after, rfl, fun l hl => ?_⟩
    by_cases reports : l.Reports
    · simp [native l hl reports]
    · simp [Bool.eq_false_iff.2 (mt isTransfer_iff.1 reports)]

theorem filter_isTransfer_eq_nil_iff {logs : List Log} :
    logs.filter Log.isTransfer = [] ↔ ∀ log ∈ logs, ¬log.Reports := by
  simp [List.filter_eq_nil_iff, isTransfer_iff]

theorem moved_iff {method : PaymentMethod} {logs : List Log} :
    (method = .rtc → ∃ log ∈ logs, log.Reports) ↔
      ¬(method = .rtc ∧ logs.filter Log.isTransfer = []) := by
  rw [filter_isTransfer_eq_nil_iff]
  push Not
  rfl

theorem validate_of_pays (pays : Pays contracts expected tx receipt) :
    validate contracts expected tx receipt = .ok () := by
  have hforeign := foreign?_eq_none_iff.2 pays.native
  unfold foreign? at hforeign
  simp only [validate, pays.succeeded, pays.recipient, List.isEmpty_iff, pays.logs, hforeign,
    moved_iff.1 pays.moved]
  cases hsender : expected.sender with
  | none => simp
  | some sender => simp [pays.sender sender hsender]

theorem validate_of_objects {e : ValidationError}
    (objects : Objects contracts expected tx receipt e) :
    validate contracts expected tx receipt = .error e := by
  cases objects with
  | status failed => simp [validate, failed]
  | destination succeeded other => simp [validate, succeeded, other]
  | silent succeeded recipient logs => simp [validate, succeeded, recipient, logs]
  | @foreign before after log succeeded recipient logs native reports other =>
      have hforeign := foreign?_eq_some_iff.2 ⟨before, after, logs, native, reports, other⟩
      unfold foreign? at hforeign
      have hlogs : receipt.logs ≠ [] := by simp [logs]
      simp only [validate, succeeded, recipient, List.isEmpty_iff, hlogs, hforeign]
      simp
  | unmoved succeeded recipient logs rtc still =>
      have hnone := filter_isTransfer_eq_nil_iff.2 still
      simp only [validate, succeeded, recipient, List.isEmpty_iff, logs, hnone, rtc]
      simp
  | @sender sender succeeded recipient logs native moved registered other =>
      have hforeign := foreign?_eq_none_iff.2 native
      unfold foreign? at hforeign
      simp only [validate, succeeded, recipient, List.isEmpty_iff, logs, hforeign,
        moved_iff.1 moved, registered, other]
      simp

/-- A transaction pays, or there is a first objection. -/
theorem pays_or_objects (contracts : Contracts) (expected : Expectation) (tx : Transaction)
    (receipt : Receipt) :
    Pays contracts expected tx receipt ∨ ∃ e, Objects contracts expected tx receipt e := by
  by_cases succeeded : receipt.status = some 1
  swap
  · exact Or.inr ⟨_, .status succeeded⟩
  by_cases recipient : tx.recipient = some contracts.payment
  swap
  · exact Or.inr ⟨_, .destination succeeded recipient⟩
  by_cases logs : receipt.logs = []
  · exact Or.inr ⟨_, .silent succeeded recipient logs⟩
  cases hforeign : foreign? contracts receipt.logs with
  | some log =>
      obtain ⟨before, after, hlogs, native, reports, other⟩ := foreign?_eq_some_iff.1 hforeign
      exact Or.inr ⟨_, .foreign succeeded recipient hlogs native reports other⟩
  | none =>
      have native := foreign?_eq_none_iff.1 hforeign
      by_cases moved : expected.method = .rtc → ∃ log ∈ receipt.logs, log.Reports
      swap
      · push Not at moved
        exact Or.inr ⟨_, .unmoved succeeded recipient logs moved.1 moved.2⟩
      cases hsender : expected.sender with
      | none => exact Or.inl ⟨succeeded, recipient, logs, native, moved, by simp [hsender]⟩
      | some sender =>
          by_cases same : tx.sender = sender
          · exact Or.inl ⟨succeeded, recipient, logs, native, moved, by simp [hsender, same]⟩
          · exact Or.inr ⟨_, .sender succeeded recipient logs native moved hsender same⟩

theorem validate_eq_ok_iff :
    validate contracts expected tx receipt = .ok () ↔ Pays contracts expected tx receipt := by
  refine ⟨fun h => ?_, validate_of_pays⟩
  rcases pays_or_objects contracts expected tx receipt with pays | ⟨e, objects⟩
  · exact pays
  · simp [validate_of_objects objects] at h

theorem validate_eq_error_iff {e : ValidationError} :
    validate contracts expected tx receipt = .error e ↔
      Objects contracts expected tx receipt e := by
  refine ⟨fun h => ?_, validate_of_objects⟩
  rcases pays_or_objects contracts expected tx receipt with pays | ⟨e', objects⟩
  · simp [validate_of_pays pays] at h
  · rw [validate_of_objects objects] at h
    exact Except.error.inj h ▸ objects

/-- A receipt and then a transaction were read last, after a head that buries the block of the only
receipt before. -/
def Followed (c : Confirmer) (hash : Hash) (asked : List (Asked Query Query.Reply))
    (tx : Transaction) (receipt : Receipt) : Prop :=
  ∃ before first block head,
    asked =
      ⟨.transaction hash, (.ok (some tx) : Except ConfirmationError (Option Transaction))⟩ ::
        ⟨.receipt hash, (.ok (some receipt) : Except ConfirmationError (Option Receipt))⟩ ::
          before ∧
    receipts before = [first] ∧ first.block = some block ∧ head ∈ heads before ∧
    c.policy.required ≤ head - block

namespace Confirmer

variable {c : Confirmer} {hash : Hash} {asked before : List (Asked Query Query.Reply)}
  {stage stage' : Stage}

/-- What was read last at the stages after the heads. -/
def Latest (hash : Hash) (asked : List (Asked Query Query.Reply)) : Stage → Prop
  | .buried r => ∃ before, asked = ⟨.receipt hash, r⟩ :: before
  | .settled receipt r => ∃ before, asked = ⟨.transaction hash, r⟩ ::
      ⟨.receipt hash, (.ok (some receipt) : Except ConfirmationError (Option Receipt))⟩ :: before
  | _ => True

theorem latest_step (latest : Latest hash before stage)
    (h : (c.turn hash expected stage).Leads asked stage') :
    Latest hash (asked ++ before) stage' := by
  cases stage with
  | looking =>
      obtain ⟨r, rfl, rfl⟩ := Turn.leads_ask.1 h
      trivial
  | looked r =>
      rcases r with e | _ | tx
      · exact h.elim
      · exact h.elim
      · simp only [turn] at h
        split at h
        · obtain ⟨r, rfl, rfl⟩ := Turn.leads_ask.1 h
          trivial
        · obtain ⟨rfl, rfl | rfl⟩ := Turn.leads_pause.1 h <;> trivial
  | placed r =>
      rcases r with e | _ | first
      · exact h.elim
      · exact h.elim
      · simp only [turn] at h
        split at h
        · exact h.elim
        · obtain ⟨r, rfl, rfl⟩ := Turn.leads_ask.1 h
          trivial
  | counting block last =>
      obtain ⟨r, rfl, rfl⟩ := Turn.leads_ask.1 h
      trivial
  | counted block last r =>
      rcases r with e | head
      · exact h.elim
      · simp only [turn] at h
        split at h
        · obtain ⟨r, rfl, rfl⟩ := Turn.leads_ask.1 h
          exact ⟨before, rfl⟩
        · split at h
          · obtain ⟨rfl, rfl | rfl⟩ := Turn.leads_pause.1 h <;> trivial
          · obtain ⟨r, rfl, rfl⟩ := Turn.leads_ask.1 h
            trivial
  | buried r =>
      rcases r with e | _ | receipt
      · exact h.elim
      · exact h.elim
      · obtain ⟨r, rfl, rfl⟩ := Turn.leads_ask.1 h
        obtain ⟨earlier, rfl⟩ := latest
        exact ⟨earlier, rfl⟩
  | settled receipt r =>
      rcases r with e | _ | tx
      · exact h.elim
      · exact h.elim
      · simp only [turn] at h
        split at h <;> exact h.elim
  | interrupted => exact h.elim

theorem latest_of_course (h : Course (fun _ => c.turn hash expected) .looking asked stage) :
    Latest hash asked stage := by
  induction h with
  | start => trivial
  | next now _ step ih => exact latest_step ih step

/-- The checks come after the heads that bury the first receipt. -/
theorem followed_of_course
    (h : Course (fun _ => c.turn hash expected) .looking asked
      (.settled receipt (.ok (some tx)))) : Followed c hash asked tx receipt := by
  obtain ⟨before, rfl⟩ := latest_of_course h
  obtain ⟨block, earlier, ⟨⟨first, hblock, hfirst⟩, head, rest, hheads, deep, -⟩, hsame,
    hreceipts⟩ := counted_of_course h
  refine ⟨before, first, block, head, rfl, ?_, hblock, ?_, deep⟩
  · change receipt :: receipts before = receipt :: receipts earlier at hreceipts
    rw [(List.cons.inj hreceipts).2, hfirst]
  · change heads before = heads earlier at hsame
    rw [hsame, hheads]
    exact List.mem_cons_self

/-- The first turns of a confirmation, with a node that may answer anything. -/
def attempt {W : Type} (c : Confirmer) (hash : Hash) (expected : Expectation)
    (answer : Instant → (call : Query) → W → Answer W call.Reply) (world : W)
    (cancelAt : Option Instant) (fuel : Nat) :
    System Query Query.Reply W (Timed Stage) (Except ConfirmationError Receipt) :=
  System.run ⟨fun _ => c.timedTurn hash expected, answer⟩ fuel
    ⟨0, world, [.begin (c.start 0) cancelAt], 0, []⟩

variable {W : Type} {answer : Instant → (call : Query) → W → Answer W call.Reply} {world : W}
  {cancelAt : Option Instant} {fuel : Nat}

/-- Under the deadline too the checks come after the heads that bury the first receipt. -/
theorem followed_of_turn? {instant deadline : Instant}
    (reached : (attempt c hash expected answer world cancelAt fuel).turn? 0 =
      some (instant, .running deadline (.settled receipt (.ok (some tx))))) :
    Followed c hash ((attempt c hash expected answer world cancelAt fuel).askedBy 0) tx
      receipt := by
  have obeys : (⟨fun _ => c.timedTurn hash expected, answer⟩ : Machine _ _ _ _ _).Obeys
      fun _ _ _ _ => True := fun _ _ _ => trivial
  obtain ⟨worker, hworker, hstage⟩ := System.turn?_eq_some reached
  obtain ⟨worker', hworker', stands⟩ := System.stands_of_reaches
    (System.reaches_run obeys fuel ⟨0, world, [.begin (c.start 0) cancelAt], 0, []⟩) rfl
    (List.getElem?_cons_zero ..) rfl
  obtain rfl : worker = worker' := Option.some.inj (hworker.symm.trans hworker')
  rcases course_timed ((Status.stands_of_stage? hstage).1 stands) with hexpired | ⟨s, hs, course⟩
  · simp at hexpired
  · obtain ⟨-, rfl⟩ := Timed.running.inj hs
    exact followed_of_course course

/-- From the checks on a confirmation ends with what they say. -/
theorem result_of_turn? {instant deadline : Instant} {more : Nat}
    (reached : (attempt c hash expected answer world cancelAt fuel).turn? 0 =
      some (instant, .running deadline (.settled receipt (.ok (some tx)))))
    (later : fuel < more) :
    (attempt c hash expected answer world cancelAt more).result? 0 =
      some (match validate c.contracts expected tx receipt with
        | .ok () => .ok receipt
        | .error e => .error (.validation e)) := by
  obtain ⟨rest, rfl⟩ := Nat.exists_eq_add_of_le later
  have alone : ∃ status, (attempt c hash expected answer world cancelAt fuel).workers =
      [⟨cancelAt, false, status⟩] := System.single_of_run rfl fuel
  obtain ⟨status, single⟩ := alone
  rw [attempt] at single
  have done : c.timedTurn hash expected (.running deadline (.settled receipt (.ok (some tx)))) =
      .done (match validate c.contracts expected tx receipt with
        | .ok () => .ok receipt
        | .error e => .error (.validation e)) := by
    simp only [timedTurn, Timed.turn, turn]
    cases validate c.contracts expected tx receipt <;> rfl
  rw [attempt, Nat.succ_add, ← Nat.add_succ, System.run_add, System.run_of_done single reached done]
  rfl

/-- A receipt is returned only if it is the last one read, was read after a head that buries the
first one, and pays with the last transaction read. A confirmation that gets to the checks ends with
the receipt exactly if it pays, and with a validation error exactly if that is the first
objection. -/
theorem verdict_of_run (c : Confirmer) (hash : Hash) (expected : Expectation)
    (answer : Instant → (call : Query) → W → Answer W call.Reply) (world : W)
    (cancelAt : Option Instant) (fuel : Nat) :
    (∀ receipt,
        (attempt c hash expected answer world cancelAt fuel).result? 0 = some (.ok receipt) →
        ∃ tx,
          Followed c hash ((attempt c hash expected answer world cancelAt fuel).askedBy 0) tx
            receipt ∧
          Pays c.contracts expected tx receipt) ∧
      ∀ instant deadline receipt tx,
        (attempt c hash expected answer world cancelAt fuel).turn? 0 =
          some (instant, .running deadline (.settled receipt (.ok (some tx)))) →
        Followed c hash ((attempt c hash expected answer world cancelAt fuel).askedBy 0) tx
            receipt ∧
          (Pays c.contracts expected tx receipt ∨
            ∃ e, Objects c.contracts expected tx receipt e) ∧
          ∀ more, fuel < more →
            ((attempt c hash expected answer world cancelAt more).result? 0 =
                some (.ok receipt) ↔ Pays c.contracts expected tx receipt) ∧
              ∀ e, (attempt c hash expected answer world cancelAt more).result? 0 =
                some (.error (.validation e)) ↔ Objects c.contracts expected tx receipt e := by
  refine ⟨fun receipt ok => ?_, fun instant deadline receipt tx reached => ?_⟩
  · have runs : Runs c hash expected (attempt c hash expected answer world cancelAt fuel) :=
      ⟨answer, world, cancelAt, fuel, rfl⟩
    obtain ⟨stage, now, course, done⟩ := ends_of_runs runs ok
    obtain ⟨tx, rfl, hvalid⟩ := checked_of_done done
    exact ⟨tx, followed_of_course course, validate_eq_ok_iff.1 hvalid⟩
  · refine ⟨followed_of_turn? reached, pays_or_objects _ _ _ _, fun more later => ?_⟩
    rw [result_of_turn? reached later, ← validate_eq_ok_iff]
    refine ⟨?_, fun e => ?_⟩
    · cases validate c.contracts expected tx receipt <;> simp
    · rw [← validate_eq_error_iff]
      cases validate c.contracts expected tx receipt <;> simp

namespace Sample

def confirmer : Confirmer := ⟨⟨3, ⟨1⟩, ⟨1000⟩⟩, ⟨1, 2⟩⟩

def expectation : Expectation := ⟨.rtc, some 3⟩

def transfers (token : Address) : Receipt :=
  ⟨some 100, some 1, [⟨2, [transferTopic]⟩, ⟨token, [transferTopic]⟩]⟩

/-- A node that has a transaction after one look and buries it at its second head. The second log
is a transfer of the given token. -/
def node (token : Address) : Rehearsal.Node :=
  { Rehearsal.Node.empty with
    ethereumTransactions :=
      some [⟨⟨0⟩, .ok (some ⟨3, some 1, none⟩)⟩, ⟨⟨0⟩, .ok (some ⟨3, some 1, some 100⟩)⟩]
    receipts := some [⟨⟨0⟩, .ok (some (transfers token))⟩]
    heights := some [⟨⟨0⟩, .ok 101⟩, ⟨⟨0⟩, .ok 103⟩] }

def script : Instant → (call : Query) → Rehearsal.Node → Answer Rehearsal.Node call.Reply :=
  fun _ call node => node.ethereum call

end Sample

open Sample in
/-- A transfer of the platform's token pays, and one of another token is objected to. -/
theorem verdict_of_run_two_tokens :
    (∃ tx,
        Followed confirmer 0
          ((attempt confirmer 0 expectation script (node 2) none 9).askedBy 0) tx
          (transfers 2) ∧
        Pays confirmer.contracts expectation tx (transfers 2)) ∧
      (attempt confirmer 0 expectation script (node 5) none 9).result? 0 =
        some (.error (.validation
          (.unexpectedToken (hexText (2 : Address)) (hexText (5 : Address))))) := by
  have ok : (attempt confirmer 0 expectation script (node 2) none 9).result? 0 =
      some (.ok (transfers 2)) := by
    refine result_of_toOption ?_
    decide +kernel
  have reached : (attempt confirmer 0 expectation script (node 5) none 8).turn? 0 =
      some (1, .running 1000 (.settled (transfers 5) (.ok (some ⟨3, some 1, some 100⟩)))) := rfl
  have objects : Objects confirmer.contracts expectation ⟨3, some 1, some 100⟩ (transfers 5)
      (.unexpectedToken (hexText confirmer.contracts.token)
        (hexText (Log.mk 5 [transferTopic]).address)) := by
    have split : (transfers 5).logs = [⟨2, [transferTopic]⟩] ++ ⟨5, [transferTopic]⟩ :: [] := rfl
    exact .foreign rfl rfl split (by simp [Native, confirmer]) rfl (by decide)
  have pays := (verdict_of_run confirmer 0 expectation script (node 2) none 9).1 _ ok
  have ends := (verdict_of_run confirmer 0 expectation script (node 5) none 8).2 1 1000
    (transfers 5) ⟨3, some 1, some 100⟩ reached
  exact ⟨pays, ((ends.2.2 9 (by decide)).2 _).2 objects⟩

end Confirmer

end Settlement.Ethereum
