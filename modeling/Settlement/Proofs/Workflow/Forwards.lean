import Settlement.Proofs.Verifier.Dash
import Settlement.Proofs.Workflow.Crowd

/-!
# Deposits of a forward behind several payments

A Dash request names the forward whose deposits pay for the payment, and nothing ties the forward to
the payment. Two payments that end confirmed count disjoint deposits where their requests name
different forwards; where they name one forward, they count whatever it has reported to both
(`disjoint_counted_iff`). Requests that name the hash of their payment as the forward are safe.
-/

namespace Settlement.Workflow

open Settlement.System

/-- The deposits that the message at `index` counted, by their transactions. -/
def countedBy (c : Dash.Confirmer) (sys : Desk) (index : Nat) : List String :=
  Dash.counted c.policy.required (dashCalls (sys.askedBy index))

/-- The deposits that were reported to the message at `index`, by their transactions. -/
def reportedTo (sys : Desk) (index : Nat) : List String :=
  Dash.reported (dashCalls (sys.askedBy index))

/-- Different forwards report different deposits. -/
def Separate (calls : List (Nat × Contact)) : Prop :=
  ∀ i j id id' (deposits deposits' : List Dash.Deposit),
    (i, (⟨.dash (.forward id), (.ok deposits : Except ConfirmationError _)⟩ : Contact)) ∈ calls →
    (j, (⟨.dash (.forward id'), (.ok deposits' : Except ConfirmationError _)⟩ : Contact)) ∈ calls →
    id ≠ id' →
    (deposits.map Dash.Deposit.inputHash).Disjoint (deposits'.map Dash.Deposit.inputHash)

section

variable {c : Dash.Confirmer} {body : Nat → ByteArray} {start sys : Desk} {i j : Nat}

theorem dashCalls_checked (asked : List Contact) : dashCalls (checked asked) = dashCalls asked := by
  refine filterMap_checked asked fun call r hother => ?_
  cases call with
  | dash query => simp [Call.isCheck] at hother
  | _ => rfl

/-- A message that ends confirmed counts all deposits that the forward of its request reported. -/
theorem counted_of_result (opening : Opening start)
    (h : Reaches (turns (fun _ => .dash c) body) Store.Answers start sys) {credits : Decimal}
    (ended : sys.result? i = some (.confirmed credits)) :
    ∃ r p, Request.ofBody? .dash (body i) = .ok (.dash r) ∧ p ∈ start.world.payments ∧
      LookedUp (sys.askedBy i) p ∧
      (∀ id r', ⟨.forward id, r'⟩ ∈ dashCalls (sys.askedBy i) → id = r.forwardId) ∧
      (∀ hash, hash ∈ countedBy c sys i ↔ hash ∈ reportedTo sys i) ∧ countedBy c sys i ≠ [] := by
  obtain ⟨request, p, balance, read, hp, -, -, looked, gives, -⟩ :=
    confirmed_of_result opening h ended
  obtain ⟨r, total, rfl, ends⟩ := Verifier.ends_of_gives_dash gives
  rw [dashCalls_checked] at ends
  obtain ⟨own, same, some⟩ := Dash.Confirmer.counted_of_ends ends
  exact ⟨r, p, read, hp, looked, own, same, some⟩

theorem disjoint_reported {f g : String} (separate : Separate sys.calls)
    (hi : ∀ id r, ⟨.forward id, r⟩ ∈ dashCalls (sys.askedBy i) → id = f)
    (hj : ∀ id r, ⟨.forward id, r⟩ ∈ dashCalls (sys.askedBy j) → id = g) (hne : f ≠ g) :
    (reportedTo sys i).Disjoint (reportedTo sys j) := by
  intro hash hhash hhash'
  obtain ⟨id, deposits, hid, hmem⟩ := Dash.mem_reported.1 hhash
  obtain ⟨id', deposits', hid', hmem'⟩ := Dash.mem_reported.1 hhash'
  have hids : id ≠ id' := by
    rw [hi _ _ hid, hj _ _ hid']
    exact hne
  have hcall := mem_askedBy.1 (mem_dashCalls.1 hid)
  have hcall' := mem_askedBy.1 (mem_dashCalls.1 hid')
  exact separate i j id id' deposits deposits' hcall hcall' hids hmem hmem'

/-- Two payments that end confirmed count disjoint deposits exactly if their requests name different
forwards, or the one forward that they name has reported nothing to both. A request that names its
payment's hash as the forward shares its deposits with no other that does. -/
theorem disjoint_counted_iff (c : Dash.Confirmer) (body : Nat → ByteArray) {start sys : Desk}
    (opening : Opening start)
    (h : Reaches (turns (fun _ => .dash c) body) Store.Answers start sys)
    (separate : Separate sys.calls) {i j : Nat} {x y : Decimal}
    (hi : sys.result? i = some (.confirmed x)) (hj : sys.result? j = some (.confirmed y)) :
    ∃ r r' p q, Request.ofBody? .dash (body i) = .ok (.dash r) ∧
      Request.ofBody? .dash (body j) = .ok (.dash r') ∧
      LookedUp (sys.askedBy i) p ∧ LookedUp (sys.askedBy j) q ∧ (i ≠ j → p ≠ q) ∧
      countedBy c sys i ≠ [] ∧ countedBy c sys j ≠ [] ∧
      (∀ hash, hash ∈ countedBy c sys i ↔ hash ∈ reportedTo sys i) ∧
      (∀ hash, hash ∈ countedBy c sys j ↔ hash ∈ reportedTo sys j) ∧
      ((countedBy c sys i).Disjoint (countedBy c sys j) ↔
        (r.forwardId = r'.forwardId → (reportedTo sys i).Disjoint (reportedTo sys j))) ∧
      (r.forwardId = p.txHash → r'.forwardId = q.txHash → i ≠ j →
        (countedBy c sys i).Disjoint (countedBy c sys j)) := by
  obtain ⟨r, p, read, hp, looked, own, same, some⟩ := counted_of_result opening h hi
  obtain ⟨r', q, read', hq, looked', own', same', some'⟩ := counted_of_result opening h hj
  have hne : i ≠ j → p ≠ q := by
    rintro hij rfl
    exact hij (eq_of_ended opening h hi hj looked looked')
  -- what is counted is what was reported, so the reports decide
  have counted : (countedBy c sys i).Disjoint (countedBy c sys j) ↔
      (reportedTo sys i).Disjoint (reportedTo sys j) := by
    constructor
    · intro hd hash hhash hhash'
      exact hd ((same hash).2 hhash) ((same' hash).2 hhash')
    · intro hd hash hhash hhash'
      exact hd ((same hash).1 hhash) ((same' hash).1 hhash')
  have different : r.forwardId ≠ r'.forwardId →
      (reportedTo sys i).Disjoint (reportedTo sys j) := disjoint_reported separate own own'
  refine ⟨r, r', p, q, read, read', looked, looked', hne, some, some', same, same', ?_, ?_⟩
  · rw [counted]
    constructor
    · exact fun hd _ => hd
    · intro hd
      by_cases hforward : r.forwardId = r'.forwardId
      · exact hd hforward
      · exact different hforward
  · intro hr hr' hij
    refine counted.2 (different fun hforward => hne hij ?_)
    exact List.inj_on_of_nodup_map opening.distinct hp hq (hr.symm.trans (hforward.trans hr'))

end

namespace OneForward

def store : Store :=
  Sample.store [Sample.dashPayment 1 "invoice-1", Sample.dashPayment 2 "invoice-2"]

/-- Requests for both payments that name the same forward. -/
def body : Nat → ByteArray
  | 0 => "[1,\"alice\",\"forward\",1]".toUTF8
  | _ => "[1,\"alice\",\"forward\",2]".toUTF8

def last : Desk :=
  play (messages Sample.dashNode (fun _ => .dash Sample.dashConfirmer) body)
    (List.replicate 20 0 ++ List.replicate 20 1) (desk store 2)

def isOnly (call : Nat × Contact) : Bool :=
  match call.2 with
  | ⟨.dash (.forward id), _⟩ => id == "forward"
  | _ => true

def forward? (body : ByteArray) : Option String :=
  match Request.ofBody? .dash body with
  | .ok (.dash r) => some r.forwardId
  | _ => none

theorem forwardId_of_body {n : Nat} {r : DashRequest}
    (read : Request.ofBody? .dash (body n) = .ok (.dash r)) (only : forward? (body n) = "forward") :
    r.forwardId = "forward" := by
  rw [forward?, read] at only
  exact Option.some_inj.1 only

theorem separate_last : Separate last.calls := by
  have only : last.calls.all isOnly = true := by decide +kernel
  rw [List.all_eq_true] at only
  intro i j id id' deposits deposits' hid hid' hne
  have hforward : id = "forward" := eq_of_beq (only _ hid)
  have hforward' : id' = "forward" := eq_of_beq (only _ hid')
  exact absurd (hforward.trans hforward'.symm) hne

end OneForward

open OneForward in
/-- The deposits of one forward may confirm two payments, one request after the other. -/
theorem disjoint_counted_iff_one_forward :
    Opening (desk store 2) ∧
      Reaches (turns (fun _ => .dash Sample.dashConfirmer) body) Store.Answers (desk store 2) last ∧
      Separate last.calls ∧
      last.result? 0 = some (.confirmed ⟨20, 0⟩) ∧ last.result? 1 = some (.confirmed ⟨20, 0⟩) ∧
      (∃ p q, p ≠ q ∧ LookedUp (last.askedBy 0) p ∧ LookedUp (last.askedBy 1) q) ∧
      ¬(countedBy Sample.dashConfirmer last 0).Disjoint
        (countedBy Sample.dashConfirmer last 1) := by
  have opening : Opening (desk store 2) := opening_desk 2 (by decide)
  have h : Reaches (turns (fun _ => .dash Sample.dashConfirmer) body) Store.Answers
      (desk store 2) last := reaches_play (messages_obeys Sample.dashNode _ body) _ _
  have first : last.result? 0 = some (.confirmed ⟨20, 0⟩) := by decide +kernel
  have second : last.result? 1 = some (.confirmed ⟨20, 0⟩) := by decide +kernel
  obtain ⟨r, r', p, q, hr, hr', hp, hq, hne, -, -, -, -, hdisjoint, -⟩ :=
    disjoint_counted_iff Sample.dashConfirmer body opening h separate_last first second
  refine ⟨opening, h, separate_last, first, second, ⟨p, q, hne (by decide), hp, hq⟩, ?_⟩
  rw [hdisjoint]
  have named : r.forwardId = "forward" := forwardId_of_body hr (by decide +kernel)
  have named' : r'.forwardId = "forward" := forwardId_of_body hr' (by decide +kernel)
  have both : "deposit" ∈ reportedTo last 0 ∧ "deposit" ∈ reportedTo last 1 := by decide +kernel
  exact fun hd => hd (named.trans named'.symm) both.1 both.2

end Settlement.Workflow
