import Settlement.Proofs.Hex.Spelling
import Settlement.Proofs.Verifier.Ethereum
import Settlement.Proofs.Workflow.Crowd

/-!
# An Ethereum transaction behind several payments

The store keeps the hashes of payments apart as texts, and an Ethereum payment is verified by the
word that its text stands for. Two payments that end confirmed were verified by one hash exactly if
their texts have one spelling (`hash_eq_iff_spelling`), and no payment is verified by the hash of
another where the hashes are kept as they are written out.
-/

namespace Settlement.Workflow

open Settlement.System

section

variable {c : Ethereum.Confirmer} {attempts : Nat} {retryPause : Duration}
  {body : Nat → ByteArray} {start sys : Desk} {i : Nat}

theorem hashes_checked (asked : List Contact) : hashes (checked asked) = hashes asked := by
  refine filterMap_checked asked fun call r hother => ?_
  cases call with
  | ethereum query => simp [Call.isCheck] at hother
  | _ => rfl

theorem word_of_paymentHash {p : Payment} {hash : Hash}
    (h : Verifier.paymentHash p = .ok hash) :
    Hex.word? 256 (Hex.withoutMarks p.txHash.toList) = .ok hash := by
  unfold Verifier.paymentHash at h
  split at h
  next word hword =>
    cases h
    exact hword
  next => cases h

theorem paymentHash_eq_iff {p q : Payment} {a b : Hash} (ha : Verifier.paymentHash p = .ok a)
    (hb : Verifier.paymentHash q = .ok b) :
    a = b ↔ Hex.spelling (Hex.withoutMarks p.txHash.toList) =
      Hex.spelling (Hex.withoutMarks q.txHash.toList) := by
  rw [Hex.eq_iff_spelling (word_of_paymentHash ha) (word_of_paymentHash hb),
    Hex.withoutMark_withoutMarks, Hex.withoutMark_withoutMarks]

/-- A message that ends confirmed has asked the node about the hash of its payment alone. -/
theorem hash_of_result (opening : Opening start)
    (h : Reaches (turns (fun _ => .ethereum c attempts retryPause) body) Store.Answers start sys)
    {credits : Decimal} (ended : sys.result? i = some (.confirmed credits)) :
    ∃ p a, p ∈ start.world.payments ∧ LookedUp (sys.askedBy i) p ∧
      Verifier.paymentHash p = .ok a ∧ ∀ w, w ∈ hashes (sys.askedBy i) ↔ w = a := by
  obtain ⟨request, p, balance, -, hp, -, -, looked, gives, -⟩ :=
    confirmed_of_result opening h ended
  obtain ⟨a, ha, asked⟩ := Verifier.hashes_of_gives gives
  rw [hashes_checked] at asked
  exact ⟨p, a, hp, looked, ha, asked⟩

/-- Two payments that end confirmed were verified by one hash exactly if the texts of their hashes
have one spelling. Where both texts are the ones that the hashes are written with, they were not. -/
theorem hash_eq_iff_spelling (c : Ethereum.Confirmer) (attempts : Nat) (retryPause : Duration)
    (body : Nat → ByteArray) {start sys : Desk} (opening : Opening start)
    (h : Reaches (turns (fun _ => .ethereum c attempts retryPause) body) Store.Answers start sys)
    {i j : Nat} {x y : Decimal} (hi : sys.result? i = some (.confirmed x))
    (hj : sys.result? j = some (.confirmed y)) :
    ∃ p q a b, LookedUp (sys.askedBy i) p ∧ LookedUp (sys.askedBy j) q ∧
      (i ≠ j → p.txHash ≠ q.txHash) ∧
      Verifier.paymentHash p = .ok a ∧ Verifier.paymentHash q = .ok b ∧
      (∀ w, w ∈ hashes (sys.askedBy i) ↔ w = a) ∧ (∀ w, w ∈ hashes (sys.askedBy j) ↔ w = b) ∧
      (a = b ↔ Hex.spelling (Hex.withoutMarks p.txHash.toList) =
        Hex.spelling (Hex.withoutMarks q.txHash.toList)) ∧
      (p.txHash = hexText a → q.txHash = hexText b → i ≠ j → a ≠ b) := by
  obtain ⟨p, a, hp, looked, ha, asked⟩ := hash_of_result opening h hi
  obtain ⟨q, b, hq, looked', hb, asked'⟩ := hash_of_result opening h hj
  have hne : i ≠ j → p.txHash ≠ q.txHash := by
    intro hij htext
    obtain rfl := List.inj_on_of_nodup_map opening.distinct hp hq htext
    exact hij (eq_of_ended opening h hi hj looked looked')
  refine ⟨p, q, a, b, looked, looked', hne, ha, hb, asked, asked', paymentHash_eq_iff ha hb, ?_⟩
  rintro hpa hqb hij rfl
  exact hne hij (hpa.trans hqb.symm)

end

namespace OneTransaction

def payment (number : Int) (digit : Char) : Payment :=
  ⟨number, "alice", String.ofList ('0' :: 'x' :: List.replicate 64 digit), .ethereum, .native,
    ⟨0, 0⟩, ⟨20, 0⟩, false, ⟨0, 0⟩⟩

/-- Payments with one hash, in lower case and in upper case. -/
def store : Store := Sample.store [payment 1 'a', payment 2 'A']

def node : Rehearsal.Node :=
  { Rehearsal.Node.empty with
    ethereumTransactions := some [⟨⟨0⟩, .ok (some ⟨3, some 1, some 100⟩)⟩]
    receipts := some [⟨⟨0⟩, .ok (some ⟨some 100, some 1, [⟨1, []⟩]⟩)⟩]
    heights := some [⟨⟨0⟩, .ok 103⟩] }

def confirmer : Ethereum.Confirmer := ⟨⟨3, ⟨1⟩, ⟨1000⟩⟩, ⟨1, 2⟩⟩

def body : Nat → ByteArray
  | 0 => "[1,\"alice\",1]".toUTF8
  | _ => "[1,\"alice\",2]".toUTF8

def last : Desk :=
  play (messages node (fun _ => .ethereum confirmer 1 ⟨0⟩) body)
    (List.replicate 20 0 ++ List.replicate 20 1) (desk store 2)

end OneTransaction

open OneTransaction in
/-- One transaction may confirm two payments. -/
theorem hash_eq_iff_spelling_two_cases :
    Opening (desk store 2) ∧
      Reaches (turns (fun _ => .ethereum confirmer 1 ⟨0⟩) body) Store.Answers (desk store 2) last ∧
      last.result? 0 = some (.confirmed ⟨20, 0⟩) ∧ last.result? 1 = some (.confirmed ⟨20, 0⟩) ∧
      ∃ p q a, p ≠ q ∧ LookedUp (last.askedBy 0) p ∧ LookedUp (last.askedBy 1) q ∧
        (∀ w, w ∈ hashes (last.askedBy 0) ↔ w = a) ∧
        (∀ w, w ∈ hashes (last.askedBy 1) ↔ w = a) := by
  have opening : Opening (desk store 2) := opening_desk 2 (by decide)
  have h : Reaches (turns (fun _ => .ethereum confirmer 1 ⟨0⟩) body) Store.Answers
      (desk store 2) last := reaches_play (messages_obeys node _ body) _ _
  have first : last.result? 0 = some (.confirmed ⟨20, 0⟩) := by decide +kernel
  have second : last.result? 1 = some (.confirmed ⟨20, 0⟩) := by decide +kernel
  obtain ⟨p, q, a, -, hp, hq, hne, -, -, asked, -, -, -⟩ :=
    hash_eq_iff_spelling confirmer 1 ⟨0⟩ body opening h first second
  have same : hashes (last.askedBy 1) = hashes (last.askedBy 0) := by decide +kernel
  refine ⟨opening, h, first, second, p, q, a, ?_, hp, hq, asked, ?_⟩
  · rintro rfl
    exact hne (by decide) rfl
  · rw [same]
    exact asked

end Settlement.Workflow
