import Mathlib.Data.List.Basic
import Settlement.Blockchain
import Settlement.Locks

/-!
# The parts of a lock's key

The parts of a key are separated by colons. The name of a chain has none and neither has a number,
so a key is read from both ends, and what remains between them is the name of the user, whatever
characters it has. So no two payments have one key (`lockKey_eq_iff`).
-/

namespace Settlement

variable {separator : Char} {left left' right right' : List Char}

/-- Texts are the same up to their first separator, and after it. -/
theorem eq_of_first_separator (free : separator ∉ left) (free' : separator ∉ left')
    (h : left ++ separator :: right = left' ++ separator :: right') :
    left = left' ∧ right = right' := by
  induction left generalizing left' with
  | nil =>
      cases left' with
      | nil => exact ⟨rfl, List.tail_eq_of_cons_eq h⟩
      | cons c rest =>
          have hc : separator = c := List.head_eq_of_cons_eq h
          exact absurd (hc ▸ List.mem_cons_self) free'
  | cons c rest ih =>
      cases left' with
      | nil =>
          have hc : c = separator := List.head_eq_of_cons_eq h
          exact absurd (hc ▸ List.mem_cons_self) free
      | cons c' rest' =>
          obtain ⟨rfl, htail⟩ := List.cons.inj h
          obtain ⟨rfl, rfl⟩ := ih (fun hmem => free (List.mem_cons_of_mem _ hmem))
            (fun hmem => free' (List.mem_cons_of_mem _ hmem)) htail
          exact ⟨rfl, rfl⟩

/-- Texts are the same up to their last separator, and after it. -/
theorem eq_of_last_separator (free : separator ∉ right) (free' : separator ∉ right')
    (h : left ++ separator :: right = left' ++ separator :: right') :
    left = left' ∧ right = right' := by
  have hreverse := congrArg List.reverse h
  simp only [List.reverse_append, List.reverse_cons, List.append_assoc, List.singleton_append]
    at hreverse
  obtain ⟨hright, hleft⟩ := eq_of_first_separator (by simpa using free) (by simpa using free')
    hreverse
  exact ⟨List.reverse_injective hleft, List.reverse_injective hright⟩

/-- A number is its digits, after a sign if it is negative. -/
theorem toList_toString_int (n : Int) : (toString n).toList =
    if 0 ≤ n then Nat.toDigits 10 n.toNat else '-' :: Nat.toDigits 10 (-n).toNat := by
  rw [Int.toString_eq_repr, Int.repr_eq_if]
  split
  · exact Nat.toList_repr
  · rw [String.toList_append, Nat.toList_repr]
    rfl

theorem not_mem_toDigits {c : Char} (h : c.isDigit = false) (n : Nat) : c ∉ Nat.toDigits 10 n := by
  intro hmem
  rw [Nat.isDigit_of_mem_toDigits (by decide) (by decide) hmem] at h
  cases h

theorem not_mem_toString_int {c : Char} (digit : c.isDigit = false) (sign : c ≠ '-') (n : Int) :
    c ∉ (toString n).toList := by
  rw [toList_toString_int]
  split
  · exact not_mem_toDigits digit _
  · exact List.not_mem_cons_of_ne_of_not_mem sign (not_mem_toDigits digit _)

theorem toDigits_injective : Function.Injective (Nat.toDigits 10) := by
  intro m n h
  rw [← Nat.ofDigitChars_ten_toDigits (n := m), h, Nat.ofDigitChars_ten_toDigits]

theorem toString_int_injective : Function.Injective (toString : Int → String) := by
  intro m n h
  have hlist := congrArg String.toList h
  rw [toList_toString_int, toList_toString_int] at hlist
  have unsigned : ∀ k : Nat, '-' ∉ Nat.toDigits 10 k := not_mem_toDigits (by decide)
  split at hlist
  next hm =>
    split at hlist
    next hn =>
      have := toDigits_injective hlist
      omega
    next => exact absurd (hlist ▸ List.mem_cons_self) (unsigned _)
  next hm =>
    split at hlist
    next => exact absurd (hlist ▸ List.mem_cons_self) (unsigned _)
    next hn =>
      have := toDigits_injective (List.tail_eq_of_cons_eq hlist)
      omega

theorem toList_lockKey (chain user : String) (number : Int) : (lockKey chain user number).toList =
    "payment-lock:".toList ++
      (chain.toList ++ ':' :: (user.toList ++ ':' :: (toString number).toList)) := by
  have hchain : (toString chain).toList = chain.toList := rfl
  have huser : (toString user).toList = user.toList := rfl
  unfold lockKey
  simp only [String.toList_append, List.append_assoc, hchain, huser]
  rfl

/-- A key tells its parts where the names of the chains have no colon. -/
theorem parts_of_lockKey {chain chain' user user' : String} {number number' : Int}
    (plain : ':' ∉ chain.toList) (plain' : ':' ∉ chain'.toList)
    (h : lockKey chain user number = lockKey chain' user' number') :
    chain = chain' ∧ user = user' ∧ number = number' := by
  have hlist := congrArg String.toList h
  rw [toList_lockKey, toList_lockKey] at hlist
  obtain ⟨hchain, hrest⟩ := eq_of_first_separator plain plain' (List.append_cancel_left hlist)
  have colonFree : ∀ n : Int, ':' ∉ (toString n).toList :=
    not_mem_toString_int (by decide) (by decide)
  obtain ⟨huser, hnumber⟩ := eq_of_last_separator (colonFree number) (colonFree number') hrest
  exact ⟨String.toList_injective hchain, String.toList_injective huser,
    toString_int_injective (String.toList_injective hnumber)⟩

theorem colon_not_mem_name (chain : Blockchain) : ':' ∉ chain.name.toList := by
  cases chain <;> decide

theorem name_injective : Function.Injective Blockchain.name := by
  intro chain chain' h
  cases chain <;> cases chain' <;> simp_all [Blockchain.name]

/-- Keys are the same for the same payment of a chain only. -/
theorem lockKey_eq_iff {chain chain' : Blockchain} {user user' : String} {number number' : Int} :
    lockKey chain.name user number = lockKey chain'.name user' number' ↔
      chain = chain' ∧ user = user' ∧ number = number' := by
  constructor
  · intro h
    obtain ⟨hchain, huser, hnumber⟩ :=
      parts_of_lockKey (colon_not_mem_name chain) (colon_not_mem_name chain') h
    exact ⟨name_injective hchain, huser, hnumber⟩
  · rintro ⟨rfl, rfl, rfl⟩
    rfl

end Settlement
