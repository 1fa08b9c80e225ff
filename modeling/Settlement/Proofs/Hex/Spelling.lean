import Mathlib.Data.Nat.Digits.Lemmas
import Settlement.Hex

/-!
# Spellings of a word

Letters may stand in either case, blanks may stand between the digits and marks before them, so a
word has many texts. What is left when these are evened out is its spelling; two texts stand for one
word exactly if they have one spelling (`eq_iff_spelling`).
-/

namespace Settlement.Hex

/-- Digits of a word without the blanks between them, in lower case. -/
def spelling (cs : List Char) : List Char :=
  (cs.filter fun c => !isBlank c).map Char.toLower

theorem spelling_blank {c : Char} (h : isBlank c = true) (cs : List Char) :
    spelling (c :: cs) = spelling cs := by
  rw [spelling, List.filter_cons_of_neg (by simpa using h), spelling]

theorem spelling_cons {c : Char} (h : isBlank c = false) (cs : List Char) :
    spelling (c :: cs) = c.toLower :: spelling cs := by
  rw [spelling, List.filter_cons_of_pos (by simpa using h), List.map_cons, spelling]

theorem digitChar_of_code :
    ∀ n < 103, (digit? (Char.ofNat n)).all fun d =>
      d < 16 && (Char.ofNat n).toLower == Nat.digitChar d := by
  decide

theorem code_lt_of_digit? {c : Char} {d : Nat} (h : digit? c = some d) : c.toNat < 103 := by
  by_contra hlarge
  have hupper : ∀ x : Char, x.toNat < 103 → ¬c ≤ x := by
    intro x hx hle
    have : c.toNat ≤ x.toNat := hle
    omega
  have hnine : ¬c ≤ '9' := hupper '9' (by decide)
  have hf : ¬c ≤ 'f' := hupper 'f' (by decide)
  have hF : ¬c ≤ 'F' := hupper 'F' (by decide)
  have hdigit : c.isDigit = false := by
    rw [Char.isDigit, Bool.and_eq_false_iff]
    exact .inr (decide_eq_false hnine)
  simp [digit?, hdigit, hf, hF] at h

/-- A digit in lower case is the one that its value is written with. -/
theorem digitChar_of_digit? {c : Char} {d : Nat} (h : digit? c = some d) :
    d < 16 ∧ c.toLower = Nat.digitChar d := by
  have code := digitChar_of_code c.toNat (code_lt_of_digit? h)
  rw [Char.ofNat_toNat, h, Option.all_some, Bool.and_eq_true] at code
  exact ⟨of_decide_eq_true code.1, eq_of_beq code.2⟩

theorem digit?_digitChar {d : Nat} (h : d < 16) : digit? (Nat.digitChar d) = some d := by
  have all : ∀ n < 16, digit? (Nat.digitChar n) = some n := by decide
  exact all d h

/-- The digits of a word, in either case. -/
theorem digit?_isSome_iff {c : Char} :
    (digit? c).isSome = true ↔ c ∈ "0123456789abcdefABCDEF".toList := by
  constructor
  · intro h
    obtain ⟨d, hd⟩ := Option.isSome_iff_exists.1 h
    have all : ∀ n < 103, (digit? (Char.ofNat n)).isSome = true →
        Char.ofNat n ∈ "0123456789abcdefABCDEF".toList := by
      decide +kernel
    have code := all c.toNat (code_lt_of_digit? hd)
    rw [Char.ofNat_toNat] at code
    exact code h
  · have all : ∀ c ∈ "0123456789abcdefABCDEF".toList, (digit? c).isSome = true := by
      simp [digit?]
    exact all c

/-- The digits are read back from their text. -/
theorem digits_of_text {ds : List Nat} (h : ∀ d ∈ ds, d < 16) :
    (ds.map Nat.digitChar).map digit? = ds.map some := by
  rw [List.map_map]
  exact List.map_congr_left fun d hd => digit?_digitChar (h d hd)

/-- What is read is the value of digits that spell the text, behind those read before. -/
theorem digits_ok {wanted : Nat} {cs : List Char} :
    ∀ (before : List Nat) {position value : Nat},
      digits wanted ⟨Nat.ofDigits 16 before, before.length⟩ position cs = .ok value →
      ∃ ds : List Nat, (∀ d ∈ ds, d < 16) ∧ spelling cs = ds.map Nat.digitChar ∧
        ds.length + before.length = wanted ∧ value = Nat.ofDigits 16 (ds.reverse ++ before) := by
  -- `before` is what was read, last digit first, as `Nat.ofDigits` takes it
  induction cs with
  | nil =>
      intro before position value h
      rw [digits] at h
      split at h
      next hcount =>
        cases h
        exact ⟨[], by simp, rfl, by simpa using hcount, rfl⟩
      next => cases h
  | cons c cs ih =>
      intro before position value h
      rw [digits] at h
      split at h
      next hblank =>
        obtain ⟨ds, hsmall, hspell, hlength, hvalue⟩ := ih before h
        exact ⟨ds, hsmall, by rw [spelling_blank hblank, hspell], hlength, hvalue⟩
      next hblank =>
        split at h
        next => cases h
        next =>
          split at h
          next => cases h
          next d hd =>
            obtain ⟨hlt, hlower⟩ := digitChar_of_digit? hd
            have push : Nat.ofDigits 16 before * 16 + d = Nat.ofDigits 16 (d :: before) := by
              rw [Nat.ofDigits_cons]
              ring
            rw [push] at h
            obtain ⟨ds, hsmall, hspell, hlength, hvalue⟩ := ih (d :: before) h
            refine ⟨d :: ds, ?_, ?_, ?_, ?_⟩
            · exact List.forall_mem_cons.2 ⟨hlt, hsmall⟩
            · rw [spelling_cons (by simpa using hblank), hspell, hlower, List.map_cons]
            · rw [List.length_cons] at hlength ⊢
              omega
            · rw [hvalue, List.reverse_cons, List.append_assoc, List.singleton_append]

theorem digits_of_word? {bits : Nat} {cs : List Char} {word : BitVec bits}
    (h : word? bits cs = .ok word) :
    ∃ value, digits (bits / 4) ⟨0, 0⟩ 0 (withoutMark cs) = .ok value ∧
      word = BitVec.ofNat bits value := by
  unfold word? at h
  cases hvalue : digits (bits / 4) ⟨0, 0⟩ 0 (withoutMark cs) with
  | error fault =>
      rw [hvalue] at h
      cases h
  | ok value =>
      rw [hvalue] at h
      cases h
      exact ⟨value, rfl, rfl⟩

/-- A word is the value of the digits that spell its text. -/
theorem word?_ok {bits : Nat} {cs : List Char} {word : BitVec bits} (h : word? bits cs = .ok word) :
    ∃ ds : List Nat, (∀ d ∈ ds, d < 16) ∧ spelling (withoutMark cs) = ds.map Nat.digitChar ∧
      ds.length = bits / 4 ∧ word.toNat = Nat.ofDigits 16 ds.reverse := by
  obtain ⟨value, hvalue, rfl⟩ := digits_of_word? h
  obtain ⟨ds, hsmall, hspell, hlength, rfl⟩ := digits_ok [] hvalue
  have hlt : Nat.ofDigits 16 ds.reverse < 2 ^ bits := by
    calc Nat.ofDigits 16 ds.reverse
        < 16 ^ ds.reverse.length := by
          refine Nat.ofDigits_lt_base_pow_length (by decide) fun d hd => ?_
          exact hsmall d (List.mem_reverse.1 hd)
      _ = 2 ^ (4 * (bits / 4)) := by
          rw [List.length_reverse, ← hlength, List.length_nil, Nat.add_zero, Nat.pow_mul]
      _ ≤ 2 ^ bits := Nat.pow_le_pow_right (by decide) (Nat.mul_div_le bits 4)
  refine ⟨ds, hsmall, hspell, by simpa using hlength, ?_⟩
  rw [List.append_nil, BitVec.toNat_ofNat, Nat.mod_eq_of_lt hlt]

/-- A text is read if there are digits in it and blanks, and nothing else, and as many digits as
are wanted with those read before. -/
theorem digits_isOk_iff {wanted : Nat} {cs : List Char} :
    ∀ {r : Reading} {position : Nat}, (∃ value, digits wanted r position cs = .ok value) ↔
      (∀ c ∈ cs, isBlank c = false → (digit? c).isSome = true) ∧
        r.count + (cs.filter fun c => !isBlank c).length = wanted := by
  induction cs with
  | nil =>
      intro r position
      rw [digits]
      split
      next hcount => exact iff_of_true ⟨_, rfl⟩ ⟨nofun, hcount⟩
      next hcount => exact iff_of_false nofun fun h => hcount h.2
  | cons c cs ih =>
      intro r position
      rw [digits, List.forall_mem_cons]
      split
      next hblank => rw [ih, List.filter_cons_of_neg (by simpa using hblank)]; simp [hblank]
      next hblank =>
        rw [List.filter_cons_of_pos (by simpa using hblank), List.length_cons]
        split
        next hfull => exact iff_of_false nofun fun h => by omega
        next =>
          split
          next hdigit => simp [hblank, hdigit]
          next d hdigit =>
            rw [ih, Nat.add_right_comm, Nat.add_assoc]
            simp [hblank, hdigit]

/-- A text stands for a word of `bits` bits if, behind a mark that it may have, it has a digit for
each four of them, and nothing but blanks between them. -/
theorem word?_isOk_iff {bits : Nat} {cs : List Char} :
    (∃ word, word? bits cs = .ok word) ↔
      (∀ c ∈ withoutMark cs, isBlank c = false → c ∈ "0123456789abcdefABCDEF".toList) ∧
        ((withoutMark cs).filter fun c => !isBlank c).length = bits / 4 := by
  have read : (∃ word, word? bits cs = .ok word) ↔
      ∃ value, digits (bits / 4) ⟨0, 0⟩ 0 (withoutMark cs) = .ok value := by
    unfold word?
    cases digits (bits / 4) ⟨0, 0⟩ 0 (withoutMark cs) with
    | error fault => exact iff_of_false nofun nofun
    | ok value => exact iff_of_true ⟨_, rfl⟩ ⟨_, rfl⟩
  rw [read, digits_isOk_iff, Nat.zero_add]
  simp only [digit?_isSome_iff]

/-- Two texts stand for one word exactly if they have one spelling. -/
theorem eq_iff_spelling {bits : Nat} {cs cs' : List Char} {word word' : BitVec bits}
    (h : word? bits cs = .ok word) (h' : word? bits cs' = .ok word') :
    word = word' ↔ spelling (withoutMark cs) = spelling (withoutMark cs') := by
  obtain ⟨ds, hsmall, hspell, hlength, hvalue⟩ := word?_ok h
  obtain ⟨ds', hsmall', hspell', hlength', hvalue'⟩ := word?_ok h'
  have same : word = word' ↔ ds = ds' := by
    constructor
    · rintro rfl
      have hreverse : ds.reverse = ds'.reverse := by
        refine Nat.ofDigits_inj_of_len_eq (b := 16) (by decide) ?_ ?_ ?_ ?_
        · rw [List.length_reverse, List.length_reverse, hlength, hlength']
        · exact fun d hd => hsmall d (List.mem_reverse.1 hd)
        · exact fun d hd => hsmall' d (List.mem_reverse.1 hd)
        · exact hvalue.symm.trans hvalue'
      exact List.reverse_injective hreverse
    · rintro rfl
      exact BitVec.eq_of_toNat_eq (hvalue.trans hvalue'.symm)
  rw [same, hspell, hspell']
  constructor
  · rintro rfl
    rfl
  · intro hmap
    have hdigits : ds.map some = ds'.map some := by
      rw [← digits_of_text hsmall, hmap, digits_of_text hsmall']
    exact List.map_injective_iff.2 (Option.some_injective Nat) hdigits

theorem withoutMark_withoutMarks (cs : List Char) :
    withoutMark (withoutMarks cs) = withoutMarks cs := by
  fun_induction withoutMarks cs with
  | case1 rest ih => exact ih
  | case2 cs hmark =>
      unfold withoutMark
      split
      next rest => exact (hmark rest rfl).elim
      next => rfl

end Settlement.Hex
