import Settlement.Proofs.Json.Written

/-!
# Reading what is written

Every written text is read as the document that it means (`parse_written`), whatever its white
space, its digits and its escapes are. A number has no end of its own, so what follows a value has
to stop it (`Stops`): white space, a comma, a bracket or a brace, or the end of the text.
-/

namespace Settlement.Json

/-- A number ends before the glyphs. -/
def Stops (rest : List Glyph) : Prop :=
  ∀ g ∈ rest.head?, isSpace g = true ∨ g = some ',' ∨ g = some ']' ∨ g = some '\x7d'

theorem stops_nil : Stops [] := nofun

theorem stops_gap {gap : Gap} {rest : List Glyph} (h : Stops rest) : Stops (gap.1 ++ rest) := by
  obtain ⟨gap, blank⟩ := gap
  cases gap with
  | nil => exact h
  | cons g gap =>
      intro g' hg
      obtain rfl := Option.some.inj hg
      exact Or.inl (blank _ List.mem_cons_self)

theorem skipSpace_gap (gap : Gap) (rest : List Glyph) :
    skipSpace (gap.1 ++ rest) = skipSpace rest :=
  List.dropWhile_append_of_pos gap.2

theorem skipSpace_cons {g : Glyph} {rest : List Glyph} (h : isSpace g = false) :
    skipSpace (g :: rest) = g :: rest :=
  List.dropWhile_cons_of_neg (by simpa using h)

/-! ## Words and numbers -/

theorem scanWord_append (doc : Doc) (word : List Char) (rest : List Glyph) :
    scanWord doc word (word.map some ++ rest) = (doc, some rest) := by
  induction word with
  | nil => cases rest <;> rfl
  | cons c word ih => simpa [scanWord] using ih

theorem digitOf?_isDigit {c : Char} (h : c.isDigit = true) :
    digitOf? (some c) = some (digitValue c) := by
  simp [digitOf?, h, digitValue]

theorem takeDigits_append {ds : List Char} (h : ∀ c ∈ ds, c.isDigit = true) {rest : List Glyph}
    (stop : ∀ g ∈ rest.head?, digitOf? g = none) :
    takeDigits (ds.map some ++ rest) = (ds.map digitValue, rest) := by
  induction ds with
  | nil =>
      cases rest with
      | nil => rfl
      | cons g rest => simp [takeDigits, stop g rfl]
  | cons c ds ih =>
      have hc := h c List.mem_cons_self
      simp [takeDigits, digitOf?_isDigit hc, ih fun d hd => h d (List.mem_cons_of_mem _ hd)]

/-- A glyph behind which no number goes on. -/
theorem digitOf?_of_stops {rest : List Glyph} (h : Stops rest) :
    ∀ g ∈ rest.head?, digitOf? g = none ∧ g ≠ some '.' ∧ g ≠ some 'e' ∧ g ≠ some 'E' := by
  intro g hg
  rcases h g hg with hspace | rfl | rfl | rfl
  · match g with
    | none => simp [isSpace] at hspace
    | some c =>
        simp only [isSpace, Bool.or_eq_true, beq_iff_eq] at hspace
        rcases hspace with ((rfl | rfl) | rfl) | rfl <;> decide
  all_goals decide

theorem scanExponent_none {rest : List Glyph} (h : Stops rest) :
    scanExponent rest = .ok (none, rest) := by
  have hhead := digitOf?_of_stops h
  unfold scanExponent
  split
  · exact absurd rfl (hhead _ rfl).2.2.1
  · exact absurd rfl (hhead _ rfl).2.2.2
  · rfl

theorem scanExponent_chars (e : WrittenExponent) {rest : List Glyph} (h : Stops rest) :
    scanExponent (e.chars.map some ++ rest) =
      .ok (some (e.sign == some true, e.digits.map digitValue), rest) := by
  have hdigits : takeDigits (e.digits.map some ++ rest) = (e.digits.map digitValue, rest) :=
    takeDigits_append e.isDigit fun g hg => (digitOf?_of_stops h g hg).1
  obtain ⟨c, cs, hcs⟩ := List.exists_cons_of_ne_nil e.digits_ne
  have hc : c.isDigit = true := e.isDigit c (hcs ▸ List.mem_cons_self)
  have hplus : c ≠ '+' := by
    rintro rfl
    cases hc
  have hminus : c ≠ '-' := by
    rintro rfl
    cases hc
  rw [WrittenExponent.chars]
  rw [hcs] at hdigits ⊢
  simp only [List.map_cons, List.cons_append] at hdigits
  cases e.capital <;> rcases e.sign with - | _ | _ <;>
    simp [WrittenExponent.signChars, scanExponent, hplus, hminus, hdigits]

namespace WrittenNumber

/-- What follows the whole digits goes on with neither a digit nor a second point. -/
theorem exponentChars_head (e : Option WrittenExponent) {rest : List Glyph} (h : Stops rest) :
    ∀ g ∈ ((exponentChars e).map some ++ rest).head?, digitOf? g = none ∧ g ≠ some '.' := by
  cases e with
  | none => exact fun g hg => ⟨(digitOf?_of_stops h g hg).1, (digitOf?_of_stops h g hg).2.1⟩
  | some e =>
      intro g hg
      cases hcapital : e.capital <;>
        simp only [exponentChars, WrittenExponent.chars, hcapital, List.map_cons, List.cons_append,
          List.head?_cons, Option.mem_some_iff, if_true, if_false, Bool.false_eq_true] at hg <;>
        subst hg <;> decide

theorem scanExponent_append (e : Option WrittenExponent) {rest : List Glyph} (h : Stops rest) :
    scanExponent ((exponentChars e).map some ++ rest) =
      .ok (e.map fun e => (e.sign == some true, e.digits.map digitValue), rest) := by
  cases e with
  | none => exact scanExponent_none h
  | some e => exact scanExponent_chars e h

theorem scanFraction_append {fraction : List Char} (digits : ∀ c ∈ fraction, c.isDigit = true)
    {rest : List Glyph} (h : ∀ g ∈ rest.head?, digitOf? g = none ∧ g ≠ some '.') :
    scanFraction ((fractionChars fraction).map some ++ rest) =
      .ok (fraction.map digitValue, rest) := by
  cases fraction with
  | nil =>
      rw [fractionChars, List.isEmpty_nil, if_pos rfl, List.map_nil, List.nil_append]
      unfold scanFraction
      split
      · exact absurd rfl (h _ rfl).2
      · rfl
  | cons c cs =>
      have htake := takeDigits_append digits fun g hg => (h g hg).1
      simp only [List.map_cons, List.cons_append] at htake
      simp [fractionChars, scanFraction, htake]

theorem fractionChars_head (fraction : List Char) {rest : List Glyph}
    (h : ∀ g ∈ rest.head?, digitOf? g = none) :
    ∀ g ∈ ((fractionChars fraction).map some ++ rest).head?, digitOf? g = none := by
  cases fraction with
  | nil => exact h
  | cons c cs =>
      intro g hg
      obtain rfl := Option.some.inj hg
      decide

theorem scanNumeral_append (n : WrittenNumber) {rest : List Glyph} (h : Stops rest) :
    scanNumeral n.negative (n.unsigned.map some ++ rest) = .ok (n.numeral, rest) := by
  have hwhole : ∀ c ∈ n.whole, c.isDigit = true := fun c hc =>
    n.isDigit c (List.mem_append_left _ hc)
  have hfraction : ∀ c ∈ n.fraction, c.isDigit = true := fun c hc =>
    n.isDigit c (List.mem_append_right _ hc)
  have hexponent := exponentChars_head n.exponent h
  have htake := takeDigits_append hwhole
    (fractionChars_head n.fraction fun g hg => (hexponent g hg).1)
  have hscan := scanFraction_append hfraction hexponent
  rw [scanNumeral, unsigned]
  simp only [List.map_append, List.append_assoc]
  rw [htake]
  have hleading := n.leading
  obtain ⟨c, cs, hcs⟩ := List.exists_cons_of_ne_nil n.whole_ne
  have hc : c.isDigit = true := hwhole c (hcs ▸ List.mem_cons_self)
  simp only [hcs, List.map_cons]
  split
  next heq => cases heq
  next d ds tail heq =>
    simp only [Prod.mk.injEq, List.cons.injEq] at heq
    have hzero : c = '0' := by
      have hval := heq.1.1
      have hle := (Char.isDigit_iff_toNat.1 hc).1
      rw [digitValue] at hval
      exact Char.toNat_inj.1 (by omega)
    rw [hcs, hzero] at hleading
    have hnil := (List.cons.inj (hleading rfl)).2
    rw [hnil] at heq
    cases heq.1.2
  next whole tail hne hzero heq =>
    obtain ⟨rfl, rfl⟩ := Prod.mk.inj heq
    rw [hscan]
    simp only [bind, Except.bind]
    rw [scanExponent_append n.exponent h]
    simp [pure, Except.pure, numeral, hcs]

/-- A number without a minus sign starts with a digit. -/
theorem scanNumber_unsigned (n : WrittenNumber) (positive : n.negative = false)
    (rest : List Glyph) :
    scanNumber (n.chars.map some ++ rest) =
      match scanNumeral n.negative (n.unsigned.map some ++ rest) with
      | .error broken => (broken, none)
      | .ok (numeral, rest) =>
        match numeral.number? with
        | some x => (.number (.ok x), some rest)
        | none => (.number (.error .malformed), some rest) := by
  obtain ⟨c, cs, hcs⟩ := List.exists_cons_of_ne_nil n.whole_ne
  have hc : c.isDigit = true := n.isDigit c (by simp [hcs])
  have hminus : ∀ tail tail', (some c :: tail : List Glyph) = some '-' :: tail' → False := by
    intro tail tail' heq
    obtain rfl := Option.some.inj (List.cons.inj heq).1
    cases hc
  rw [chars, if_neg (by simp [positive]), positive, unsigned, hcs, List.cons_append, List.map_cons,
    List.cons_append]
  exact scanNumber.eq_2 _ (hminus _)

/-- A written number is read as the number that it means. -/
theorem scanNumber_append (n : WrittenNumber) {rest : List Glyph} (h : Stops rest) :
    scanNumber (n.chars.map some ++ rest) = (n.doc, some rest) := by
  have hscan := scanNumeral_append n h
  cases hnegative : n.negative with
  | true =>
      rw [hnegative] at hscan
      simp only [scanNumber, chars, hnegative, if_true, List.map_cons, List.cons_append, hscan, doc]
      cases n.numeral.number? <;> rfl
  | false =>
      rw [scanNumber_unsigned n hnegative, hscan]
      simp only [doc]
      cases n.numeral.number? <;> rfl

end WrittenNumber

/-! ## Strings -/

theorem hexEscape_append (u : CodeUnit) (rest : List Glyph) :
    hexEscape (u.glyphs ++ rest) = .ok (u.value, rest) := by
  have hdigit : ∀ i, hexDigit? (some (u.digits i)) = some (u.digit i) := fun i =>
    (Option.some_get (u.hex i)).symm
  simp [CodeUnit.glyphs, hexEscape, hdigit, CodeUnit.value]

theorem codeEscape_single {u : CodeUnit} (high : ¬u.IsHigh) (low : ¬u.IsLow) (rest : List Glyph) :
    codeEscape (u.glyphs ++ rest) = .ok (Char.ofNat u.value, rest) := by
  unfold CodeUnit.IsHigh at high
  unfold CodeUnit.IsLow at low
  simp only [codeEscape, hexEscape_append, bind, Except.bind, Bool.and_eq_true, decide_eq_true_eq]
  rw [if_neg low, if_neg high]
  rfl

theorem codeEscape_pair {u v : CodeUnit} (high : u.IsHigh) (low : v.IsLow) (rest : List Glyph) :
    codeEscape (u.glyphs ++ some '\\' :: some 'u' :: (v.glyphs ++ rest)) =
      .ok ((Piece.pair u v high low).char, rest) := by
  have hlow : lowSurrogate (some '\\' :: some 'u' :: (v.glyphs ++ rest)) = .ok (v.value, rest) := by
    simp only [lowSurrogate, hexEscape_append, bind, Except.bind, Bool.and_eq_true,
      decide_eq_true_eq]
    exact if_pos low
  have hbelow : ¬(0xDC00 ≤ u.value ∧ u.value < 0xE000) := fun h =>
    absurd (Nat.lt_of_lt_of_le high.2 h.1) (Nat.lt_irrefl _)
  simp only [codeEscape, hexEscape_append, bind, Except.bind, Bool.and_eq_true, decide_eq_true_eq,
    hlow]
  rw [if_neg hbelow]
  exact if_pos high

/-- A piece of a string is read in one step. -/
theorem scanString_piece (p : Piece) (fuel : Nat) (s : Scanned) (rest : List Glyph) :
    scanString (fuel + 1) s (p.glyphs ++ rest) = scanString fuel (s.push p.char) rest := by
  cases p with
  | plain c h =>
      simp only [isPlain, Bool.and_eq_true, decide_eq_true_eq, bne_iff_ne] at h
      obtain ⟨⟨hspace, hquote⟩, hslash⟩ := h
      simp [Piece.glyphs, Piece.char, scanString, hslash, Char.not_lt.2 hspace]
  | letter l c h =>
      have hu : l ≠ 'u' := by
        rintro rfl
        cases h
      simp [Piece.glyphs, Piece.char, scanString, hu, h]
  | code u high low =>
      simp [Piece.glyphs, Piece.char, scanString, hexEscape_append, codeEscape_single high low]
  | pair u v high low =>
      simp [Piece.glyphs, scanString, hexEscape_append, codeEscape_pair high low]

theorem scanString_glyphs (s : WrittenString) (rest : List Glyph) :
    ∀ (fuel : Nat) (before : List Char), s.length < fuel →
      scanString fuel ⟨before, false, none⟩ (WrittenString.glyphs s ++ some '"' :: rest) =
        .closed (.ok (String.ofList (before.reverse ++ s.map Piece.char))) rest := by
  induction s with
  | nil =>
      intro fuel before hfuel
      obtain ⟨fuel, rfl⟩ := Nat.exists_eq_add_of_lt hfuel
      simp [WrittenString.glyphs, scanString, Scanned.content]
  | cons p s ih =>
      intro fuel before hfuel
      obtain ⟨fuel, rfl⟩ : ∃ n, fuel = n + 1 := ⟨fuel - 1, by rw [List.length_cons] at hfuel; omega⟩
      have hlength : s.length < fuel := by
        rw [List.length_cons] at hfuel
        omega
      rw [WrittenString.glyphs, List.flatMap_cons, List.append_assoc, scanString_piece]
      rw [Scanned.push, ← WrittenString.glyphs, ih fuel _ hlength]
      simp

theorem length_le_glyphs (s : WrittenString) : s.length ≤ (WrittenString.glyphs s).length := by
  induction s with
  | nil => exact Nat.zero_le _
  | cons p s ih =>
      have hp : 1 ≤ p.glyphs.length := by cases p <;> simp [Piece.glyphs]
      rw [WrittenString.glyphs, List.flatMap_cons, List.length_append, ← WrittenString.glyphs,
        List.length_cons]
      omega

/-- A written string is read as the text that it means. -/
theorem string_glyphs (s : WrittenString) (rest : List Glyph) :
    string (WrittenString.glyphs s ++ some '"' :: rest) =
      .closed (.ok (WrittenString.text s)) rest := by
  have hlength := length_le_glyphs s
  refine scanString_glyphs s rest _ [] ?_
  rw [List.length_append]
  omega

/-! ## Values -/

theorem stops_items (items : WrittenItems) (rest : List Glyph) :
    Stops (items.glyphs false ++ rest) := by
  cases items with
  | close gap =>
      rw [WrittenItems.glyphs, List.append_assoc]
      exact stops_gap fun g hg => Or.inr (Or.inr (Or.inl (Option.some.inj hg).symm))
  | cons gap before item items =>
      rw [WrittenItems.glyphs, List.append_assoc]
      exact stops_gap fun g hg => Or.inr (Or.inl (Option.some.inj hg).symm)

theorem stops_fields (fields : WrittenFields) (rest : List Glyph) :
    Stops (fields.glyphs false ++ rest) := by
  cases fields with
  | close gap =>
      rw [WrittenFields.glyphs, List.append_assoc]
      exact stops_gap fun g hg => Or.inr (Or.inr (Or.inr (Option.some.inj hg).symm))
  | cons gap before key colon behind value fields =>
      rw [WrittenFields.glyphs, List.append_assoc]
      exact stops_gap fun g hg => Or.inr (Or.inl (Option.some.inj hg).symm)

/-- A number starts with its sign or with a digit. -/
theorem WrittenNumber.exists_head (n : WrittenNumber) :
    ∃ c cs, n.chars = c :: cs ∧ (c = '-' ∨ c.isDigit = true) := by
  obtain ⟨c, cs, hcs⟩ := List.exists_cons_of_ne_nil n.whole_ne
  cases hnegative : n.negative with
  | true => exact ⟨'-', n.unsigned, by simp [chars, hnegative], Or.inl rfl⟩
  | false =>
      refine ⟨c, cs ++ (fractionChars n.fraction ++ exponentChars n.exponent), ?_,
        Or.inr (n.isDigit c (by simp [hcs]))⟩
      simp only [chars, hnegative, Bool.false_eq_true, if_false, unsigned, hcs, List.cons_append]

theorem isSpace_of_number {c : Char} (h : c = '-' ∨ c.isDigit = true) :
    isSpace (some c) = false := by
  rcases h with rfl | h
  · decide
  · rw [Char.isDigit_iff_toNat] at h
    simp only [isSpace, Bool.or_eq_false_iff, beq_eq_false_iff_ne]
    refine ⟨⟨⟨?_, ?_⟩, ?_⟩, ?_⟩ <;>
      · rintro rfl
        exact absurd h (by decide)

/-- A value starts with a glyph that is neither blank nor the bracket that ends an array. -/
theorem Written.exists_head (w : Written) :
    ∃ c cs, w.glyphs = some c :: cs ∧ isSpace (some c) = false ∧ c ≠ ']' := by
  cases w with
  | null => exact ⟨'n', _, rfl, by decide⟩
  | boolean b => cases b with
    | true => exact ⟨'t', _, rfl, by decide⟩
    | false => exact ⟨'f', _, rfl, by decide⟩
  | string s => exact ⟨'"', _, rfl, by decide⟩
  | array items => exact ⟨'[', _, rfl, by decide⟩
  | object fields => exact ⟨'\x7b', _, rfl, by decide⟩
  | number n =>
      obtain ⟨c, cs, hcs, hc⟩ := n.exists_head
      refine ⟨c, cs.map some, by rw [glyphs, hcs, List.map_cons], isSpace_of_number hc, ?_⟩
      rintro rfl
      exact absurd hc (by decide)

theorem parseValue_number (n : WrittenNumber) (fuel : Nat) (gap : Gap) {rest : List Glyph}
    (h : Stops rest) :
    parseValue (fuel + 1) (gap.1 ++ (n.chars.map some ++ rest)) = (n.doc, some rest) := by
  have hscan := WrittenNumber.scanNumber_append n h
  obtain ⟨c, cs, hcs, hc⟩ := n.exists_head
  rw [hcs, List.map_cons, List.cons_append] at hscan ⊢
  have hstart : some c = some '-' || (digitOf? (some c)).isSome := by
    rcases hc with rfl | hc
    · rfl
    · simp [digitOf?_isDigit hc]
  rw [parseValue, skipSpace_gap, skipSpace_cons (isSpace_of_number hc)]
  split
  next heq => cases heq
  iterate 6
    next heq =>
      obtain rfl := Option.some.inj (List.cons.inj heq).1
      exact absurd hc (by decide)
  next heq =>
    obtain ⟨rfl, rfl⟩ := List.cons.inj heq
    rw [if_pos hstart, hscan]

theorem parseItems_close (fuel : Nat) (first : Bool) (gap : Gap) (rest : List Glyph) :
    parseItems (fuel + 1) first (gap.1 ++ some ']' :: rest) = (.close, some rest) := by
  have hspace : skipSpace (gap.1 ++ some ']' :: rest) = some ']' :: rest := by
    rw [skipSpace_gap, skipSpace_cons (by decide)]
  simp [parseItems, hspace]

theorem parseFields_close (fuel : Nat) (first : Bool) (gap : Gap) (rest : List Glyph) :
    parseFields (fuel + 1) first (gap.1 ++ some '\x7d' :: rest) = (.close, some rest) := by
  have hspace : skipSpace (gap.1 ++ some '\x7d' :: rest) = some '\x7d' :: rest := by
    rw [skipSpace_gap, skipSpace_cons (by decide)]
  simp [parseFields, hspace]

/-- An element is looked for behind the white space, and behind a comma unless it is the first. -/
theorem parseItems_item (fuel : Nat) (first : Bool) (gap before : Gap) {c : Char}
    {rest : List Glyph} (hspace : isSpace (some c) = false) (hbracket : c ≠ ']') :
    parseItems (fuel + 1) first (gap.1 ++ (separator first ++ (before.1 ++ some c :: rest))) =
      parseItem fuel (some c :: rest) := by
  have hitem : skipSpace (before.1 ++ some c :: rest) = some c :: rest := by
    rw [skipSpace_gap, skipSpace_cons hspace]
  cases first with
  | true => simp [parseItems, separator, skipSpace_gap, hitem, hbracket]
  | false =>
      have hcomma : skipSpace (some ',' :: (before.1 ++ some c :: rest)) =
          some ',' :: (before.1 ++ some c :: rest) := skipSpace_cons (by decide)
      simp [parseItems, separator, skipSpace_gap, hcomma, hitem, hbracket]

/-- A member is looked for behind the white space, and behind a comma unless it is the first. -/
theorem parseFields_field (fuel : Nat) (first : Bool) (gap before : Gap) (rest : List Glyph) :
    parseFields (fuel + 1) first (gap.1 ++ (separator first ++ (before.1 ++ some '"' :: rest))) =
      parseField fuel first (some '"' :: rest) := by
  have hfield : skipSpace (before.1 ++ some '"' :: rest) = some '"' :: rest := by
    rw [skipSpace_gap, skipSpace_cons (by decide)]
  cases first with
  | true => simp [parseFields, separator, skipSpace_gap, hfield]
  | false =>
      have hcomma : skipSpace (some ',' :: (before.1 ++ some '"' :: rest)) =
          some ',' :: (before.1 ++ some '"' :: rest) := skipSpace_cons (by decide)
      simp [parseFields, separator, skipSpace_gap, hcomma, hfield]

/-- A member is its name, a colon and its value, and the other members follow. -/
theorem parseField_closed (fuel : Nat) (first : Bool) (colon : Gap) {cs rest behind : List Glyph}
    {key : Except Fault String} {value : Doc} {fields : Fields} {end? : Option (List Glyph)}
    (hkey : string cs = .closed key (colon.1 ++ some ':' :: rest))
    (hvalue : parseValue fuel rest = (value, some behind))
    (hfields : parseFields fuel false behind = (fields, end?)) :
    parseField (fuel + 1) first (some '"' :: cs) = (.cons key value fields, end?) := by
  have hcolon : skipSpace (some ':' :: rest) = some ':' :: rest := skipSpace_cons (by decide)
  simp [parseField, hkey, skipSpace_gap, hcolon, hvalue, hfields]

theorem parseField_member (fuel : Nat) (first : Bool) (key : WrittenString) (colon : Gap)
    {rest behind : List Glyph} {value : Doc} {fields : Fields} {end? : Option (List Glyph)}
    (hvalue : parseValue fuel rest = (value, some behind))
    (hfields : parseFields fuel false behind = (fields, end?)) :
    parseField (fuel + 1) first (WrittenString.quoted key ++ (colon.1 ++ some ':' :: rest)) =
      (.cons (.ok (WrittenString.text key)) value fields, end?) := by
  rw [WrittenString.quoted, List.cons_append, List.append_assoc, List.singleton_append]
  exact parseField_closed fuel first colon (string_glyphs key _) hvalue hfields

theorem WrittenItems.length_pos (items : WrittenItems) (first : Bool) :
    0 < (items.glyphs first).length := by
  cases items with
  | close gap => simp [glyphs]
  | cons gap before item items =>
      obtain ⟨c, cs, hcs, -⟩ := item.exists_head
      simp only [glyphs, hcs, List.length_append, List.length_cons]
      omega

theorem WrittenFields.length_pos (fields : WrittenFields) (first : Bool) :
    0 < (fields.glyphs first).length := by
  cases fields <;> simp only [glyphs, List.length_append, List.length_cons] <;> omega

mutual

/-- A written value is read as the document that it means. -/
theorem parseValue_written : ∀ (w : Written) (fuel : Nat) (gap : Gap) (rest : List Glyph),
    3 * w.glyphs.length ≤ fuel → Stops rest →
      parseValue fuel (gap.1 ++ (w.glyphs ++ rest)) = (w.doc, some rest)
  | w, 0, _, _, hfuel, _ => by
      obtain ⟨c, cs, hcs, -⟩ := w.exists_head
      rw [hcs, List.length_cons] at hfuel
      omega
  | .number n, fuel + 1, gap, rest, _, stops => parseValue_number n fuel gap stops
  | .null, fuel + 1, gap, rest, _, _ => by
      rw [parseValue, skipSpace_gap]
      exact scanWord_append .null ['u', 'l', 'l'] rest
  | .boolean true, fuel + 1, gap, rest, _, _ => by
      rw [parseValue, skipSpace_gap]
      exact scanWord_append (.boolean true) ['r', 'u', 'e'] rest
  | .boolean false, fuel + 1, gap, rest, _, _ => by
      rw [parseValue, skipSpace_gap]
      exact scanWord_append (.boolean false) ['a', 'l', 's', 'e'] rest
  | .string s, fuel + 1, gap, rest, _, _ => by
      rw [parseValue, skipSpace_gap, Written.glyphs, WrittenString.quoted, List.cons_append,
        skipSpace_cons (by decide), List.append_assoc]
      simp only [List.singleton_append, string_glyphs, Written.doc]
  | .array items, fuel + 1, gap, rest, hfuel, _ => by
      rw [Written.glyphs, List.length_cons] at hfuel
      have hitems := parseItems_written items fuel true rest (by omega)
      rw [parseValue, skipSpace_gap, Written.glyphs, List.cons_append, skipSpace_cons (by decide)]
      simp only [hitems, Written.doc]
  | .object fields, fuel + 1, gap, rest, hfuel, _ => by
      rw [Written.glyphs, List.length_cons] at hfuel
      have hfields := parseFields_written fields fuel true rest (by omega)
      rw [parseValue, skipSpace_gap, Written.glyphs, List.cons_append, skipSpace_cons (by decide)]
      simp only [hfields, Written.doc]

theorem parseItems_written : ∀ (items : WrittenItems) (fuel : Nat) (first : Bool)
    (rest : List Glyph), 3 * (items.glyphs first).length ≤ fuel →
      parseItems fuel first (items.glyphs first ++ rest) = (items.doc, some rest)
  | items, 0, first, rest, hfuel => by
      have := items.length_pos first
      omega
  | .close gap, fuel + 1, first, rest, _ => by
      rw [WrittenItems.glyphs, List.append_assoc]
      exact parseItems_close fuel first gap rest
  | .cons gap before item items, fuel + 1, first, rest, hfuel => by
      obtain ⟨c, cs, hcs, hspace, hbracket⟩ := item.exists_head
      have hlength := items.length_pos false
      simp only [WrittenItems.glyphs, List.length_append] at hfuel
      obtain ⟨fuel, rfl⟩ : ∃ n, fuel = n + 1 := ⟨fuel - 1, by omega⟩
      have hvalue := parseValue_written item fuel Gap.none (items.glyphs false ++ rest)
        (by omega) (stops_items items rest)
      have hitems := parseItems_written items fuel false rest (by
        rw [hcs, List.length_cons] at hfuel
        omega)
      simp only [WrittenItems.glyphs, List.append_assoc, hcs, List.cons_append]
      rw [parseItems_item _ _ _ _ hspace hbracket, ← List.cons_append, ← hcs, parseItem]
      rw [Gap.none, List.nil_append] at hvalue
      simp only [hvalue, hitems, WrittenItems.doc]

theorem parseFields_written : ∀ (fields : WrittenFields) (fuel : Nat) (first : Bool)
    (rest : List Glyph), 3 * (fields.glyphs first).length ≤ fuel →
      parseFields fuel first (fields.glyphs first ++ rest) = (fields.doc, some rest)
  | fields, 0, first, rest, hfuel => by
      have := fields.length_pos first
      omega
  | .close gap, fuel + 1, first, rest, _ => by
      rw [WrittenFields.glyphs, List.append_assoc]
      exact parseFields_close fuel first gap rest
  | .cons gap before key colon behind value fields, fuel + 1, first, rest, hfuel => by
      have hlength := fields.length_pos false
      simp only [WrittenFields.glyphs, WrittenString.quoted, List.length_append,
        List.length_cons] at hfuel
      obtain ⟨fuel, rfl⟩ : ∃ n, fuel = n + 1 := ⟨fuel - 1, by omega⟩
      have hvalue := parseValue_written value fuel behind (fields.glyphs false ++ rest)
        (by omega) (stops_fields fields rest)
      have hfields := parseFields_written fields fuel false rest (by omega)
      have hmember := parseField_member fuel first key colon hvalue hfields
      simp only [WrittenString.quoted, List.cons_append] at hmember
      simp only [WrittenFields.glyphs, WrittenString.quoted, List.append_assoc, List.cons_append]
        at hmember ⊢
      rw [parseFields_field, hmember, WrittenFields.doc]

end

/-- A text that is one written value is read as the document that it means. -/
theorem parse_written (w : Written) (before : Gap) {after : List Glyph} (h : Stops after) :
    Doc.parse (before.1 ++ (w.glyphs ++ after)) = (w.doc, some after) := by
  refine parseValue_written w _ before after ?_ h
  simp only [List.length_append]
  omega

/-- A reader of a text reads its document, if nothing but white space is behind it. -/
theorem read_of_parse {α : Type} (reader : Doc → Except Fault α) {cs : List Glyph} {doc : Doc}
    {after : Gap} (h : Doc.parse cs = (doc, some after.1)) : Doc.read reader cs = reader doc := by
  have hblank : skipSpace after.1 = [] := by
    rw [← List.append_nil after.1]
    exact skipSpace_gap after []
  rw [Doc.read, h]
  simp only [hblank, List.isEmpty_nil, if_true]
  cases reader doc <;> rfl

theorem stops_blank (gap : Gap) : Stops gap.1 := by
  rw [← List.append_nil gap.1]
  exact stops_gap stops_nil

/-- A reader of a text that is one written value reads the document that it means. -/
theorem read_written {α : Type} (reader : Doc → Except Fault α) (w : Written) (before after : Gap) :
    Doc.read reader (before.1 ++ (w.glyphs ++ after.1)) = reader w.doc :=
  read_of_parse reader (parse_written w before (stops_blank after))

end Settlement.Json
