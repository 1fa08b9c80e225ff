import Settlement.Proofs.Json.Parsing

/-!
# Values that nobody reads

A reader passes over a value that it does not need, and may pass over more than it could read:
numbers of any size, and strings in which half of a pair of escapes stands alone. `IsValue` are the
texts of all values that JSON knows, of any depth. Each of them is a value for the parser, too, and
is passed over without a fault (`parseValue_isValue`).
-/

namespace Settlement.Json

/-- A character in a string that is passed over: as it is, as an escape by letter, or as a unit of
16 bits, which need not be a character. -/
inductive Stroke where
  | plain (c : Char) (h : isPlain c = true)
  | letter (l c : Char) (h : letterEscape? (some l) = some c)
  | unit (u : CodeUnit)

namespace Stroke

def glyphs : Stroke → List Glyph
  | plain c _ => [some c]
  | letter l _ _ => [some '\\', some l]
  | unit u => some '\\' :: some 'u' :: u.glyphs

end Stroke

/-- The strokes of a string, its closing quote, and what follows. -/
def closing (s : List Stroke) (rest : List Glyph) : List Glyph :=
  s.flatMap Stroke.glyphs ++ some '"' :: rest

/-- A string of strokes between its quotes. -/
def strokes (s : List Stroke) : List Glyph := some '"' :: closing s []

mutual

/-- The glyphs are a value, without white space around it. -/
inductive IsValue : List Glyph → Prop
  | null : IsValue (['n', 'u', 'l', 'l'].map some)
  | yes : IsValue (['t', 'r', 'u', 'e'].map some)
  | no : IsValue (['f', 'a', 'l', 's', 'e'].map some)
  | number (n : WrittenNumber) : IsValue (n.chars.map some)
  | string (s : List Stroke) : IsValue (strokes s)
  | array {items : List Glyph} (h : IsItems true items) : IsValue (some '[' :: items)
  | object {members : List Glyph} (h : IsMembers true members) : IsValue (some '\x7b' :: members)

/-- The glyphs are elements, from the first one or a later one to the bracket. -/
inductive IsItems : Bool → List Glyph → Prop
  | close (first : Bool) (gap : Gap) : IsItems first (gap.1 ++ [some ']'])
  | item (first : Bool) (gap before : Gap) {item rest : List Glyph} (h : IsValue item)
      (later : IsItems false rest) :
      IsItems first (gap.1 ++ (separator first ++ (before.1 ++ (item ++ rest))))

/-- The glyphs are members, from the first one or a later one to the brace. -/
inductive IsMembers : Bool → List Glyph → Prop
  | close (first : Bool) (gap : Gap) : IsMembers first (gap.1 ++ [some '\x7d'])
  | member (first : Bool) (gap before : Gap) (key : List Stroke) (colon behind : Gap)
      {value rest : List Glyph} (h : IsValue value) (later : IsMembers false rest) :
      IsMembers first (gap.1 ++ (separator first ++ (before.1 ++ (strokes key ++ (colon.1 ++
        some ':' :: (behind.1 ++ (value ++ rest)))))))

end

/-! ## Strings -/

theorem closing_cons (p : Stroke) (s : List Stroke) (rest : List Glyph) :
    closing (p :: s) rest = p.glyphs ++ closing s rest := by
  rw [closing, List.flatMap_cons, List.append_assoc, ← closing]

theorem lowSurrogate_unit (v : CodeUnit) (rest : List Glyph) :
    (∃ low, lowSurrogate (some '\\' :: some 'u' :: (v.glyphs ++ rest)) = .ok (low, rest)) ∨
      ∃ fault, lowSurrogate (some '\\' :: some 'u' :: (v.glyphs ++ rest)) = .error fault := by
  simp only [lowSurrogate, hexEscape_append, bind, Except.bind]
  split
  · exact Or.inl ⟨_, rfl⟩
  · exact Or.inr ⟨_, rfl⟩

/-- Half of a pair looks at the stroke behind it, and takes it along if it is the other half. -/
theorem lowSurrogate_closing (s : List Stroke) (rest : List Glyph) :
    (∃ low v later, s = .unit v :: later ∧
        lowSurrogate (closing s rest) = .ok (low, closing later rest)) ∨
      ∃ fault, lowSurrogate (closing s rest) = .error fault := by
  match s with
  | [] => exact Or.inr ⟨_, rfl⟩
  | .plain c h :: later =>
      refine Or.inr ⟨.malformed, ?_⟩
      have hslash : c ≠ '\\' := by
        rintro rfl
        cases h
      simp [closing_cons, Stroke.glyphs, lowSurrogate, hslash]
  | .letter l c h :: later =>
      refine Or.inr ⟨.malformed, ?_⟩
      have hu : l ≠ 'u' := by
        rintro rfl
        cases h
      simp [closing_cons, Stroke.glyphs, lowSurrogate, hu]
  | .unit v :: later =>
      rw [closing_cons, Stroke.glyphs]
      rcases lowSurrogate_unit v (closing later rest) with ⟨low, h⟩ | h
      · exact Or.inl ⟨low, v, later, rfl, h⟩
      · exact Or.inr h

/-- A unit is a character alone or with the unit behind it, or a fault that only readers notice. -/
theorem codeEscape_closing (u : CodeUnit) (s : List Stroke) (rest : List Glyph) :
    (∃ c later, later <:+ s ∧
        codeEscape (u.glyphs ++ closing s rest) = .ok (c, closing later rest)) ∨
      ∃ fault, codeEscape (u.glyphs ++ closing s rest) = .error fault := by
  simp only [codeEscape, hexEscape_append, bind, Except.bind]
  split
  · exact Or.inr ⟨_, rfl⟩
  · split
    · rcases lowSurrogate_closing s rest with ⟨low, v, later, rfl, h⟩ | ⟨fault, h⟩
      · rw [h]
        exact Or.inl ⟨_, later, List.suffix_cons _ later, rfl⟩
      · rw [h]
        exact Or.inr ⟨fault, rfl⟩
    · exact Or.inl ⟨_, s, List.suffix_rfl, rfl⟩

/-- Strokes come to their closing quote, whatever has been read before them. -/
theorem scanString_closing : ∀ (fuel : Nat) (s : List Stroke) (before : Scanned)
    (rest : List Glyph), s.length < fuel →
    ∃ content, scanString fuel before (closing s rest) = .closed content rest
  | 0, s, before, rest, hfuel => absurd hfuel (Nat.not_lt_zero _)
  | fuel + 1, [], before, rest, hfuel => ⟨before.content, by simp [closing, scanString]⟩
  | fuel + 1, .plain c h :: s, before, rest, hfuel => by
      have hstep := scanString_piece (.plain c h) fuel before (closing s rest)
      rw [closing_cons, Stroke.glyphs]
      rw [Piece.glyphs] at hstep
      rw [hstep]
      exact scanString_closing fuel s _ rest (Nat.lt_of_succ_lt_succ hfuel)
  | fuel + 1, .letter l c h :: s, before, rest, hfuel => by
      have hstep := scanString_piece (.letter l c h) fuel before (closing s rest)
      rw [closing_cons, Stroke.glyphs]
      rw [Piece.glyphs] at hstep
      rw [hstep]
      exact scanString_closing fuel s _ rest (Nat.lt_of_succ_lt_succ hfuel)
  | fuel + 1, .unit u :: s, before, rest, hfuel => by
      have hlength : s.length < fuel := Nat.lt_of_succ_lt_succ hfuel
      rw [closing_cons, Stroke.glyphs, List.cons_append, List.cons_append, scanString,
        hexEscape_append]
      rcases codeEscape_closing u s rest with ⟨c, later, hlater, h⟩ | ⟨fault, h⟩
      · simp only [h]
        exact scanString_closing fuel later _ rest (Nat.lt_of_le_of_lt hlater.length_le hlength)
      · simp only [h]
        exact scanString_closing fuel s _ rest hlength

theorem length_le_closing (s : List Stroke) (rest : List Glyph) :
    s.length < (closing s rest).length := by
  induction s with
  | nil => simp [closing]
  | cons p s ih =>
      have hp : 1 ≤ p.glyphs.length := by cases p <;> simp [Stroke.glyphs]
      rw [closing_cons, List.length_append, List.length_cons]
      omega

theorem string_closing (s : List Stroke) (rest : List Glyph) :
    ∃ content, string (closing s rest) = .closed content rest :=
  scanString_closing _ s _ rest (Nat.lt_succ_of_lt (length_le_closing s rest))

/-! ## Values -/

theorem strokes_append (s : List Stroke) (rest : List Glyph) :
    strokes s ++ rest = some '"' :: closing s rest := by
  rw [strokes, closing, closing, List.cons_append, List.append_assoc, List.singleton_append]

/-- A value starts with a glyph that is neither blank nor the bracket that ends an array. -/
theorem IsValue.exists_head {cs : List Glyph} (h : IsValue cs) :
    ∃ c tail, cs = some c :: tail ∧ isSpace (some c) = false ∧ c ≠ ']' := by
  cases h with
  | null => exact ⟨'n', _, rfl, by decide⟩
  | yes => exact ⟨'t', _, rfl, by decide⟩
  | no => exact ⟨'f', _, rfl, by decide⟩
  | number n => exact (Written.number n).exists_head
  | string s => exact ⟨'"', _, rfl, by decide⟩
  | array h => exact ⟨'[', _, rfl, by decide⟩
  | object h => exact ⟨'\x7b', _, rfl, by decide⟩

theorem IsItems.length_pos {first : Bool} {cs : List Glyph} (h : IsItems first cs) :
    0 < cs.length := by
  cases h with
  | close _ gap => simp
  | item _ gap before h later =>
      obtain ⟨c, tail, rfl, -⟩ := h.exists_head
      simp only [List.length_append, List.length_cons]
      omega

theorem IsMembers.length_pos {first : Bool} {cs : List Glyph} (h : IsMembers first cs) :
    0 < cs.length := by
  cases h <;> simp only [List.length_append, List.length_cons] <;> omega

theorem IsItems.stops {cs : List Glyph} (h : IsItems false cs) (rest : List Glyph) :
    Stops (cs ++ rest) := by
  cases h with
  | close _ gap =>
      rw [List.append_assoc]
      exact stops_gap fun g hg => Or.inr (Or.inr (Or.inl (Option.some.inj hg).symm))
  | item _ gap before h later =>
      rw [List.append_assoc]
      exact stops_gap fun g hg => Or.inr (Or.inl (Option.some.inj hg).symm)

theorem IsMembers.stops {cs : List Glyph} (h : IsMembers false cs) (rest : List Glyph) :
    Stops (cs ++ rest) := by
  cases h with
  | close _ gap =>
      rw [List.append_assoc]
      exact stops_gap fun g hg => Or.inr (Or.inr (Or.inr (Option.some.inj hg).symm))
  | member _ gap before key colon behind h later =>
      rw [List.append_assoc]
      exact stops_gap fun g hg => Or.inr (Or.inl (Option.some.inj hg).symm)

mutual

/-- A value is read to its end, and has no fault that is noticed when it is passed over. -/
theorem parseValue_isValue : ∀ {cs : List Glyph}, IsValue cs → ∀ (fuel : Nat) (gap : Gap)
    (rest : List Glyph), 3 * cs.length ≤ fuel → Stops rest →
    ∃ doc, parseValue fuel (gap.1 ++ (cs ++ rest)) = (doc, some rest) ∧ doc.skip = .ok ()
  | _, h, 0, _, _, hfuel, _ => by
      obtain ⟨c, tail, rfl, -⟩ := h.exists_head
      rw [List.length_cons] at hfuel
      omega
  | _, .null, fuel + 1, gap, rest, _, _ => by
      rw [parseValue, skipSpace_gap]
      exact ⟨.null, scanWord_append .null ['u', 'l', 'l'] rest, rfl⟩
  | _, .yes, fuel + 1, gap, rest, _, _ => by
      rw [parseValue, skipSpace_gap]
      exact ⟨.boolean true, scanWord_append (.boolean true) ['r', 'u', 'e'] rest, rfl⟩
  | _, .no, fuel + 1, gap, rest, _, _ => by
      rw [parseValue, skipSpace_gap]
      exact ⟨.boolean false, scanWord_append (.boolean false) ['a', 'l', 's', 'e'] rest, rfl⟩
  | _, .number n, fuel + 1, gap, rest, _, stops =>
      ⟨n.doc, parseValue_number n fuel gap stops, n.skip_doc⟩
  | _, .string s, fuel + 1, gap, rest, _, _ => by
      obtain ⟨content, hstring⟩ := string_closing s rest
      refine ⟨.string content, ?_, rfl⟩
      rw [parseValue, skipSpace_gap, strokes_append, skipSpace_cons (by decide)]
      simp only [hstring]
  | _, .array h, fuel + 1, gap, rest, hfuel, _ => by
      rw [List.length_cons] at hfuel
      obtain ⟨items, hitems, hskip⟩ := parseItems_isItems h fuel rest (by omega)
      refine ⟨.array items, ?_, hskip⟩
      rw [parseValue, skipSpace_gap, List.cons_append, skipSpace_cons (by decide)]
      simp only [hitems]
  | _, .object h, fuel + 1, gap, rest, hfuel, _ => by
      rw [List.length_cons] at hfuel
      obtain ⟨fields, hfields, hskip⟩ := parseFields_isMembers h fuel rest (by omega)
      refine ⟨.object fields, ?_, hskip⟩
      rw [parseValue, skipSpace_gap, List.cons_append, skipSpace_cons (by decide)]
      simp only [hfields]

theorem parseItems_isItems : ∀ {first : Bool} {cs : List Glyph}, IsItems first cs →
    ∀ (fuel : Nat) (rest : List Glyph), 3 * cs.length ≤ fuel →
    ∃ items, parseItems fuel first (cs ++ rest) = (items, some rest) ∧ items.skip = .ok ()
  | _, _, .close first gap, fuel, rest, hfuel => by
      obtain ⟨fuel, rfl⟩ : ∃ n, fuel = n + 1 := ⟨fuel - 1, by simp at hfuel; omega⟩
      rw [List.append_assoc]
      exact ⟨.close, parseItems_close fuel first gap rest, rfl⟩
  | _, _, @IsItems.item first gap before item tail h later, fuel, rest, hfuel => by
      have hlength := later.length_pos
      simp only [List.length_append] at hfuel
      obtain ⟨c, cs, hcs, hspace, hbracket⟩ := h.exists_head
      have hitem : 0 < item.length := by simp [hcs]
      obtain ⟨fuel, rfl⟩ : ∃ n, fuel = n + 2 := ⟨fuel - 2, by omega⟩
      obtain ⟨doc, hvalue, hskip⟩ := parseValue_isValue h fuel Gap.none (tail ++ rest) (by omega)
        (later.stops rest)
      obtain ⟨items, hitems, hskips⟩ := parseItems_isItems later fuel rest (by omega)
      refine ⟨.cons doc items, ?_, by simp [Items.skip, hskip, hskips, bind, Except.bind]⟩
      simp only [List.append_assoc, hcs, List.cons_append]
      rw [parseItems_item _ _ _ _ hspace hbracket, ← List.cons_append, ← hcs, parseItem]
      rw [Gap.none, List.nil_append] at hvalue
      simp only [hvalue, hitems]

theorem parseFields_isMembers : ∀ {first : Bool} {cs : List Glyph}, IsMembers first cs →
    ∀ (fuel : Nat) (rest : List Glyph), 3 * cs.length ≤ fuel →
    ∃ fields, parseFields fuel first (cs ++ rest) = (fields, some rest) ∧ fields.skip = .ok ()
  | _, _, .close first gap, fuel, rest, hfuel => by
      obtain ⟨fuel, rfl⟩ : ∃ n, fuel = n + 1 := ⟨fuel - 1, by simp at hfuel; omega⟩
      rw [List.append_assoc]
      exact ⟨.close, parseFields_close fuel first gap rest, rfl⟩
  | _, _, @IsMembers.member first gap before key colon behind value tail h later, fuel, rest,
      hfuel => by
      have hlength := later.length_pos
      simp only [strokes, List.length_append, List.length_cons] at hfuel
      obtain ⟨fuel, rfl⟩ : ∃ n, fuel = n + 2 := ⟨fuel - 2, by omega⟩
      obtain ⟨doc, hvalue, hskip⟩ := parseValue_isValue h fuel behind (tail ++ rest) (by omega)
        (later.stops rest)
      obtain ⟨fields, hfields, hskips⟩ := parseFields_isMembers later fuel rest (by omega)
      obtain ⟨content, hkey⟩ := string_closing key
        (colon.1 ++ some ':' :: (behind.1 ++ (value ++ (tail ++ rest))))
      refine ⟨.cons content doc fields, ?_, by simp [Fields.skip, hskip, hskips, bind, Except.bind]⟩
      simp only [List.append_assoc, List.cons_append]
      rw [strokes_append, parseFields_field, parseField_closed fuel first colon hkey hvalue hfields]

end

end Settlement.Json
