import Settlement.Bytes
import Settlement.Json.Value
import Settlement.Proofs.Binary64.Digits
import Settlement.Proofs.Json.Numerals
import Settlement.Proofs.Json.Parsing

/-!
# The texts of values

The text of a value is a written document, so it can be read. `Value.reread` is the document that
comes of it: the value itself, with its numbers read anew from their texts (`read_text`). Whole
numbers of 64 bits come back as they were (`reread_whole`).
-/

namespace Settlement

namespace Json

/-! ## Numbers -/

/-- The digits before and behind the point of a number text. -/
structure Parts (whole fraction : List Char) : Prop where
  isDigit : ∀ c ∈ whole ++ fraction, c.isDigit = true
  whole_ne : whole ≠ []
  leading : whole.head? = some '0' → whole = ['0']

section

variable {whole fraction : List Char}

/-- The number with a sign and an exponent. -/
def Parts.number (p : Parts whole fraction) (negative : Bool) (exponent : Option WrittenExponent) :
    WrittenNumber :=
  ⟨negative, whole, fraction, exponent, p.isDigit, p.whole_ne, p.leading⟩

theorem parts_zero (h : ∀ c ∈ fraction, c.isDigit = true) : Parts ['0'] fraction where
  isDigit := by
    simp only [List.singleton_append, List.mem_cons]
    rintro c (rfl | hc)
    · rfl
    · exact h c hc
  whole_ne := List.cons_ne_nil _ _
  leading _ := rfl

theorem parts_of_leading (hwhole : Leading whole) (h : ∀ c ∈ fraction, c.isDigit = true) :
    Parts whole fraction where
  isDigit c hc := (List.mem_append.1 hc).elim (hwhole.isDigit c) (h c)
  whole_ne := hwhole.ne_nil
  leading hzero := absurd hzero hwhole.head_ne

/-- A lone zero may stand behind the point. -/
theorem Parts.pointed (p : Parts whole fraction) :
    Parts whole (if fraction.isEmpty then ['0'] else fraction) where
  isDigit := by
    split
    · simp only [List.mem_append, List.mem_singleton]
      rintro c (hc | rfl)
      · exact p.isDigit c (List.mem_append_left _ hc)
      · rfl
    · exact p.isDigit
  whole_ne := p.whole_ne
  leading := p.leading

end

theorem parts_toDigits (n : Nat) {fraction : List Char} (h : ∀ c ∈ fraction, c.isDigit = true) :
    Parts (Nat.toDigits 10 n) fraction := by
  rcases Nat.eq_zero_or_pos n with rfl | hpos
  · exact parts_zero h
  · exact parts_of_leading (leading_toDigits hpos) h

theorem isDigit_shortest (x : Magnitude) : ∀ c ∈ x.shortest.digits, c.isDigit = true := by
  rcases x.digits_shortest with h | h
  · exact h.isDigit
  · intro c hc
    rw [h, List.mem_singleton] at hc
    rw [hc]
    rfl

theorem parts_positional (x : Magnitude) :
    Parts x.shortest.positional.1 x.shortest.positional.2 := by
  have digits := isDigit_shortest x
  unfold DecimalDigits.positional
  split
  next hpoint =>
    refine parts_zero fun c hc => ?_
    rcases List.mem_append.1 hc with hzero | hdigit
    · exact isDigit_replicate _ c hzero
    · exact digits c hdigit
  next hpoint =>
    rcases x.digits_shortest with h | h
    · exact parts_of_leading (leading_append_zeros (leading_take h (by omega)) _)
        fun c hc => digits c (List.mem_of_mem_drop hc)
    · rw [h]
      exact parts_zero nofun

/-- The exponent behind a shortest decimal. -/
def writtenExponent (exponent : Int) : WrittenExponent where
  capital := false
  sign := some (decide (exponent < 0))
  digits :=
    let digits := Nat.toDigits 10 exponent.natAbs
    if digits.length < 2 then '0' :: digits else digits
  digits_ne := by
    dsimp only
    split
    · exact List.cons_ne_nil _ _
    · exact Nat.toDigits_ne_nil
  isDigit := by
    have hdigits : ∀ c ∈ Nat.toDigits 10 exponent.natAbs, c.isDigit = true := fun c hc =>
      Nat.isDigit_of_mem_toDigits (by decide) (by decide) hc
    dsimp only
    split
    · rintro c (- | ⟨_, hc⟩)
      · rfl
      · exact hdigits c hc
    · exact hdigits

theorem chars_writtenExponent (exponent : Int) :
    (writtenExponent exponent).chars = 'e' :: Binary64.exponentText exponent := by
  by_cases h : exponent < 0 <;>
    simp [WrittenExponent.chars, writtenExponent, WrittenExponent.signChars,
      Binary64.exponentText, h]

theorem Parts.chars_number {whole fraction : List Char} (p : Parts whole fraction) (x : Binary64)
    (exponent : Option WrittenExponent) :
    (p.number x.negative exponent).chars =
      (x.signed (whole ++ (WrittenNumber.fractionChars fraction ++
        WrittenNumber.exponentChars exponent))).toList := by
  cases hnegative : x.negative <;>
    simp [Binary64.signed, hnegative, number, WrittenNumber.chars, WrittenNumber.unsigned]

/-- The text of a binary number is a written number. -/
theorem exists_written_real (x : Binary64) : ∃ w : WrittenNumber, w.chars = x.text.toList := by
  unfold Binary64.text
  dsimp only
  split
  next =>
    refine ⟨(parts_positional x.magnitude).pointed.number x.negative none, ?_⟩
    rw [Parts.chars_number]
    by_cases hfraction : x.magnitude.shortest.positional.2 = [] <;>
      simp [hfraction, WrittenNumber.fractionChars, WrittenNumber.exponentChars]
  next hrange =>
    have hleading : Leading x.magnitude.shortest.digits := by
      refine (Magnitude.digits_shortest x.magnitude).resolve_right fun h => hrange ?_
      rw [h]
      decide
    have parts : Parts (x.magnitude.shortest.digits.take 1) (x.magnitude.shortest.digits.drop 1) :=
      parts_of_leading (leading_take hleading Nat.one_pos)
        fun c hc => hleading.isDigit c (List.mem_of_mem_drop hc)
    refine ⟨parts.number x.negative (some (writtenExponent (x.magnitude.shortest.point - 1))), ?_⟩
    rw [Parts.chars_number]
    obtain ⟨d, ds, hds⟩ := List.exists_cons_of_ne_nil hleading.ne_nil
    cases ds <;>
      simp [hds, WrittenNumber.fractionChars, WrittenNumber.exponentChars, chars_writtenExponent]

theorem exists_written_whole (n : Int) : ∃ w : WrittenNumber, w.chars = (toString n).toList ∧
    w.numeral = ⟨decide (n < 0), (Nat.toDigits 10 n.natAbs).map digitValue, [], none⟩ := by
  refine ⟨(parts_toDigits n.natAbs (List.forall_mem_nil _)).number (decide (n < 0)) none, ?_, ?_⟩
  · cases n with
    | ofNat n =>
        change _ = n.repr.toList
        simp [Parts.number, WrittenNumber.chars, WrittenNumber.unsigned,
          WrittenNumber.fractionChars, WrittenNumber.exponentChars]
    | negSucc n =>
        change _ = ("-" ++ (n + 1).repr).toList
        simp [Parts.number, WrittenNumber.chars, WrittenNumber.unsigned,
          WrittenNumber.fractionChars, WrittenNumber.exponentChars, Int.negSucc_lt_zero]
  · rfl

theorem Number.exists_written (n : Number) : ∃ w : WrittenNumber, w.chars = n.text.toList := by
  cases n with
  | whole n =>
      obtain ⟨w, hw, -⟩ := exists_written_whole n
      exact ⟨w, hw⟩
  | real x => exact exists_written_real x

/-! ## Strings -/

/-- The digits of a control character's code, in lower case. -/
def controlDigits (n : Nat) : Fin 4 → Char
  | 0 | 1 => '0'
  | 2 => Nat.digitChar (n / 16)
  | 3 => Nat.digitChar (n % 16)

theorem controlDigits_hex :
    ∀ n < 32, ∀ i, (hexDigit? (some (controlDigits n i))).isSome = true := by
  decide

/-- The code of a control character. -/
def controlUnit (n : Nat) (h : n < 32) : CodeUnit where
  digits := controlDigits n
  hex := controlDigits_hex n h

theorem value_controlUnit : ∀ n h, (controlUnit n h).value = n := by
  decide

theorem controlEscape_eq (n : Nat) (h : n < 32) :
    ['\\', 'u'] ++ List.replicate (4 - (Nat.toDigits 16 n).length) '0' ++ Nat.toDigits 16 n =
      ['\\', 'u', '0', '0', Nat.digitChar (n / 16), Nat.digitChar (n % 16)] := by
  revert n
  decide

/-- A character of a string is written as a piece. -/
theorem exists_piece (c : Char) : ∃ p : Piece, p.glyphs = (escaped c).map some ∧ p.char = c := by
  unfold escaped
  split
  · exact ⟨.letter '"' _ rfl, rfl, rfl⟩
  · exact ⟨.letter '\\' _ rfl, rfl, rfl⟩
  · exact ⟨.letter 'b' _ rfl, rfl, rfl⟩
  · exact ⟨.letter 'f' _ rfl, rfl, rfl⟩
  · exact ⟨.letter 'n' _ rfl, rfl, rfl⟩
  · exact ⟨.letter 'r' _ rfl, rfl, rfl⟩
  · exact ⟨.letter 't' _ rfl, rfl, rfl⟩
  next hquote hslash _ _ _ _ _ =>
    split
    next hcontrol =>
      have hcode : c.toNat < 32 := hcontrol
      have hvalue := value_controlUnit c.toNat hcode
      refine ⟨.code (controlUnit c.toNat hcode) ?_ ?_, ?_, ?_⟩
      · unfold CodeUnit.IsHigh
        omega
      · unfold CodeUnit.IsLow
        omega
      · rw [controlEscape, controlEscape_eq c.toNat hcode]
        rfl
      · rw [Piece.char, hvalue, Char.ofNat_toNat]
    next hspace =>
      refine ⟨.plain c ?_, rfl, rfl⟩
      simp only [isPlain, Bool.and_eq_true, decide_eq_true_eq, bne_iff_ne]
      exact ⟨⟨Char.not_lt.1 hspace, hquote⟩, hslash⟩

theorem exists_pieces (cs : List Char) : ∃ w : WrittenString,
    WrittenString.glyphs w = (cs.flatMap escaped).map some ∧ w.map Piece.char = cs := by
  induction cs with
  | nil => exact ⟨[], rfl, rfl⟩
  | cons c cs ih =>
      obtain ⟨p, hp, hchar⟩ := exists_piece c
      obtain ⟨w, hw, hchars⟩ := ih
      refine ⟨p :: w, ?_, ?_⟩
      · rw [WrittenString.glyphs, List.flatMap_cons, ← WrittenString.glyphs, hp, hw,
          List.flatMap_cons, List.map_append]
      · rw [List.map_cons, hchar, hchars]

theorem escaped_plain {c : Char} (h : isPlain c = true) : escaped c = [c] := by
  simp only [isPlain, Bool.and_eq_true, decide_eq_true_eq, bne_iff_ne] at h
  obtain ⟨⟨hspace, hquote⟩, hslash⟩ := h
  unfold escaped
  split
  iterate 2 contradiction
  iterate 5 exact absurd hspace (by decide)
  rw [if_neg (Char.not_lt.2 hspace)]

theorem flatMap_escaped_plain {cs : List Char} (h : ∀ c ∈ cs, isPlain c = true) :
    cs.flatMap escaped = cs := by
  induction cs with
  | nil => rfl
  | cons c cs ih =>
      rw [List.flatMap_cons, escaped_plain (h c List.mem_cons_self),
        ih fun d hd => h d (List.mem_cons_of_mem c hd), List.singleton_append]

theorem toList_stringText (s : String) :
    (stringText s).toList = '"' :: (s.toList.flatMap escaped ++ ['"']) := by
  unfold stringText
  split
  next hplain =>
    rw [flatMap_escaped_plain fun c hc => List.all_eq_true.1 hplain c hc]
    simp
  next => simp

/-- A string is written between its quotes. -/
theorem exists_written_string (s : String) : ∃ w : WrittenString,
    WrittenString.quoted w = glyphsOf (stringText s) ∧ WrittenString.text w = s := by
  obtain ⟨w, hw, hchars⟩ := exists_pieces s.toList
  refine ⟨w, ?_, ?_⟩
  · rw [glyphsOf, toList_stringText, WrittenString.quoted, hw]
    simp
  · rw [WrittenString.text, hchars, String.ofList_toList]

/-! ## Values -/

/-- The number that is read from the text of a number. -/
def Number.reread (n : Number) : Doc := (scanNumber (glyphsOf n.text)).1

/-- A whole number of 64 bits is read as it was written. -/
theorem reread_whole {n : Int} (low : -(2 ^ 63) ≤ n) (high : n < 2 ^ 64) :
    (Number.whole n).reread = .number (.ok (.whole n)) := by
  obtain ⟨w, hchars, hnumeral⟩ := exists_written_whole n
  have hscan := w.scanNumber_append stops_nil
  rw [List.append_nil, hchars] at hscan
  rw [Number.reread, Number.text, glyphsOf, hscan, WrittenNumber.doc, hnumeral,
    number?_whole low high]

mutual

/-- The document that is read from the text of a value. -/
def Value.reread : Value → Doc
  | .null => .null
  | .boolean b => .boolean b
  | .number n => n.reread
  | .string s => .string (.ok s)
  | .array items => .array (Value.rereadItems items)
  | .object members => .object (Value.rereadFields members)

def Value.rereadItems : List Value → Items
  | [] => .close
  | item :: rest => .cons item.reread (Value.rereadItems rest)

def Value.rereadFields : List (String × Value) → Fields
  | [] => .close
  | (name, value) :: rest => .cons (.ok name) value.reread (Value.rereadFields rest)

end

theorem exists_written_number (n : Number) : ∃ w : WrittenNumber,
    w.chars.map some = glyphsOf n.text ∧ w.doc = n.reread := by
  obtain ⟨w, hw⟩ := n.exists_written
  have hscan := w.scanNumber_append stops_nil
  rw [List.append_nil, hw] at hscan
  exact ⟨w, by rw [hw, glyphsOf], by rw [Number.reread, glyphsOf, hscan]⟩

theorem glyphsOf_append (s t : String) : glyphsOf (s ++ t) = glyphsOf s ++ glyphsOf t := by
  simp [glyphsOf]

theorem glyphsOf_commaSeparated (text : String) (texts : List String) :
    glyphsOf (commaSeparated (text :: texts)) =
      glyphsOf text ++ texts.flatMap fun t => some ',' :: glyphsOf t := by
  induction texts generalizing text with
  | nil => simp [commaSeparated]
  | cons next texts ih =>
      rw [List.flatMap_cons, List.cons_append, ← ih next, commaSeparated,
        String.intercalate_cons_cons, glyphsOf_append, glyphsOf_append, List.append_assoc]
      rfl

mutual

/-- The text of a value is a written document that means the value reread. -/
theorem exists_written : ∀ v : Value, ∃ w : Written,
    w.glyphs = glyphsOf v.text ∧ w.doc = v.reread
  | .null => ⟨.null, rfl, rfl⟩
  | .boolean true => ⟨.boolean true, rfl, rfl⟩
  | .boolean false => ⟨.boolean false, rfl, rfl⟩
  | .number n => by
      obtain ⟨w, hw, hdoc⟩ := exists_written_number n
      exact ⟨.number w, hw, hdoc⟩
  | .string s => by
      obtain ⟨w, hw, htext⟩ := exists_written_string s
      exact ⟨.string w, hw, by rw [Written.doc, htext, Value.reread]⟩
  | .array items => by
      obtain ⟨ws, hfirst, -, hdoc⟩ := exists_written_items items
      refine ⟨.array ws, ?_, by rw [Written.doc, hdoc, Value.reread]⟩
      rw [Written.glyphs, hfirst, Value.text, glyphsOf_append, glyphsOf_append, List.append_assoc]
      rfl
  | .object members => by
      obtain ⟨ws, hfirst, -, hdoc⟩ := exists_written_fields members
      refine ⟨.object ws, ?_, by rw [Written.doc, hdoc, Value.reread]⟩
      rw [Written.glyphs, hfirst, Value.text, glyphsOf_append, glyphsOf_append, List.append_assoc]
      rfl

theorem exists_written_items : ∀ items : List Value, ∃ ws : WrittenItems,
    ws.glyphs true = glyphsOf (commaSeparated (Value.itemTexts items)) ++ [some ']'] ∧
      ws.glyphs false =
        ((Value.itemTexts items).flatMap fun t => some ',' :: glyphsOf t) ++ [some ']'] ∧
      ws.doc = Value.rereadItems items
  | [] => ⟨.close Gap.none, rfl, rfl, rfl⟩
  | item :: rest => by
      obtain ⟨w, hw, hitem⟩ := exists_written item
      obtain ⟨ws, -, hlater, hrest⟩ := exists_written_items rest
      refine ⟨.cons Gap.none Gap.none w ws, ?_, ?_, ?_⟩
      · simp [WrittenItems.glyphs, Gap.none, separator, hw, hlater, Value.itemTexts,
          glyphsOf_commaSeparated]
      · simp [WrittenItems.glyphs, Gap.none, separator, hw, hlater, Value.itemTexts]
      · rw [WrittenItems.doc, hitem, hrest, Value.rereadItems]

theorem exists_written_fields : ∀ members : List (String × Value), ∃ ws : WrittenFields,
    ws.glyphs true = glyphsOf (commaSeparated (Value.memberTexts members)) ++ [some '\x7d'] ∧
      ws.glyphs false =
        ((Value.memberTexts members).flatMap fun t => some ',' :: glyphsOf t) ++ [some '\x7d'] ∧
      ws.doc = Value.rereadFields members
  | [] => ⟨.close Gap.none, rfl, rfl, rfl⟩
  | (name, value) :: rest => by
      obtain ⟨key, hkey, hname⟩ := exists_written_string name
      obtain ⟨w, hw, hvalue⟩ := exists_written value
      obtain ⟨ws, -, hlater, hrest⟩ := exists_written_fields rest
      have hcolon : glyphsOf ":" = [some ':'] := rfl
      refine ⟨.cons Gap.none Gap.none key Gap.none Gap.none w ws, ?_, ?_, ?_⟩
      · simp [WrittenFields.glyphs, Gap.none, separator, hkey, hw, hlater, Value.memberTexts,
          glyphsOf_commaSeparated, glyphsOf_append, hcolon]
      · simp [WrittenFields.glyphs, Gap.none, separator, hkey, hw, hlater, Value.memberTexts,
          glyphsOf_append, hcolon]
      · rw [WrittenFields.doc, hname, hvalue, hrest, Value.rereadFields]

end

/-- A reader of the text of a value reads the value reread. -/
theorem read_text {α : Type} (reader : Doc → Except Fault α) (v : Value) :
    Doc.read reader (glyphsOf v.text) = reader v.reread := by
  obtain ⟨w, hw, hdoc⟩ := exists_written v
  have hread := read_written reader w Gap.none Gap.none
  rwa [Gap.none, List.nil_append, List.append_nil, hw, hdoc] at hread

/-- The glyphs of a text that was put into bytes. -/
theorem glyphs_toUTF8 (s : String) : glyphs s.toUTF8 = glyphsOf s := by
  rw [glyphs, fromUTF8?_toUTF8]

end Json

end Settlement
