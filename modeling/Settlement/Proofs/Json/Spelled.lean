import Settlement.Proofs.Json.Fields
import Settlement.Proofs.Json.Objects
import Settlement.Proofs.Json.Skipping

/-!
# Records as they are spelled

A record stands in an object in any order, its names and texts with any escapes, among members of
other names with values of any kind: `Holds`. It is found there with the values that are spelled
(`docs_of_holds`), since the members that are no fields are only passed over.
-/

namespace Settlement.Json

/-- The glyphs spell a text with any escapes, or a whole number by its digits. -/
inductive Spells : Value → List Glyph → Prop
  | string (s : WrittenString) : Spells (.string (WrittenString.text s)) (WrittenString.quoted s)
  | whole (n : Int) : Spells (.number (.whole n)) (glyphsOf (toString n))

/-- The glyphs are members, from the first one or a later one to the brace: the fields in their
order, and between them others, with none of the names. -/
inductive Holds (names : List String) : Bool → List (String × Value) → List Glyph → Prop
  | close (first : Bool) (gap : Gap) : Holds names first [] (gap.1 ++ [some '\x7d'])
  | field (first : Bool) (gap before : Gap) (key : WrittenString) (colon behind : Gap)
      {value : Value} {text rest : List Glyph} {fields : List (String × Value)}
      (h : Spells value text) (later : Holds names false fields rest) :
      Holds names first ((WrittenString.text key, value) :: fields)
        (gap.1 ++ (separator first ++ (before.1 ++ (WrittenString.quoted key ++ (colon.1 ++
          some ':' :: (behind.1 ++ (text ++ rest)))))))
  | other (first : Bool) (gap before : Gap) (key : WrittenString) (colon behind : Gap)
      {text rest : List Glyph} {fields : List (String × Value)}
      (unnamed : WrittenString.text key ∉ names) (h : IsValue text)
      (later : Holds names false fields rest) :
      Holds names first fields
        (gap.1 ++ (separator first ++ (before.1 ++ (WrittenString.quoted key ++ (colon.1 ++
          some ':' :: (behind.1 ++ (text ++ rest)))))))

variable {names : List String} {fields : List (String × Value)} {cs : List Glyph} {first : Bool}

/-! ## Spelled values -/

theorem Spells.exists_written {value : Value} {text : List Glyph} (h : Spells value text) :
    ∃ w : Written, w.glyphs = text ∧ w.doc = value.reread := by
  cases h with
  | string s => exact ⟨.string s, rfl, rfl⟩
  | whole n =>
      obtain ⟨w, hw, hdoc⟩ := exists_written_number (.whole n)
      exact ⟨.number w, hw, hdoc⟩

theorem spells_string (s : String) : Spells (.string s) (glyphsOf (Value.string s).text) := by
  obtain ⟨w, hw, htext⟩ := exists_written_string s
  have h := Spells.string w
  rwa [htext, hw] at h

theorem spells_whole (n : Int) :
    Spells (.number (.whole n)) (glyphsOf (Value.number (.whole n)).text) := .whole n

/-! ## Members -/

theorem Holds.stops (h : Holds names false fields cs) (rest : List Glyph) : Stops (cs ++ rest) := by
  cases h with
  | close _ gap =>
      rw [List.append_assoc]
      exact stops_gap fun g hg => Or.inr (Or.inr (Or.inr (Option.some.inj hg).symm))
  | field _ gap | other _ gap =>
      rw [List.append_assoc]
      exact stops_gap fun g hg => Or.inr (Or.inl (Option.some.inj hg).symm)

theorem Holds.length_pos (h : Holds names first fields cs) : 0 < cs.length := by
  cases h <;> simp only [List.length_append, List.length_cons] <;> omega

/-- A member is read where its value is, and its text is left for the other members. -/
theorem parseFields_member (first : Bool) (gap before : Gap) (key : WrittenString)
    (colon behind : Gap) {text rest after : List Glyph} {fuel : Nat} {doc : Doc} {fields : Fields}
    (hvalue : parseValue fuel (behind.1 ++ (text ++ (rest ++ after))) = (doc, some (rest ++ after)))
    (hfields : parseFields fuel false (rest ++ after) = (fields, some after)) :
    parseFields (fuel + 2) first
        (gap.1 ++ (separator first ++ (before.1 ++ (WrittenString.quoted key ++ (colon.1 ++
          some ':' :: (behind.1 ++ (text ++ rest)))))) ++ after) =
      (.cons (.ok (WrittenString.text key)) doc fields, some after) := by
  have hmember := parseField_member fuel first key colon hvalue hfields
  simp only [WrittenString.quoted, List.append_assoc, List.cons_append] at hmember ⊢
  rw [parseFields_field, hmember]

/-- The members are read as they stand: the fields with the values that are spelled, the others with
documents that can be passed over. -/
theorem parseFields_holds (h : Holds names first fields cs)
    (named : ∀ field ∈ fields, field.1 ∈ names) (fuel : Nat) (hfuel : 3 * cs.length ≤ fuel)
    (rest : List Glyph) :
    ∃ members : List (String × Doc),
      parseFields fuel first (cs ++ rest) = (.ofMembers members, some rest) ∧
      members.filter (fun member => member.1 ∈ names) = seenAs Value.reread fields ∧
      ∀ name doc, (name, doc) ∈ members → name ∉ names → doc.skip = .ok () := by
  induction h generalizing fuel with
  | close first gap =>
      obtain ⟨fuel, rfl⟩ : ∃ n, fuel = n + 1 := ⟨fuel - 1, by simp at hfuel; omega⟩
      rw [List.append_assoc]
      exact ⟨[], parseFields_close fuel first gap rest, rfl,
        fun _ _ mem => absurd mem List.not_mem_nil⟩
  | @field first gap before key colon behind value text later fields h hlater ih =>
      obtain ⟨hname, named⟩ := List.forall_mem_cons.1 named
      have hlength := hlater.length_pos
      simp only [WrittenString.quoted, List.length_append, List.length_cons] at hfuel
      obtain ⟨fuel, rfl⟩ : ∃ n, fuel = n + 2 := ⟨fuel - 2, by omega⟩
      obtain ⟨members, hmembers, hfilter, hskip⟩ := ih named fuel (by omega)
      obtain ⟨w, rfl, hdoc⟩ := h.exists_written
      have hvalue := parseValue_written w fuel behind (later ++ rest) (by omega)
        (hlater.stops rest)
      rw [hdoc] at hvalue
      refine ⟨(WrittenString.text key, value.reread) :: members,
        parseFields_member first gap before key colon behind hvalue hmembers, ?_, ?_⟩
      · rw [List.filter_cons_of_pos (by simpa using hname), hfilter, seenAs, seenAs, List.map_cons]
      · intro name doc hmem hunnamed
        rcases List.mem_cons.1 hmem with heq | hmem
        · obtain ⟨rfl, rfl⟩ := Prod.mk.inj heq
          exact absurd hname hunnamed
        · exact hskip name doc hmem hunnamed
  | @other first gap before key colon behind text later fields unnamed h hlater ih =>
      have hlength := hlater.length_pos
      simp only [WrittenString.quoted, List.length_append, List.length_cons] at hfuel
      obtain ⟨fuel, rfl⟩ : ∃ n, fuel = n + 2 := ⟨fuel - 2, by omega⟩
      obtain ⟨members, hmembers, hfilter, hskip⟩ := ih named fuel (by omega)
      obtain ⟨doc, hvalue, hdoc⟩ := parseValue_isValue h fuel behind (later ++ rest) (by omega)
        (hlater.stops rest)
      refine ⟨(WrittenString.text key, doc) :: members,
        parseFields_member first gap before key colon behind hvalue hmembers, ?_, ?_⟩
      · rw [List.filter_cons_of_neg (by simpa using unnamed), hfilter]
      · intro name doc hmem hunnamed
        rcases List.mem_cons.1 hmem with heq | hmem
        · obtain ⟨rfl, rfl⟩ := Prod.mk.inj heq
          exact hdoc
        · exact hskip name doc hmem hunnamed

/-! ## Records -/

theorem Record.field?_isSome_iff {r : Record} {name : String} :
    (r.field? name).isSome = true ↔ name ∈ r.fields.map Field.name := by
  rw [field?, List.find?_isSome, List.mem_map]
  simp only [decide_eq_true_eq]

theorem Record.own_eq_filter (r : Record) (members : List (String × Doc)) :
    r.own members = members.filter fun member => member.1 ∈ r.fields.map Field.name := by
  refine List.filter_congr fun member _ => ?_
  rw [Bool.eq_iff_iff, field?_isSome_iff, decide_eq_true_eq]

/-- The fields of a record that an object holds are found under their names. -/
theorem docs_of_holds {r : Record} (h : Holds (r.fields.map Field.name) true fields cs)
    (named : ∀ field ∈ fields, field.1 ∈ r.fields.map Field.name)
    (once : (fields.map Prod.fst).Nodup)
    (known : ∀ field ∈ r.fields, ∀ value, (field.name, value) ∈ fields →
      field.check value.reread = .ok ())
    (present : ∀ field ∈ r.fields, field.presence = .required →
      ∃ value, (field.name, value) ∈ fields) (before after : Gap) :
    ∃ doc docs,
      (∀ {α : Type} (reader : Doc → Except Fault α),
        Doc.read reader (before.1 ++ some '\x7b' :: (cs ++ after.1)) = reader doc) ∧
      r.docs .text doc = .ok docs ∧
      ∀ name ∈ r.fields.map Field.name,
        docs.lookup name = (fields.lookup name).map Value.reread := by
  obtain ⟨members, hmembers, hfilter, hskip⟩ := parseFields_holds h named
    (3 * (before.1 ++ some '\x7b' :: (cs ++ after.1)).length + 2)
    (by simp only [List.length_append, List.length_cons]; omega) after.1
  have hown : r.own members = seenAs Value.reread fields := by
    rw [Record.own_eq_filter, ← hfilter]
  have hparse : Doc.parse (before.1 ++ some '\x7b' :: (cs ++ after.1)) =
      (.object (.ofMembers members), some after.1) := by
    rw [Doc.parse, parseValue, skipSpace_gap, skipSpace_cons (by decide)]
    simp only [hmembers]
  have hmem : ∀ {name doc}, (name, doc) ∈ r.own members →
      ∃ value, (name, value) ∈ fields ∧ value.reread = doc := by
    intro name doc hdoc
    rw [hown] at hdoc
    obtain ⟨⟨_, value⟩, hfield, heq⟩ := List.mem_map.1 hdoc
    obtain ⟨rfl, rfl⟩ := Prod.mk.inj heq
    exact ⟨value, hfield, rfl⟩
  have honce : ((r.own members).map Prod.fst).Nodup := by
    rw [hown, seenAs, List.map_map]
    exact once
  obtain ⟨docs, hdocs, found⟩ := Record.docs_of_own honce
    (fun field hfield doc hdoc => by
      obtain ⟨value, hvalue, rfl⟩ := hmem hdoc
      exact known field hfield value hvalue)
    (fun name doc hdoc hfield => hskip name doc hdoc fun hnamed => by
      have hsome := Record.field?_isSome_iff.2 hnamed
      rw [hfield] at hsome
      cases hsome)
    (fun field hfield required => by
      obtain ⟨value, hvalue⟩ := present field hfield required
      rw [hown]
      exact ⟨value.reread, List.mem_map.2 ⟨_, hvalue, rfl⟩⟩) .text
  refine ⟨.object (.ofMembers members), docs, fun reader => read_of_parse reader hparse, hdocs,
    fun name hname => ?_⟩
  rw [found name hname, hown, lookup_seenAs]

/-! ## The text of an object -/

theorem holds_later (names : List String) {members : List (String × Value)}
    (spelled : ∀ member ∈ members, Spells member.2 (glyphsOf member.2.text)) :
    Holds names false members
      ((Value.memberTexts members).flatMap (fun t => some ',' :: glyphsOf t) ++
        [some '\x7d']) := by
  induction members with
  | nil => exact .close false Gap.none
  | cons member members ih =>
      obtain ⟨name, value⟩ := member
      obtain ⟨hvalue, hmembers⟩ := List.forall_mem_cons.1 spelled
      obtain ⟨key, hkey, rfl⟩ := exists_written_string name
      have h := Holds.field false Gap.none Gap.none key Gap.none Gap.none hvalue (ih hmembers)
      have hcolon : glyphsOf ":" = [some ':'] := rfl
      simpa [Gap.none, separator, hkey, Value.memberTexts, glyphsOf_append, hcolon] using h

/-- The text of an object holds its members. -/
theorem holds_text (names : List String) {members : List (String × Value)}
    (spelled : ∀ member ∈ members, Spells member.2 (glyphsOf member.2.text)) :
    Holds names true members
      (glyphsOf (commaSeparated (Value.memberTexts members)) ++ [some '\x7d']) := by
  cases members with
  | nil => exact .close true Gap.none
  | cons member members =>
      obtain ⟨name, value⟩ := member
      obtain ⟨hvalue, hmembers⟩ := List.forall_mem_cons.1 spelled
      obtain ⟨key, hkey, rfl⟩ := exists_written_string name
      have h := Holds.field true Gap.none Gap.none key Gap.none Gap.none hvalue
        (holds_later names hmembers)
      have hcolon : glyphsOf ":" = [some ':'] := rfl
      simpa [Gap.none, separator, hkey, Value.memberTexts, glyphsOf_commaSeparated,
        glyphsOf_append, hcolon] using h

end Settlement.Json
