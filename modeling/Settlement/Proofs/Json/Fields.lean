import Settlement.Json.Record
import Settlement.Proofs.Json.Printing

/-!
# Records read twice

A record that was read from a value is read again from the text of that value, with the same fields
(`docs_reread`). The second reader differs from the first: it meets the members in the text, checks
the ones that it skips, and does not count the elements behind the last field. Since the text of a
value has no faults, what the first reader accepts the second one accepts as well.
-/

namespace Settlement.Json

/-- What the reader gives for a value, it gives for the value reread. -/
def Steady {α : Type} (reader : Doc → Except Fault α) : Prop :=
  ∀ v a, reader (Value.doc v) = .ok a → reader v.reread = .ok a

theorem of_bind {ε α β : Type} {x : Except ε α} {f : α → Except ε β} {b : β}
    (h : x >>= f = .ok b) : ∃ a, x = .ok a ∧ f a = .ok b := by
  cases x with
  | error fault => cases h
  | ok a => exact ⟨a, rfl, h⟩

theorem wrongType_ne_ok {α : Type} (doc : Doc) (expected : String) (a : α) :
    doc.wrongType expected ≠ .ok a := by
  intro h
  obtain ⟨found, -, h⟩ := of_bind h
  cases h

theorem steady_map {α β : Type} {reader : Doc → Except Fault α} (h : Steady reader) (f : α → β) :
    Steady fun doc => (reader doc).map f := by
  intro v b hb
  dsimp only at hb ⊢
  cases hread : reader v.doc with
  | error fault =>
      rw [hread] at hb
      cases hb
  | ok a =>
      rw [hread] at hb
      rw [h v a hread]
      exact hb

theorem steady_readString : Steady Doc.readString := by
  intro v s h
  cases v with
  | string t => exact h
  | _ => exact absurd h (wrongType_ne_ok _ _ _)

/-- Integers of 64 bits are the same in the text. -/
theorem steady_readInteger (kind : String) {low high : Int} (hlow : -(2 ^ 63) ≤ low)
    (hhigh : high < 2 ^ 64) : Steady (Doc.readInteger kind low high) := by
  intro v n h
  match v with
  | .number (.whole m) =>
      rw [Value.doc, Doc.readInteger] at h
      split at h
      next hrange =>
        have hsame := reread_whole (Int.le_trans hlow hrange.1) (Int.lt_of_le_of_lt hrange.2 hhigh)
        rw [Value.reread, hsame, Doc.readInteger, if_pos hrange, h]
      next => cases h
  | .number (.real x) => exact absurd h (wrongType_ne_ok _ _ _)
  | .null | .boolean _ | .string _ | .array _ | .object _ => exact absurd h (wrongType_ne_ok _ _ _)

theorem steady_readWord32 : Steady Doc.readWord32 :=
  steady_map (steady_readInteger "u32" (by decide) (by decide)) Int.toNat

theorem steady_readInt64 : Steady Doc.readInt64 :=
  steady_readInteger "i64" (by decide) (by decide)

/-! ## Skipping -/

theorem skip_reread_number (n : Number) : n.reread.skip = .ok () := by
  obtain ⟨w, -, hdoc⟩ := exists_written_number n
  rw [← hdoc]
  exact w.skip_doc

mutual

/-- A value reread has no fault that skipping notices. -/
theorem skip_reread : ∀ v : Value, v.reread.skip = .ok ()
  | .null | .boolean _ | .string _ => rfl
  | .number n => skip_reread_number n
  | .array items => skip_rereadItems items
  | .object members => skip_rereadFields members

theorem skip_rereadItems : ∀ items : List Value, (Value.rereadItems items).skip = .ok ()
  | [] => rfl
  | item :: rest => by
      rw [Value.rereadItems, Items.skip, skip_reread item]
      exact skip_rereadItems rest

theorem skip_rereadFields : ∀ members : List (String × Value),
    (Value.rereadFields members).skip = .ok ()
  | [] => rfl
  | (_, value) :: rest => by
      rw [Value.rereadFields, Fields.skip, skip_reread value]
      exact skip_rereadFields rest

end

mutual

theorem skip_doc : ∀ v : Value, v.doc.skip = .ok ()
  | .null | .boolean _ | .string _ | .number _ => rfl
  | .array items => skip_docItems items
  | .object members => skip_docFields members

theorem skip_docItems : ∀ items : List Value, (Value.docItems items).skip = .ok ()
  | [] => rfl
  | item :: rest => by
      rw [Value.docItems, Items.skip, skip_doc item]
      exact skip_docItems rest

theorem skip_docFields : ∀ members : List (String × Value),
    (Value.docFields members).skip = .ok ()
  | [] => rfl
  | (_, value) :: rest => by
      rw [Value.docFields, Fields.skip, skip_doc value]
      exact skip_docFields rest

end

/-! ## Fields -/

/-- The fields that were found, with their values as one reader sees them. -/
def seenAs (view : Value → Doc) (known : List (String × Value)) : FieldDocs :=
  known.map fun field => (field.1, view field.2)

theorem lookup_seenAs (view : Value → Doc) (known : List (String × Value)) (name : String) :
    (seenAs view known).lookup name = (known.lookup name).map view := by
  induction known with
  | nil => rfl
  | cons field known ih =>
      rw [seenAs, List.map_cons, List.lookup_cons, List.lookup_cons, ← seenAs, ih]
      split <;> rfl

namespace Record

variable {r : Record}

/-- The checks of the fields accept a value again in its text. -/
def Checked (r : Record) : Prop := ∀ field ∈ r.fields, Steady field.check

theorem inText_reread (checked : r.Checked) : ∀ (members known : List (String × Value))
    {docs : FieldDocs},
    r.inText (seenAs Value.doc known) (Value.docFields members) = .ok docs →
      ∃ found, docs = seenAs Value.doc found ∧
        r.inText (seenAs Value.reread known) (Value.rereadFields members) =
          .ok (seenAs Value.reread found)
  | [], known, docs, h => ⟨known, (Except.ok.inj h).symm, rfl⟩
  | (name, value) :: members, known, docs, h => by
      rw [Value.docFields, inText] at h
      rw [Value.rereadFields, inText]
      obtain ⟨_, hname, h⟩ := of_bind h
      obtain rfl := Except.ok.inj hname
      simp only [bind, Except.bind]
      cases hfield : r.field? name with
      | none =>
          simp only [hfield, skip_doc, skip_reread] at h ⊢
          exact inText_reread checked members known h
      | some field =>
          have hmem : field ∈ r.fields := List.mem_of_find?_eq_some hfield
          simp only [hfield, lookup_seenAs, Option.isSome_map] at h ⊢
          cases hseen : (known.lookup name).isSome with
          | true =>
              rw [hseen] at h
              cases h
          | false =>
              rw [hseen] at h
              obtain ⟨a, hcheck, h⟩ := of_bind h
              rw [checked field hmem value a hcheck]
              exact inText_reread checked members ((name, value) :: known) h

theorem missing?_seenAs (view other : Value → Doc) (known : List (String × Value)) :
    r.missing? (seenAs view known) = r.missing? (seenAs other known) := by
  simp only [missing?, lookup_seenAs, Option.isNone_map]

/-- What may stand behind the last field of a value, may in a text. -/
theorem ending_reread {length : Nat} {items : List Value}
    (h : ending .value length (Value.docItems items) = .ok ()) :
    ending .text length (Value.rereadItems items) = .ok () := by
  cases items with
  | nil => rfl
  | cons item items => cases h

theorem inOrder_reread : ∀ (fields : List Field) (index : Nat) (items : List Value)
    {docs : FieldDocs}, (∀ field ∈ fields, Steady field.check) →
    r.inOrder .value index fields (Value.docItems items) = .ok docs →
      ∃ found, docs = seenAs Value.doc found ∧
        r.inOrder .text index fields (Value.rereadItems items) = .ok (seenAs Value.reread found)
  | [], index, items, docs, _, h => by
      rw [inOrder] at h ⊢
      obtain ⟨_, hending, h⟩ := of_bind h
      rw [ending_reread hending]
      exact ⟨[], (Except.ok.inj h).symm, rfl⟩
  | field :: fields, index, [], docs, checked, h => by
      rw [Value.docItems, inOrder] at h
      rw [Value.rereadItems, inOrder]
      split at h
      next hdefault =>
        rw [if_pos hdefault]
        exact inOrder_reread fields (index + 1) []
          (fun field hmem => checked field (List.mem_cons_of_mem _ hmem)) h
      next => cases h
  | field :: fields, index, item :: items, docs, checked, h => by
      rw [Value.docItems, inOrder] at h
      rw [Value.rereadItems, inOrder]
      obtain ⟨a, hcheck, h⟩ := of_bind h
      obtain ⟨docs', hrest, h⟩ := of_bind h
      obtain ⟨found, rfl, hfound⟩ := inOrder_reread fields (index + 1) items
        (fun field hmem => checked field (List.mem_cons_of_mem _ hmem)) hrest
      rw [checked field List.mem_cons_self item a hcheck, hfound]
      exact ⟨(field.name, item) :: found, (Except.ok.inj h).symm, rfl⟩

/-- The fields of a value are found in its text, too. -/
theorem docs_reread (checked : r.Checked) {v : Value} {docs : FieldDocs}
    (h : r.docs .value v.doc = .ok docs) :
    ∃ found, docs = seenAs Value.doc found ∧
      r.docs .text v.reread = .ok (seenAs Value.reread found) := by
  match v with
  | .null | .boolean _ | .number _ | .string _ => exact absurd h (wrongType_ne_ok _ _ _)
  | .array items => exact inOrder_reread r.fields 0 items checked h
  | .object members =>
      rw [Value.doc, Record.docs] at h
      rw [Value.reread, Record.docs]
      obtain ⟨docs', hdocs, h⟩ := of_bind h
      obtain ⟨found, rfl, hfound⟩ := inText_reread checked members [] hdocs
      rw [seenAs, List.map_nil] at hfound
      rw [missing?_seenAs Value.doc Value.reread] at h
      rw [hfound]
      simp only [bind, Except.bind]
      cases hmissing : r.missing? (seenAs Value.reread found) with
      | some field =>
          rw [hmissing] at h
          cases h
      | none =>
          rw [hmissing] at h
          exact ⟨found, (Except.ok.inj h).symm, rfl⟩

end Record

namespace FieldDocs

variable {α : Type} {reader : Doc → Except Fault α} {found : List (String × Value)} {name : String}

theorem required_reread (h : Steady reader) {a : α}
    (hread : (seenAs Value.doc found).required name reader = .ok a) :
    (seenAs Value.reread found).required name reader = .ok a := by
  rw [required, lookup_seenAs] at hread ⊢
  cases hlookup : found.lookup name with
  | none =>
      rw [hlookup] at hread
      cases hread
  | some v =>
      rw [hlookup] at hread
      exact h v a hread

theorem withDefault_reread (h : Steady reader) {default a : α}
    (hread : (seenAs Value.doc found).withDefault name reader default = .ok a) :
    (seenAs Value.reread found).withDefault name reader default = .ok a := by
  rw [withDefault, lookup_seenAs] at hread ⊢
  cases hlookup : found.lookup name with
  | none =>
      rw [hlookup] at hread
      exact hread
  | some v =>
      rw [hlookup] at hread
      exact h v a hread

end FieldDocs

end Settlement.Json
