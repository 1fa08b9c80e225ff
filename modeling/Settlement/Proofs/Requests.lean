import Settlement.Proofs.Json.Spelled
import Settlement.Request

/-!
# Requests in all their spellings

Services write a request as they like: its fields in any order, with any white space and escapes,
among fields of their own, and without the version when it is the current one
(`Request.Spelled`). Each of these texts is read as the request, and so is the text that the request
itself is written as (`ofBody?_of_spelled`).
-/

namespace Settlement

namespace Request

open Json

/-- The fields of a request but its version. -/
def members : Request → List (String × Value)
  | ethereum r => [("user_name", .string r.user), ("payment_number", .ofInt r.number)]
  | dash r =>
    [("user_name", .string r.user), ("payment_forward_id", .string r.forwardId),
      ("payment_number", .ofInt r.number)]
  | bitcoinCash r =>
    [("user_name", .string r.user), ("sender_address", .string r.sender),
      ("recipient_address", .string r.recipient), ("payment_number", .ofInt r.number)]

/-- The names of all fields. -/
def names (r : Request) : List String := "version" :: r.members.map Prod.fst

/-- The fields are those of the request, once each; the current version may be left out. -/
def Complete (r : Request) (fields : List (String × Value)) : Prop :=
  fields.Perm (("version", .ofNat r.version) :: r.members) ∨
    r.version = messageVersion ∧ fields.Perm r.members

/-- The glyphs are an object that holds the fields of the request, among others. -/
inductive Spelled (r : Request) : List Glyph → Prop
  | intro (before after : Gap) {fields : List (String × Value)} {cs : List Glyph}
      (complete : r.Complete fields) (holds : Holds r.names true fields cs) :
      r.Spelled (before.1 ++ some '\x7b' :: (cs ++ after.1))

/-- The record that the messages of a chain are. -/
def record : Blockchain → Record
  | .ethereum => ethereumRecord
  | .dash => dashRecord
  | .bitcoinCash => bitcoinCashRecord

variable {r : Request} {fields : List (String × Value)}

theorem names_record (r : Request) : (record r.chain).fields.map Field.name = r.names := by
  cases r <;> rfl

theorem nodup_names (r : Request) : r.names.Nodup := by
  cases r <;> exact of_decide_eq_true rfl

theorem json_eq (r : Request) : r.json = .object (("version", .ofNat r.version) :: r.members) := by
  cases r <;> rfl

theorem spells_members (r : Request) :
    ∀ member ∈ r.members, Spells member.2 (glyphsOf member.2.text) := by
  cases r <;>
    simp only [members, List.forall_mem_cons, spells_string, true_and] <;>
    exact ⟨spells_whole _, nofun⟩

/-- A request is written as one of its texts. -/
theorem spelled_text (r : Request) : r.Spelled (glyphsOf r.json.text) := by
  have holds := holds_text r.names
    (List.forall_mem_cons.2 ⟨spells_whole r.version, r.spells_members⟩ :
      ∀ member ∈ ("version", Value.ofNat r.version) :: r.members, _)
  have h := Spelled.intro Gap.none Gap.none (Or.inl (List.Perm.refl _)) holds
  rw [json_eq, Value.text, glyphsOf_append, glyphsOf_append, List.append_assoc]
  simp only [Gap.none, List.append_nil, List.nil_append] at h
  exact h

/-! ## The fields -/

namespace Complete

theorem mem_cons (complete : r.Complete fields) :
    ∀ field ∈ fields, field ∈ ("version", .ofNat r.version) :: r.members := by
  intro field hfield
  rcases complete with perm | ⟨-, perm⟩
  · exact perm.mem_iff.1 hfield
  · exact List.mem_cons_of_mem _ (perm.mem_iff.1 hfield)

theorem mem_of_mem (complete : r.Complete fields) : ∀ member ∈ r.members, member ∈ fields := by
  intro member hmember
  rcases complete with perm | ⟨-, perm⟩
  · exact perm.mem_iff.2 (List.mem_cons_of_mem _ hmember)
  · exact perm.mem_iff.2 hmember

theorem named (complete : r.Complete fields) : ∀ field ∈ fields, field.1 ∈ r.names := fun _ h =>
  List.mem_map_of_mem (complete.mem_cons _ h)

theorem once (complete : r.Complete fields) : (fields.map Prod.fst).Nodup := by
  rcases complete with perm | ⟨-, perm⟩
  · exact (perm.map Prod.fst).nodup_iff.2 r.nodup_names
  · exact (perm.map Prod.fst).nodup_iff.2 (List.nodup_cons.1 r.nodup_names).2

/-- The version that is written counts, and one that is left out is the current one. -/
theorem version (complete : r.Complete fields) :
    fields.lookup "version" = some (.ofNat r.version) ∨
      fields.lookup "version" = none ∧ r.version = messageVersion := by
  rcases complete with perm | ⟨current, perm⟩
  · refine Or.inl (Record.lookup_of_mem ?_ (perm.mem_iff.2 List.mem_cons_self))
    exact (perm.map Prod.fst).nodup_iff.2 r.nodup_names
  · have fresh := (List.nodup_cons.1 r.nodup_names).1
    refine Or.inr ⟨List.lookup_eq_none_iff.2 fun field hfield => bne_iff_ne.2 ?_, current⟩
    intro hname
    exact fresh (hname ▸ List.mem_map_of_mem (perm.mem_iff.1 hfield))

end Complete

/-! ## Their values -/

theorem readInteger_reread {kind : String} {low high n : Int} (hlow : -(2 ^ 63) ≤ n)
    (hhigh : n < 2 ^ 64) (h : low ≤ n ∧ n ≤ high) :
    Doc.readInteger kind low high (Value.ofInt n).reread = .ok n := by
  rw [Value.ofInt, Value.reread, reread_whole hlow hhigh, Doc.readInteger, if_pos h]

theorem readWord32_reread {n : Nat} (h : n < 2 ^ 32) :
    Doc.readWord32 (Value.ofNat n).reread = .ok n := by
  have hpow : (twoPow 32 : Int) = 2 ^ 32 := rfl
  have hread : Doc.readInteger "u32" 0 ((twoPow 32 : Int) - 1) (Value.ofInt n).reread = .ok n :=
    readInteger_reread (by omega) (by omega) (by omega)
  exact congrArg (Except.map Int.toNat) hread

theorem readInt64_reread {n : Int} (low : -(2 ^ 63) ≤ n) (high : n < 2 ^ 63) :
    Doc.readInt64 (Value.ofInt n).reread = .ok n := by
  have hpow : (twoPow 63 : Int) = 2 ^ 63 := rfl
  exact readInteger_reread low (by omega) (by omega)

/-- A field that can be read passes its check. -/
theorem check_of {α : Type} {name : String} {reader : Doc → Except Fault α} {presence : Presence}
    {doc : Doc} {a : α} (h : reader doc = .ok a) :
    (Field.of name reader presence).check doc = .ok () := by
  change (reader doc).map (fun _ => ()) = .ok ()
  rw [h]
  rfl

/-- The fields of a request pass the checks of its record. -/
theorem exists_checked (version : r.version < 2 ^ 32) (low : -(2 ^ 63) ≤ r.number)
    (high : r.number < 2 ^ 63) :
    ∀ field ∈ (record r.chain).fields, ∃ value,
      (field.name, value) ∈ ("version", .ofNat r.version) :: r.members ∧
        field.check value.reread = .ok () := by
  have hversion : versionField.check (Value.ofNat r.version).reread = .ok () :=
    check_of (readWord32_reread version)
  have hnumber : (Field.of "payment_number" Doc.readInt64).check (Value.ofInt r.number).reread =
      .ok () := check_of (readInt64_reread low high)
  have htext : ∀ name s, (Field.of name Doc.readString).check (Value.string s).reread = .ok () :=
    fun name s => check_of rfl
  cases r with
  | ethereum r =>
      exact List.forall_mem_cons.2 ⟨⟨_, .head _, hversion⟩,
        List.forall_mem_cons.2 ⟨⟨_, .tail _ (.head _), htext _ _⟩,
          List.forall_mem_singleton.2 ⟨_, .tail _ (.tail _ (.head _)), hnumber⟩⟩⟩
  | dash r =>
      exact List.forall_mem_cons.2 ⟨⟨_, .head _, hversion⟩,
        List.forall_mem_cons.2 ⟨⟨_, .tail _ (.head _), htext _ _⟩,
          List.forall_mem_cons.2 ⟨⟨_, .tail _ (.tail _ (.head _)), htext _ _⟩,
            List.forall_mem_singleton.2 ⟨_, .tail _ (.tail _ (.tail _ (.head _))), hnumber⟩⟩⟩⟩
  | bitcoinCash r =>
      exact List.forall_mem_cons.2 ⟨⟨_, .head _, hversion⟩,
        List.forall_mem_cons.2 ⟨⟨_, .tail _ (.head _), htext _ _⟩,
          List.forall_mem_cons.2 ⟨⟨_, .tail _ (.tail _ (.head _)), htext _ _⟩,
            List.forall_mem_cons.2 ⟨⟨_, .tail _ (.tail _ (.tail _ (.head _))), htext _ _⟩,
              List.forall_mem_singleton.2
                ⟨_, .tail _ (.tail _ (.tail _ (.tail _ (.head _)))), hnumber⟩⟩⟩⟩⟩

/-- Only the version may be left out. -/
theorem presence_version (chain : Blockchain) :
    ∀ field ∈ (record chain).fields, field.presence = .required → field.name ≠ "version" := by
  cases chain <;> decide

theorem Complete.present (complete : r.Complete fields) :
    ∀ field ∈ (record r.chain).fields, field.presence = .required →
      ∃ value, (field.name, value) ∈ fields := by
  intro field hfield required
  have hname : field.name ∈ r.names := by
    rw [← names_record]
    exact List.mem_map_of_mem hfield
  have hmember := (List.mem_cons.1 hname).resolve_left (presence_version _ field hfield required)
  obtain ⟨⟨name, value⟩, hmem, heq⟩ := List.mem_map.1 hmember
  exact ⟨value, heq ▸ complete.mem_of_mem _ hmem⟩

/-- A request is read from the values of its fields. -/
theorem readJson_of_docs {doc : Doc} {docs : FieldDocs}
    (hdocs : (record r.chain).docs .text doc = .ok docs)
    (version : docs.withDefault "version" Doc.readWord32 messageVersion = .ok r.version)
    (low : -(2 ^ 63) ≤ r.number) (high : r.number < 2 ^ 63)
    (found : ∀ member ∈ r.members, docs.lookup member.1 = some member.2.reread) :
    readJson r.chain .text doc = .ok r := by
  have hnumber := readInt64_reread low high
  have required : ∀ {α : Type} {reader : Doc → Except Fault α} {name : String} {value : Value}
      {a : α}, (name, value) ∈ r.members → reader value.reread = .ok a →
        docs.required name reader = .ok a := by
    intro α reader name value a hmem hread
    rw [FieldDocs.required, found _ hmem]
    exact hread
  cases r with
  | ethereum r =>
      have user : docs.required "user_name" Doc.readString = .ok r.user := required (.head _) rfl
      have number : docs.required "payment_number" Doc.readInt64 = .ok r.number :=
        required (.tail _ (.head _)) hnumber
      change (readEthereum .text doc).map _ = _
      change ethereumRecord.docs .text doc = .ok docs at hdocs
      simp only [readEthereum, hdocs, version, user, number, bind, Except.bind]
      rfl
  | dash r =>
      have user : docs.required "user_name" Doc.readString = .ok r.user := required (.head _) rfl
      have forward : docs.required "payment_forward_id" Doc.readString = .ok r.forwardId :=
        required (.tail _ (.head _)) rfl
      have number : docs.required "payment_number" Doc.readInt64 = .ok r.number :=
        required (.tail _ (.tail _ (.head _))) hnumber
      change (readDash .text doc).map _ = _
      change dashRecord.docs .text doc = .ok docs at hdocs
      simp only [readDash, hdocs, version, user, forward, number, bind, Except.bind]
      rfl
  | bitcoinCash r =>
      have user : docs.required "user_name" Doc.readString = .ok r.user := required (.head _) rfl
      have sender : docs.required "sender_address" Doc.readString = .ok r.sender :=
        required (.tail _ (.head _)) rfl
      have recipient : docs.required "recipient_address" Doc.readString = .ok r.recipient :=
        required (.tail _ (.tail _ (.head _))) rfl
      have number : docs.required "payment_number" Doc.readInt64 = .ok r.number :=
        required (.tail _ (.tail _ (.tail _ (.head _)))) hnumber
      change (readBitcoinCash .text doc).map _ = _
      change bitcoinCashRecord.docs .text doc = .ok docs at hdocs
      simp only [readBitcoinCash, hdocs, version, user, sender, recipient, number, bind,
        Except.bind]
      rfl

/-! ## The whole text -/

theorem read_of_spelled (version : r.version < 2 ^ 32) (low : -(2 ^ 63) ≤ r.number)
    (high : r.number < 2 ^ 63) {cs : List Glyph} (spelled : r.Spelled cs) :
    Doc.read (readJson r.chain .text) cs = .ok r := by
  cases spelled with
  | @intro before after fields cs complete holds =>
      rw [← names_record] at holds
      have known : ∀ field ∈ (record r.chain).fields, ∀ value, (field.name, value) ∈ fields →
          field.check value.reread = .ok () := by
        intro field hfield value hvalue
        have once : ((("version", Value.ofNat r.version) :: r.members).map Prod.fst).Nodup :=
          r.nodup_names
        obtain ⟨checked, hmem, hcheck⟩ := exists_checked version low high field hfield
        rwa [Record.eq_of_mem once (complete.mem_cons _ hvalue) hmem]
      obtain ⟨doc, docs, hread, hdocs, found⟩ := docs_of_holds holds
        (fun field hfield => names_record r ▸ complete.named field hfield) complete.once known
        complete.present before after
      rw [names_record] at found
      have hversion : docs.withDefault "version" Doc.readWord32 messageVersion =
          .ok r.version := by
        rw [FieldDocs.withDefault, found _ (.head _)]
        rcases complete.version with h | ⟨h, current⟩
        · rw [h]
          exact readWord32_reread version
        · rw [h, current]
          rfl
      rw [hread]
      refine readJson_of_docs hdocs hversion low high fun member hmember => ?_
      rw [found _ (complete.named _ (complete.mem_of_mem _ hmember)),
        Record.lookup_of_mem complete.once (complete.mem_of_mem _ hmember)]
      rfl

/-- A request is read from each of its texts, whatever their order, spaces and escapes are, and
whatever stands between its fields; among them is the text that it is written as. -/
theorem ofBody?_of_spelled (r : Request) (version : r.version < 2 ^ 32)
    (low : -(2 ^ 63) ≤ r.number) (high : r.number < 2 ^ 63) :
    (∀ text : String, r.Spelled (glyphsOf text) → ofBody? r.chain text.toUTF8 = .ok r) ∧
      ofBody? r.chain r.json.text.toUTF8 = .ok r := by
  have reads : ∀ text : String, r.Spelled (glyphsOf text) →
      ofBody? r.chain text.toUTF8 = .ok r := by
    intro text spelled
    rw [ofBody?, glyphs_toUTF8]
    exact read_of_spelled version low high spelled
  exact ⟨reads, reads _ r.spelled_text⟩

/-- A text that stands as it is, if no character of it needs an escape. -/
def plainly (s : String) : WrittenString :=
  s.toList.filterMap fun c => if h : isPlain c = true then some (.plain c h) else none

/-- The unit of four hexadecimal digits. -/
def unitOf (a b c d : Char) : Fin 4 → Char
  | 0 => a
  | 1 => b
  | 2 => c
  | 3 => d

/-- A user whose name is written with escapes only. -/
def escapedUser : WrittenString :=
  [.code ⟨unitOf '0' '0' '6' '1', by decide⟩ (by unfold CodeUnit.IsHigh; decide)
    (by unfold CodeUnit.IsLow; decide), .letter 'n' '\n' rfl]

/-- A number past the largest one. -/
def endless : WrittenNumber where
  negative := false
  whole := ['1']
  fraction := []
  exponent := some ⟨true, none, ['9', '9', '9'], by simp, by simp⟩
  isDigit := by simp
  whole_ne := by decide
  leading := by decide

def blank : Gap := ⟨[some ' '], by decide⟩

/-- A request without its version, its fields turned around, and behind each of them a note that
nobody reads: one holds half of a pair of escapes and a number past the largest one. -/
def disguised : String :=
  " \x7b \"payment_number\": -7,\"note\":[\x7b\"\\uD800\":null\x7d, 1E999]," ++
    "\"user_name\":\"\\u0061\\n\",\"note\":true \x7d"

theorem spelled_disguised : (ethereum ⟨1, "a\n", -7⟩).Spelled (glyphsOf disguised) := by
  have member := IsMembers.member true Gap.none Gap.none
    [.unit ⟨unitOf 'D' '8' '0' '0', by decide⟩] Gap.none Gap.none .null (.close false Gap.none)
  have note := IsValue.array (.item true Gap.none Gap.none (.object member)
    (.item false Gap.none blank (.number endless) (.close false Gap.none)))
  have user : Holds (ethereum ⟨1, "a\n", -7⟩).names false [("user_name", .string "a\n")] _ :=
    .field false Gap.none Gap.none (plainly "user_name") Gap.none Gap.none (.string escapedUser)
      (.other false Gap.none Gap.none (plainly "note") Gap.none Gap.none (by decide) .yes
        (.close false blank))
  have number := Holds.field true blank Gap.none (plainly "payment_number") Gap.none blank
    (.whole (-7)) (.other false Gap.none Gap.none (plainly "note") Gap.none Gap.none (by decide)
      note user)
  exact .intro blank Gap.none (Or.inr ⟨rfl, .swap _ _ _⟩) number

/-- What was disguised is read as the request that it is. -/
theorem ofBody?_disguised :
    (ethereum ⟨1, "a\n", -7⟩).Spelled (glyphsOf disguised) ∧
      ofBody? .ethereum disguised.toUTF8 = .ok (ethereum ⟨1, "a\n", -7⟩) :=
  ⟨spelled_disguised,
    (ofBody?_of_spelled (ethereum ⟨1, "a\n", -7⟩) (by decide) (by decide) (by decide)).1 _
      spelled_disguised⟩

end Request

end Settlement
