import Mathlib.Data.List.Forall2
import Mathlib.Data.List.ReduceOption
import Settlement.Proofs.Json.Fields
import Settlement.Proofs.Queue.Stream.Pages

/-!
# What a take-over brings

The answer to a take-over is nested lists in which much may be missing. `TookOver r next slots` says
how `r` is built when it gives `next` as the place where the next take-over goes on, and then the
entries in `slots`, with `none` for one that is no longer in the stream. Exactly these answers are
accepted, and all entries in them come out (`readTakeOver_eq_ok_iff`). `Splits` then sorts entries
into messages and the ids of those that hold none, one by one in their order (`split_eq_iff`).
-/

namespace Settlement.Queue.Stream

open Json (of_bind)
open Redis (Reply Fault)

/-- The answer is a text, sent as bytes or as a status. -/
inductive IsText : Reply → String → Prop
  | data (s : String) : IsText (.data s.toUTF8) s
  | status (s : String) : IsText (.status s) s

/-- The elements are names and values by turns. A last name may be without a value, and is not
looked at. -/
inductive FieldsIn : List Reply → List (String × Reply) → Prop
  | done : FieldsIn [] []
  | odd (name : Reply) : FieldsIn [name] []
  | field {name value : Reply} {text : String} {rest : List Reply} {fields : List (String × Reply)}
      (named : IsText name text) (later : FieldsIn rest fields) :
      FieldsIn (name :: value :: rest) ((text, value) :: fields)

/-- An element of the list of entries: an entry with its id and its fields, one without a list of
fields, or what stands in for one that is gone. -/
inductive EntryIn : Reply → Option Entry → Prop
  | entry {id : Reply} {text : String} {elements : List Reply} {fields : List (String × Reply)}
      (rest : List Reply) (named : IsText id text) (held : FieldsIn elements fields) :
      EntryIn (.bulk (id :: .bulk elements :: rest)) (some ⟨text, fields⟩)
  | bare {id : Reply} {text : String} {rest : List Reply} (named : IsText id text)
      (without : ∀ elements more, rest ≠ .bulk elements :: more) :
      EntryIn (.bulk (id :: rest)) (some ⟨text, []⟩)
  | gone {r : Reply} (without : ∀ id rest, r ≠ .bulk (id :: rest)) : EntryIn r none

/-- An answer that starts with a text and a list of entries. -/
inductive TookOver : Reply → String → List (Option Entry) → Prop
  | intro {cursor : Reply} {next : String} {entries : List Reply} {slots : List (Option Entry)}
      (rest : List Reply) (named : IsText cursor next)
      (listed : List.Forall₂ EntryIn entries slots) :
      TookOver (.bulk (cursor :: .bulk entries :: rest)) next slots

/-- An entry as the server sends it, nothing where it is gone. -/
def slotReply : Option Entry → Reply
  | some e => entryReply e
  | none => .nil

/-- Entries as the server sends them behind the place where the next take-over goes on, and what
else it may add. -/
def slotsReply (next : String) (slots : List (Option Entry)) (rest : List Reply) : Reply :=
  .bulk (.data next.toUTF8 :: .bulk (slots.map slotReply) :: rest)

/-- The value is the one that was written last under the name. -/
def WrittenLast (fields : List (String × Reply)) (name : String) (value : Reply) : Prop :=
  ∃ before after, fields = before ++ (name, value) :: after ∧ ∀ field ∈ after, field.1 ≠ name

/-- Entries one by one: a message where the last body can be read as bytes, else an id. -/
inductive Splits (queue : String) (redelivered : Bool) :
    List Entry → List Delivery → List String → Prop
  | done : Splits queue redelivered [] [] []
  | message {e : Entry} {value : Reply} {body : ByteArray} {entries : List Entry}
      {messages : List Delivery} {ids : List String} (written : WrittenLast e.fields "body" value)
      (readable : value.bytes? = some body)
      (later : Splits queue redelivered entries messages ids) :
      Splits queue redelivered (e :: entries) (⟨e.id, queue, body, redelivered⟩ :: messages) ids
  | bare {e : Entry} {entries : List Entry} {messages : List Delivery} {ids : List String}
      (unreadable : ∀ value, WrittenLast e.fields "body" value → value.bytes? = none)
      (later : Splits queue redelivered entries messages ids) :
      Splits queue redelivered (e :: entries) messages (e.id :: ids)

section

variable {r : Reply} {next text : String} {fields : List (String × Reply)} {rest : List Reply}

/-! ## Texts and fields -/

theorem toUTF8_of_fromUTF8? {bytes : ByteArray} (h : String.fromUTF8? bytes = some text) :
    text.toUTF8 = bytes := by
  unfold String.fromUTF8? at h
  split at h
  next =>
    obtain rfl := Option.some.inj h
    rfl
  next => cases h

theorem text?_eq_ok_iff : r.text? = .ok text ↔ IsText r text := by
  constructor
  · intro h
    unfold Reply.text? at h
    split at h
    next bytes =>
      split at h
      next s read =>
        obtain rfl := Except.ok.inj h
        exact toUTF8_of_fromUTF8? read ▸ .data s
      next => cases h
    next =>
      obtain rfl := Except.ok.inj h
      exact .status _
    next => cases h
  · rintro (_ | _)
    · exact text?_data text
    · rfl

/-- What is no text is no fault of the connection. -/
theorem text?_eq_error {fault : Fault} (h : r.text? = .error fault) :
    ∃ reason, fault = .unexpected reason := by
  unfold Reply.text? at h
  split at h
  next =>
    split at h
    next => cases h
    next => exact ⟨_, (Except.error.inj h).symm⟩
  next => cases h
  next => exact ⟨_, (Except.error.inj h).symm⟩

theorem readFields_of_fieldsIn {elements : List Reply} (held : FieldsIn elements fields) :
    (wholePairs elements).mapM readField = .ok fields := by
  induction held with
  | done => rfl
  | odd name => rfl
  | field named later ih =>
      rw [wholePairs, List.mapM_cons, ih, readField, text?_eq_ok_iff.2 named]
      rfl

theorem fieldsIn_of_readFields : ∀ {elements : List Reply} {fields : List (String × Reply)},
    (wholePairs elements).mapM readField = .ok fields → FieldsIn elements fields
  | [], _, h => Except.ok.inj h ▸ .done
  | [name], _, h => Except.ok.inj h ▸ .odd name
  | name :: value :: rest, _, h => by
      rw [wholePairs, List.mapM_cons] at h
      obtain ⟨field, read, h⟩ := of_bind h
      obtain ⟨fields, later, h⟩ := of_bind h
      obtain ⟨text, named, read⟩ := of_bind read
      obtain rfl := Except.ok.inj h
      obtain rfl := Except.ok.inj read
      exact .field (text?_eq_ok_iff.1 named) (fieldsIn_of_readFields later)

/-! ## Entries -/

theorem takenFields_of_bare (without : ∀ elements more, rest ≠ .bulk elements :: more) :
    takenFields rest = .ok [] := by
  unfold takenFields
  split
  next elements more => exact absurd rfl (without elements more)
  next => rfl

theorem readTaken_of_gone (without : ∀ id rest, r ≠ .bulk (id :: rest)) :
    readTaken r = .ok none := by
  unfold readTaken
  split
  next id rest => exact absurd rfl (without id rest)
  next => rfl

theorem readTaken_eq_ok_iff {slot : Option Entry} : readTaken r = .ok slot ↔ EntryIn r slot := by
  constructor
  · intro h
    unfold readTaken at h
    split at h
    next id rest =>
      obtain ⟨text, named, h⟩ := of_bind h
      obtain ⟨fields, held, h⟩ := of_bind h
      obtain rfl := Except.ok.inj h
      have named := text?_eq_ok_iff.1 named
      unfold takenFields at held
      split at held
      next elements more _ => exact .entry more named (fieldsIn_of_readFields held)
      next without =>
        obtain rfl := Except.ok.inj held
        exact .bare named fun elements more heq => without elements more heq
    next without =>
      obtain rfl := Except.ok.inj h
      exact .gone fun id rest heq => without id rest heq
  · intro h
    cases h with
    | entry rest named held =>
        rw [readTaken, text?_eq_ok_iff.2 named, takenFields, readFields_of_fieldsIn held]
        rfl
    | bare named without =>
        rw [readTaken, text?_eq_ok_iff.2 named, takenFields_of_bare without]
        rfl
    | gone without => exact readTaken_of_gone without

theorem mapM_readTaken_eq_ok_iff {entries : List Reply} {slots : List (Option Entry)} :
    entries.mapM readTaken = .ok slots ↔ List.Forall₂ EntryIn entries slots := by
  induction entries generalizing slots with
  | nil =>
      rw [List.forall₂_nil_left_iff]
      exact ⟨fun h => (Except.ok.inj h).symm, fun h => congrArg Except.ok h.symm⟩
  | cons r entries ih =>
      rw [List.mapM_cons, List.forall₂_cons_left_iff]
      constructor
      · intro h
        obtain ⟨slot, first, h⟩ := of_bind h
        obtain ⟨slots, later, h⟩ := of_bind h
        exact ⟨slot, slots, readTaken_eq_ok_iff.1 first, ih.1 later, (Except.ok.inj h).symm⟩
      · rintro ⟨slot, slots, first, later, rfl⟩
        rw [readTaken_eq_ok_iff.2 first, ih.2 later]
        rfl

/-- An answer is accepted exactly if it is built as one, and gives all entries that are there. -/
theorem readTakeOver_eq_ok_iff {page : List Entry} :
    readTakeOver r = .ok (next, page) ↔ ∃ slots, TookOver r next slots ∧
      page = slots.reduceOption := by
  constructor
  · intro h
    unfold readTakeOver at h
    split at h
    next cursor rest =>
      obtain ⟨text, named, h⟩ := of_bind h
      split at h
      next entries more _ =>
        obtain ⟨slots, listed, h⟩ := of_bind h
        obtain ⟨rfl, rfl⟩ := Prod.mk.inj (Except.ok.inj h)
        exact ⟨slots, .intro more (text?_eq_ok_iff.1 named) (mapM_readTaken_eq_ok_iff.1 listed),
          rfl⟩
      next => cases h
    next => cases h
  · rintro ⟨slots, ⟨rest, named, listed⟩, rfl⟩
    rw [readTakeOver, text?_eq_ok_iff.2 named]
    simp only [bind, Except.bind]
    rw [mapM_readTaken_eq_ok_iff.2 listed]
    rfl

/-- An answer starts with a text and a list, or it is refused by the consumer itself. -/
theorem started_or_unexpected (r : Reply) :
    (∃ cursor next entries rest, IsText cursor next ∧ r = .bulk (cursor :: .bulk entries :: rest)) ∨
      ∃ reason, readTakeOver r = .error (.unexpected reason) := by
  unfold readTakeOver
  split
  next cursor rest =>
    cases named : cursor.text? with
    | error fault =>
        obtain ⟨reason, rfl⟩ := text?_eq_error named
        exact Or.inr ⟨reason, rfl⟩
    | ok next =>
        dsimp only [bind, Except.bind]
        split
        next entries rest =>
          exact Or.inl ⟨cursor, next, entries, rest, text?_eq_ok_iff.1 named, rfl⟩
        next => exact Or.inr ⟨_, rfl⟩
  next => exact Or.inr ⟨_, rfl⟩

/-- What the server sends is built as an answer. -/
theorem tookOver_slotsReply (next : String) (slots : List (Option Entry)) (rest : List Reply) :
    TookOver (slotsReply next slots rest) next slots := by
  refine .intro rest (.data next) (List.forall₂_map_left_iff.2 (List.forall₂_same.2 ?_))
  rintro (_ | e) -
  · exact .gone nofun
  · exact readTaken_eq_ok_iff.1 (readTaken_entryReply e)

/-! ## Messages -/

theorem value?_eq_some_iff {e : Entry} {name : String} {value : Reply} :
    e.value? name = some value ↔ WrittenLast e.fields name value := by
  rw [Entry.value?, List.lookup_eq_some_iff]
  constructor
  · rintro ⟨after, before, heq, without⟩
    refine ⟨before.reverse, after.reverse, ?_, fun field mem same => ?_⟩
    · rw [← List.reverse_reverse e.fields, heq]
      simp
    · exact absurd (without field (List.mem_reverse.1 mem)) (by simp [same])
  · rintro ⟨before, after, heq, without⟩
    refine ⟨after.reverse, before.reverse, by simp [heq], fun field mem => ?_⟩
    exact bne_iff_ne.2 (without field (List.mem_reverse.1 mem)).symm

theorem body?_eq_none_iff {e : Entry} :
    e.body? = none ↔ ∀ value, WrittenLast e.fields "body" value → value.bytes? = none := by
  simp only [Entry.body?, Option.bind_eq_none_iff, value?_eq_some_iff]

theorem split_cons (queue : String) (redelivered : Bool) (e : Entry) (entries : List Entry) :
    split queue redelivered (e :: entries) =
      match e.body? with
      | some body =>
        (⟨e.id, queue, body, redelivered⟩ :: (split queue redelivered entries).1,
          (split queue redelivered entries).2)
      | none =>
        ((split queue redelivered entries).1, e.id :: (split queue redelivered entries).2) := by
  unfold split Entry.delivery?
  cases hbody : e.body? <;> simp [hbody]

theorem splits_split (queue : String) (redelivered : Bool) (entries : List Entry) :
    Splits queue redelivered entries (split queue redelivered entries).1
      (split queue redelivered entries).2 := by
  induction entries with
  | nil => exact .done
  | cons e entries ih =>
      rw [split_cons]
      cases hbody : e.body? with
      | none => exact .bare (body?_eq_none_iff.1 hbody) ih
      | some body =>
          obtain ⟨value, written, readable⟩ := Option.bind_eq_some_iff.1 hbody
          exact .message (value?_eq_some_iff.1 written) readable ih

theorem split_eq_iff {queue : String} {redelivered : Bool} {entries : List Entry}
    {messages : List Delivery} {ids : List String} :
    split queue redelivered entries = (messages, ids) ↔
      Splits queue redelivered entries messages ids := by
  constructor
  · rintro heq
    obtain ⟨rfl, rfl⟩ := Prod.mk.inj heq
    exact splits_split queue redelivered entries
  · intro splits
    induction splits with
    | done => rfl
    | message written readable later ih =>
        rw [split_cons, Entry.body?, value?_eq_some_iff.2 written, Option.bind_some, readable]
        simp only [ih]
    | bare unreadable later ih =>
        rw [split_cons, body?_eq_none_iff.2 unreadable]
        simp only [ih]

end

end Settlement.Queue.Stream
