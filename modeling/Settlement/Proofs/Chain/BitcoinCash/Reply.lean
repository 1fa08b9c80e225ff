import Settlement.Proofs.Chain.BitcoinCash.Amounts
import Settlement.Proofs.Decimal.Value
import Settlement.Proofs.Json.Fields
import Settlement.Proofs.Json.Objects

/-!
# The reply about a transaction

A node's reply about a transaction tells, among much else, what its outputs pay and to whom
(`TellsReply`), in a text with whatever white space and order of names. The client makes of it a
transaction with the very outputs, in their order and in satoshis, unless one of them is dust: then
it gives no transaction at all (`transaction_of_reply`).
-/

namespace Settlement.BitcoinCash

open Json

/-- An output as it is told: the address, where there is just one, and the satoshis. -/
abbrev Told := Option String × Nat

/-- The document tells of an output, its satoshis in whole coins. -/
inductive TellsOutput : Doc → Told → Prop
  | intro {members : List (String × Doc)} {script : Doc} {addresses : List String} {n : Nat}
      (once : (members.map Prod.fst).Nodup) (value : ("value", (coins n).doc) ∈ members)
      (key : ("scriptPubKey", script) ∈ members) (read : readScript script = .ok addresses)
      (other : ∀ name doc, (name, doc) ∈ members → name ≠ "value" → name ≠ "scriptPubKey" →
        doc.skip = .ok ()) :
      TellsOutput (.object (.ofMembers members)) (onlyAddress addresses, n)

/-- The document tells of a transaction with such outputs. -/
inductive TellsTransaction : Doc → String → List Told → Prop
  | intro {members : List (String × Doc)} {hash : String} {items : List Doc} {outs : List Told}
      (once : (members.map Prod.fst).Nodup) (id : ("txid", .string (.ok hash)) ∈ members)
      (vout : ("vout", .array (.ofList items)) ∈ members)
      (each : List.Forall₂ TellsOutput items outs)
      (known : ∀ field ∈ RawTransaction.record.fields, field.name ≠ "vout" →
        ∀ doc, (field.name, doc) ∈ members → field.check doc = .ok ())
      (other : ∀ name doc, (name, doc) ∈ members → RawTransaction.record.field? name = none →
        doc.skip = .ok ()) :
      TellsTransaction (.object (.ofMembers members)) hash outs

/-- The document is a reply without an error that tells of a transaction. -/
inductive TellsReply : Doc → String → List Told → Prop
  | intro {members : List (String × Doc)} {result : Doc} {hash : String} {outs : List Told}
      (once : (members.map Prod.fst).Nodup) (key : ("result", result) ∈ members)
      (tells : TellsTransaction result hash outs)
      (error : ∀ doc, ("error", doc) ∈ members → doc = .null)
      (other : ∀ name doc, (name, doc) ∈ members → name ≠ "result" → name ≠ "error" →
        doc.skip = .ok ()) :
      TellsReply (.object (.ofMembers members)) hash outs

/-! ## Fields -/

section

variable {α : Type} {docs : FieldDocs} {members : List (String × Doc)} {name : String}
  {reader : Doc → Except Fault α}

theorem check_of (name : String) (reader : Doc → Except Fault α) (presence : Presence) (doc : Doc) :
    (Field.of name reader presence).check doc = (reader doc).map fun _ => () := rfl

theorem readable_of_check {presence : Presence} {doc : Doc}
    (h : (Field.of name reader presence).check doc = .ok ()) : ∃ a, reader doc = .ok a := by
  rw [check_of] at h
  cases hread : reader doc with
  | error fault =>
      rw [hread] at h
      cases h
  | ok a => exact ⟨a, rfl⟩

theorem check_of_member (once : (members.map Prod.fst).Nodup) {presence : Presence} {doc : Doc}
    {a : α} (key : (name, doc) ∈ members) (read : reader doc = .ok a) :
    ∀ other, (name, other) ∈ members → (Field.of name reader presence).check other = .ok () := by
  intro other h
  rw [← Record.eq_of_mem once key h, check_of, read]
  rfl

theorem required_of_member {doc : Doc} {a : α} (found : docs.lookup name = some doc)
    (read : reader doc = .ok a) : docs.required name reader = .ok a := by
  rw [FieldDocs.required, found]
  exact read

theorem withDefault_of_member {doc : Doc} {a default : α} (found : docs.lookup name = some doc)
    (read : reader doc = .ok a) : docs.withDefault name reader default = .ok a := by
  rw [FieldDocs.withDefault, found]
  exact read

/-- A field that can be read where it is there has a value. -/
theorem withDefault_of_readable {presence : Presence} (default : α)
    (found : docs.lookup name = members.lookup name)
    (readable : ∀ doc, (name, doc) ∈ members →
      (Field.of name reader presence).check doc = .ok ()) :
    ∃ a, docs.withDefault name reader default = .ok a := by
  rw [FieldDocs.withDefault, found]
  cases hlookup : members.lookup name with
  | none => exact ⟨default, rfl⟩
  | some doc => exact readable_of_check (readable doc (Record.mem_of_lookup hlookup))

end

/-! ## Outputs -/

def outputRecord : Record := ⟨"Output", [.of "value" readCoins, .of "scriptPubKey" readScript]⟩

theorem readOutput_of_tells {doc : Doc} {out : Told} (tells : TellsOutput doc out)
    (most : out.2 ≤ supply) :
    ∃ x, readOutput doc = .ok (out.1, x) ∧
      satoshis x = if Dust out.2 then .error (.badValue (printed out.2)) else .ok ⟨out.2, 0⟩ := by
  cases tells with
  | @intro members script addresses n once value key read other =>
      obtain ⟨x, hdoc, hsats⟩ := satoshis_coins most
      have hcoins : readCoins (coins n).doc = .ok x := by rw [hdoc, readCoins]
      have accepts : outputRecord.Accepts members :=
        Record.accepts_pair _ once (check_of_member once value hcoins)
          (check_of_member once key read) other (fun _ => ⟨_, value⟩) fun _ => ⟨_, key⟩
      obtain ⟨docs, hdocs, found⟩ := Record.docs_of_accepts accepts .text
      have hvalue := (found "value" (by decide)).trans (Record.lookup_of_mem once value)
      have hkey := (found "scriptPubKey" (by decide)).trans (Record.lookup_of_mem once key)
      have hnumber := required_of_member hvalue hcoins
      have hscript := required_of_member hkey read
      have hread : readOutput (.object (.ofMembers members)) = (outputRecord.docs .text
          (.object (.ofMembers members)) >>= fun docs => do
            let value ← docs.required "value" readCoins
            return (onlyAddress (← docs.required "scriptPubKey" readScript), value)) := rfl
      refine ⟨x, ?_, hsats⟩
      rw [hread, hdocs]
      simp only [bind, Except.bind]
      rw [hnumber]
      simp only
      rw [hscript]
      rfl

/-- The outputs in satoshis, or the fault of the first one that is dust. -/
def paidOutputs (outs : List Told) : Except TransactionFault (List Output) :=
  match outs.find? fun out => Dust out.2 with
  | some out => .error (.badValue (printed out.2))
  | none => .ok (outs.map fun out => ⟨out.1, ⟨out.2, 0⟩⟩)

theorem paidOutputs_cons (out : Told) (outs : List Told) :
    paidOutputs (out :: outs) =
      if Dust out.2 then .error (.badValue (printed out.2))
      else (paidOutputs outs).map (⟨out.1, ⟨out.2, 0⟩⟩ :: ·) := by
  rw [paidOutputs, paidOutputs, List.find?_cons]
  by_cases dust : Dust out.2
  · simp only [dust, decide_true, if_true]
  · simp only [dust, decide_false, if_false]
    cases outs.find? fun out => Dust out.2 <;> rfl

/-- The outputs with their numbers. -/
theorem readItems_of_tells {items : List Doc} {outs : List Told}
    (each : List.Forall₂ TellsOutput items outs) (most : ∀ out ∈ outs, out.2 ≤ supply) :
    ∃ raw, Doc.readItems readOutput (.ofList items) = .ok raw ∧
      raw.mapM RawTransaction.output = paidOutputs outs := by
  induction each with
  | nil => exact ⟨[], rfl, rfl⟩
  | @cons doc out items outs tells each ih =>
      obtain ⟨x, hx, hsats⟩ := readOutput_of_tells tells (most _ List.mem_cons_self)
      obtain ⟨raw, hraw, houts⟩ := ih fun out h => most out (List.mem_cons_of_mem _ h)
      refine ⟨(out.1, x) :: raw, ?_, ?_⟩
      · rw [Items.ofList, Doc.readItems]
        simp only [bind, Except.bind, hx, hraw]
        rfl
      · rw [List.mapM_cons, RawTransaction.output, hsats, houts, paidOutputs_cons]
        split
        next => rfl
        next => cases paidOutputs outs <;> rfl

/-! ## The transaction -/

theorem readJson_of_tells {doc : Doc} {hash : String} {outs : List Told}
    (tells : TellsTransaction doc hash outs) (most : ∀ out ∈ outs, out.2 ≤ supply) :
    ∃ raw, RawTransaction.readJson doc = .ok raw ∧ raw.id = hash ∧
      raw.outputs.mapM RawTransaction.output = paidOutputs outs := by
  cases tells with
  | @intro members hash items outs once id vout each known other =>
      obtain ⟨outputs, hitems, houts⟩ := readItems_of_tells each most
      have hvout : Doc.readList readOutput (.array (.ofList items)) = .ok outputs := hitems
      simp only [RawTransaction.record, List.forall_mem_cons] at known
      obtain ⟨txid, depth, locktime, vin, -⟩ := known
      have accepts : RawTransaction.record.Accepts members :=
        { once
          known := List.forall_mem_cons.2 ⟨txid (by decide),
            List.forall_mem_cons.2 ⟨depth (by decide),
              List.forall_mem_cons.2 ⟨locktime (by decide),
                List.forall_mem_cons.2 ⟨vin (by decide),
                  List.forall_mem_singleton.2 (check_of_member once vout hvout)⟩⟩⟩⟩
          other
          present := List.forall_mem_cons.2 ⟨fun _ => ⟨_, id⟩,
            List.forall_mem_cons.2 ⟨nofun, List.forall_mem_cons.2 ⟨nofun,
              List.forall_mem_cons.2 ⟨nofun, List.forall_mem_singleton.2 nofun⟩⟩⟩⟩ }
      obtain ⟨docs, hdocs, found⟩ := Record.docs_of_accepts accepts .text
      have hid : docs.required "txid" Doc.readString = .ok hash :=
        required_of_member ((found "txid" (by decide)).trans (Record.lookup_of_mem once id)) rfl
      obtain ⟨confirmations, hconfirmations⟩ :=
        withDefault_of_readable 0 (found "confirmations" (by decide)) (depth (by decide))
      obtain ⟨lockTime, hlockTime⟩ :=
        withDefault_of_readable 0 (found "locktime" (by decide)) (locktime (by decide))
      obtain ⟨inputs, hinputs⟩ :=
        withDefault_of_readable [] (found "vin" (by decide)) (vin (by decide))
      have houtputs : docs.withDefault "vout" (Doc.readList readOutput) [] = .ok outputs :=
        withDefault_of_member
          ((found "vout" (by decide)).trans (Record.lookup_of_mem once vout)) hvout
      refine ⟨⟨hash, confirmations, lockTime, inputs, outputs⟩, ?_, rfl, houts⟩
      rw [RawTransaction.readJson, hdocs]
      simp only [bind, Except.bind, hid, hconfirmations, hlockTime, hinputs, houtputs]
      rfl

/-! ## The reply -/

def answerRecord : Record where
  name := "Answer"
  fields := [.of "result" (Doc.readOption RawTransaction.readJson) .nullable,
    .of "error" (Doc.readOption Refusal.readJson) .nullable]

theorem readOption_some {α : Type} {reader : Doc → Except Fault α} {doc : Doc} {a : α}
    (h : reader doc = .ok a) (present : doc ≠ .null) :
    Doc.readOption reader doc = .ok (some a) := by
  unfold Doc.readOption
  split
  · exact absurd rfl present
  · rw [h]
    rfl

theorem readAnswer_of_tells {doc : Doc} {hash : String} {outs : List Told}
    (tells : TellsReply doc hash outs) (most : ∀ out ∈ outs, out.2 ≤ supply) :
    ∃ raw, readAnswer RawTransaction.readJson doc = .ok (some raw, none) ∧ raw.id = hash ∧
      raw.outputs.mapM RawTransaction.output = paidOutputs outs := by
  cases tells with
  | @intro members result hash outs once key tells error other =>
      obtain ⟨raw, hraw, hhash, houts⟩ := readJson_of_tells tells most
      have present : result ≠ .null := by
        rintro rfl
        cases tells
      have hresult := readOption_some hraw present
      have herror : ∀ doc, ("error", doc) ∈ members →
          (Field.of "error" (Doc.readOption Refusal.readJson) .nullable).check doc = .ok () := by
        intro doc h
        rw [error doc h]
        rfl
      have accepts : answerRecord.Accepts members :=
        Record.accepts_pair _ once (check_of_member once key hresult) herror other nofun nofun
      obtain ⟨docs, hdocs, found⟩ := Record.docs_of_accepts accepts .text
      have hfirst : docs.withDefault "result" (Doc.readOption RawTransaction.readJson) none =
          .ok (some raw) :=
        withDefault_of_member
          ((found "result" (by decide)).trans (Record.lookup_of_mem once key)) hresult
      have hsecond : docs.withDefault "error" (Doc.readOption Refusal.readJson) none =
          .ok none := by
        rw [FieldDocs.withDefault, found "error" (by decide)]
        cases hlookup : members.lookup "error" with
        | none => rfl
        | some doc =>
            rw [error doc (Record.mem_of_lookup hlookup)]
            rfl
      refine ⟨raw, ?_, hhash, houts⟩
      change (answerRecord.docs .text _ >>= _) = _
      rw [hdocs]
      simp only [bind, Except.bind, hfirst, hsecond]
      rfl

/-! ## The transaction of a reply -/

/-- The satoshis that outputs pay to an address. -/
def paidTo (address : String) (outs : List Told) : Nat :=
  ((outs.filter fun out => isAddress address out.1).map Prod.snd).sum

/-- The satoshis of an address are the sum of what its outputs pay, unless there are more of them
than an amount can hold. -/
theorem valueTo?_of_outputs {tx : Transaction} {outs : List Told}
    (most : ∀ out ∈ outs, out.2 ≤ supply)
    (houts : tx.outputs = outs.map fun out => ⟨out.1, ⟨out.2, 0⟩⟩) (address : String) :
    tx.valueTo? address =
      if paidTo address outs < Decimal.bound then some ⟨paidTo address outs, 0⟩ else none := by
  have small : ∀ n ∈ (outs.filter fun out => isAddress address out.1).map Prod.snd,
      n < Decimal.bound := by
    intro n hn
    obtain ⟨out, hout, rfl⟩ := List.mem_map.1 hn
    exact (most out (List.mem_of_mem_filter hout)).trans_lt (by decide)
  rw [paidTo, ← Decimal.sum?_whole small, Transaction.valueTo?, houts, List.filter_map,
    List.map_map, List.map_map]
  rfl

section

variable {answer : Http.Request → Http.Result}

/-- A call whose response is read gives what was read. -/
theorem call_of_answer {α : Type} {node : Node} {method : String} {params : List Json.Value}
    {read : Doc → Except Fault α} {response : Http.Response} {result : α}
    (answers : answer (node.request method params) = .ok response)
    (reads : Doc.read (readAnswer read) (glyphs response.body) = .ok (some result, none)) :
    ((node.call method params read).transcript answer).1 = .ok result := by
  have hcall : ((node.call method params read).transcript answer).1 =
      answerOf method read response := by
    rw [Node.call, Exchange.map, Exchange.transcript_andThen]
    simp only [Http.send, Exchange.transcript, answers]
  rw [hcall, answerOf, reads]

/-- Of a reply that tells of no dust, the client makes a transaction with the outputs that the reply
tells of, to the satoshi. Dust anywhere among the outputs fails the whole transaction. -/
theorem transaction_of_reply {node : Node} {hash id : String} {response : Http.Response}
    {reply : Written} {before after : Gap} {outs : List Told}
    (answers : answer (node.request "getrawtransaction" [.string hash, .ofNat 2]) = .ok response)
    (text : glyphs response.body = before.1 ++ (reply.glyphs ++ after.1))
    (tells : TellsReply reply.doc id outs) (most : ∀ out ∈ outs, out.2 ≤ supply) :
    ((∀ out ∈ outs, ¬Dust out.2) →
      ∃ tx, ((node.transaction hash).transcript answer).1 = .ok tx ∧ tx.hash = id ∧
        tx.outputs = (outs.map fun out => ⟨out.1, ⟨out.2, 0⟩⟩) ∧
        ∀ address, tx.valueTo? address =
          if paidTo address outs < Decimal.bound then some ⟨paidTo address outs, 0⟩ else none) ∧
    ∀ first, (outs.find? fun out => Dust out.2) = some first →
      ((node.transaction hash).transcript answer).1 = .error (.badValue (printed first.2)) := by
  obtain ⟨raw, hanswer, hid, houts⟩ := readAnswer_of_tells tells most
  have hread : Doc.read (readAnswer RawTransaction.readJson) (glyphs response.body) =
      .ok (some raw, none) := by
    rw [text, read_written, hanswer]
  have hcall : ((node.transaction hash).transcript answer).1 = raw.transaction := by
    rw [Node.transaction, Exchange.map, Exchange.transcript_andThen,
      call_of_answer answers hread]
    rfl
  rw [hcall, RawTransaction.transaction, houts, paidOutputs]
  constructor
  · intro clean
    have none : (outs.find? fun out => Dust out.2) = none := by
      rw [List.find?_eq_none]
      exact fun out hout => by simpa using clean out hout
    rw [none]
    exact ⟨_, rfl, hid, rfl, valueTo?_of_outputs most rfl⟩
  · intro first hfirst
    rw [hfirst]
    rfl

end

namespace TwoOutputs

/-- A written string of characters that stand as they are. -/
def string (s : String) (h : s.toList.all isPlain = true) : WrittenString :=
  s.toList.attach.map fun c => .plain c.1 (List.all_eq_true.1 h c.1 c.2)

def object : List (WrittenString × Written) → WrittenFields
  | [] => .close Gap.none
  | (key, value) :: rest => .cons Gap.none Gap.none key Gap.none Gap.none value (object rest)

def array : List Written → WrittenItems
  | [] => .close Gap.none
  | item :: rest => .cons Gap.none Gap.none item (array rest)

def output (n : Nat) (addresses : List WrittenString) : Written :=
  .object (object [(string "value" (by decide +kernel), .number (coins n)),
    (string "scriptPubKey" (by decide +kernel), .object (object
      [(string "addresses" (by decide +kernel), .array (array (addresses.map .string)))]))])

/-- A reply that tells of a first output and of a second one of `n` satoshis. -/
def reply (n : Nat) : Written :=
  .object (object [(string "result" (by decide +kernel), .object (object
    [(string "vout" (by decide +kernel), .array (array
      [output 50000 [string "bitcoincash:qd" (by decide +kernel)],
        output n [string "QD" (by decide +kernel)]])),
      (string "txid" (by decide +kernel), .string (string "beef" (by decide +kernel))),
      (string "hex" (by decide +kernel), .string (string "02" (by decide +kernel)))]))])

def lineBreak : Gap := ⟨[some '\n'], by decide +kernel⟩

/-- The text of the reply, with a line break behind it. -/
def body (coins : String) : String :=
  "\x7b\"result\":\x7b\"vout\":[" ++
  "\x7b\"value\":0.00050000,\"scriptPubKey\":\x7b\"addresses\":[\"bitcoincash:qd\"]\x7d\x7d," ++
  "\x7b\"value\":" ++ coins ++ ",\"scriptPubKey\":\x7b\"addresses\":[\"QD\"]\x7d\x7d]," ++
  "\"txid\":\"beef\",\"hex\":\"02\"\x7d\x7d\n"

def node : Node := ⟨"http://node", none, ⟨5000000000⟩⟩

def answer (coins : String) : Http.Request → Http.Result := fun _ => .ok ⟨200, (body coins).toUTF8⟩

theorem answers (coins : String) :
    answer coins (node.request "getrawtransaction" [.string "beef", .ofNat 2]) =
      .ok ⟨200, (body coins).toUTF8⟩ := rfl

def outs (n : Nat) : List Told := [(some "bitcoincash:qd", 50000), (some "QD", n)]

/-- The script of an output, as it is read. -/
def scriptDoc (addresses : List String) : Doc :=
  .object (.ofMembers [("addresses", .array (.ofList (addresses.map fun a => .string (.ok a))))])

def outputDoc (n : Nat) (addresses : List String) : Doc :=
  .object (.ofMembers [("value", (coins n).doc), ("scriptPubKey", scriptDoc addresses)])

def transactionDoc (n : Nat) : Doc :=
  .object (.ofMembers
    [("vout", .array (.ofList [outputDoc 50000 ["bitcoincash:qd"], outputDoc n ["QD"]])),
    ("txid", .string (.ok "beef")), ("hex", .string (.ok "02"))])

theorem tellsOutput (n : Nat) {addresses : List String}
    (read : readScript (scriptDoc addresses) = .ok addresses) :
    TellsOutput (outputDoc n addresses) (onlyAddress addresses, n) := by
  refine .intro (by simp) List.mem_cons_self (List.mem_cons_of_mem _ List.mem_cons_self) read ?_
  intro name doc h value key
  simp [value, key] at h

theorem tellsTransaction (n : Nat) : TellsTransaction (transactionDoc n) "beef" (outs n) := by
  refine .intro (by simp) (List.mem_cons_of_mem _ List.mem_cons_self) List.mem_cons_self ?_ ?_ ?_
  · exact .cons (tellsOutput 50000 rfl) (.cons (tellsOutput n rfl) .nil)
  · intro field hfield vout doc h
    simp only [RawTransaction.record, List.mem_cons, List.not_mem_nil, or_false] at hfield
    rcases hfield with rfl | rfl | rfl | rfl | rfl
    · simp [Field.of] at h
      subst h
      rfl
    · simp [Field.of] at h
    · simp [Field.of] at h
    · simp [Field.of] at h
    · exact absurd rfl vout
  · intro name doc h unknown
    rcases List.mem_cons.1 h with heq | h
    · obtain ⟨rfl, rfl⟩ := Prod.mk.inj heq
      cases unknown
    rcases List.mem_cons.1 h with heq | h
    · obtain ⟨rfl, rfl⟩ := Prod.mk.inj heq
      cases unknown
    · obtain ⟨rfl, rfl⟩ := Prod.mk.inj (List.mem_singleton.1 h)
      rfl

theorem doc_reply (n : Nat) :
    (reply n).doc = .object (.ofMembers [("result", transactionDoc n)]) := rfl

theorem tellsReply (n : Nat) : TellsReply (reply n).doc "beef" (outs n) := by
  rw [doc_reply]
  refine .intro (by simp) List.mem_cons_self (tellsTransaction n) ?_ ?_
  · intro doc h
    simp at h
  · intro name doc h result error
    simp [result] at h

end TwoOutputs

/-- With 21 million coins in the second output the transaction is given, with 546 satoshis in it
none is. -/
theorem transaction_of_reply_two_outputs :
    (∃ tx, ((TwoOutputs.node.transaction "beef").transcript
        (TwoOutputs.answer "21000000.00000000")).1 = .ok tx ∧ tx.hash = "beef" ∧
      tx.outputs =
        [⟨some "bitcoincash:qd", ⟨50000, 0⟩⟩, ⟨some "QD", ⟨2100000000000000, 0⟩⟩] ∧
      tx.valueTo? "bitcoincash:qd" = some ⟨2100000000050000, 0⟩) ∧
    ((TwoOutputs.node.transaction "beef").transcript (TwoOutputs.answer "0.00000546")).1 =
      .error (.failed (.rpc
        "bad output value 5.46e-06: Invalid decimal: unknown character")) := by
  have text (n : Nat) (coins : String) (h : glyphs (TwoOutputs.body coins).toUTF8 =
      Gap.none.1 ++ ((TwoOutputs.reply n).glyphs ++ TwoOutputs.lineBreak.1))
      (most : n ≤ supply) :=
    transaction_of_reply (TwoOutputs.answers coins) h (TwoOutputs.tellsReply n)
      (List.forall_mem_cons.2 ⟨by decide, List.forall_mem_singleton.2 most⟩)
  obtain ⟨given, -⟩ := text supply "21000000.00000000"
    ((glyphs_toUTF8 _).trans (by decide +kernel)) (Nat.le_refl _)
  obtain ⟨-, refused⟩ := text 546 "0.00000546"
    ((glyphs_toUTF8 _).trans (by decide +kernel)) (by decide)
  refine ⟨?_, (refused (some "QD", 546) (by decide)).trans (by decide +kernel)⟩
  obtain ⟨tx, htx, hhash, houts, hvalue⟩ := given (by decide)
  have outputs : ((TwoOutputs.outs supply).map fun out => (⟨out.1, ⟨out.2, 0⟩⟩ : Output)) =
      [⟨some "bitcoincash:qd", ⟨50000, 0⟩⟩, ⟨some "QD", ⟨2100000000000000, 0⟩⟩] := by
    simp [TwoOutputs.outs, supply]
  have paid : paidTo "bitcoincash:qd" (TwoOutputs.outs supply) = 2100000000050000 := by
    decide +kernel
  refine ⟨tx, htx, hhash, houts.trans outputs, ?_⟩
  rw [hvalue, paid, if_pos (by decide +kernel), Nat.cast_ofNat]

end Settlement.BitcoinCash
