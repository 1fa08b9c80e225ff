import Settlement.Proofs.Json.Fields
import Settlement.Publish
import Settlement.Queue.Stream

/-!
# What is published is what was accepted

A message is accepted as a value and put on its queue as the text of that value, which a consumer
reads with rules of its own. Both see the same request (`request_of_body`): repeated names are
settled before the value is accepted, a record keeps the form in which it was written, and the
fields of a request are strings and integers of at most 64 bits, which come back from their text as
they were.
-/

namespace Settlement

namespace Request

open Json

theorem steady_version : Steady versionField.check := steady_map steady_readWord32 _

theorem steady_text (name : String) : Steady (Field.of name Doc.readString).check :=
  steady_map steady_readString _

theorem steady_number (name : String) : Steady (Field.of name Doc.readInt64).check :=
  steady_map steady_readInt64 _

theorem ethereumRecord_checked : ethereumRecord.Checked :=
  List.forall_mem_cons.2 ⟨steady_version, List.forall_mem_cons.2 ⟨steady_text _,
    List.forall_mem_cons.2 ⟨steady_number _, nofun⟩⟩⟩

theorem dashRecord_checked : dashRecord.Checked :=
  List.forall_mem_cons.2 ⟨steady_version, List.forall_mem_cons.2 ⟨steady_text _,
    List.forall_mem_cons.2 ⟨steady_text _, List.forall_mem_cons.2 ⟨steady_number _, nofun⟩⟩⟩⟩

theorem bitcoinCashRecord_checked : bitcoinCashRecord.Checked :=
  List.forall_mem_cons.2 ⟨steady_version, List.forall_mem_cons.2 ⟨steady_text _,
    List.forall_mem_cons.2 ⟨steady_text _, List.forall_mem_cons.2 ⟨steady_text _,
      List.forall_mem_cons.2 ⟨steady_number _, nofun⟩⟩⟩⟩⟩

variable {v : Value}

theorem readEthereum_reread {r : EthereumRequest} (h : readEthereum .value v.doc = .ok r) :
    readEthereum .text v.reread = .ok r := by
  obtain ⟨docs, hdocs, h⟩ := of_bind h
  obtain ⟨found, rfl, hfound⟩ := Record.docs_reread ethereumRecord_checked hdocs
  obtain ⟨version, hversion, h⟩ := of_bind h
  obtain ⟨user, huser, h⟩ := of_bind h
  obtain ⟨number, hnumber, h⟩ := of_bind h
  have version := FieldDocs.withDefault_reread steady_readWord32 hversion
  have user := FieldDocs.required_reread steady_readString huser
  have number := FieldDocs.required_reread steady_readInt64 hnumber
  rw [readEthereum, hfound]
  simp only [bind, Except.bind, version, user, number]
  exact h

theorem readDash_reread {r : DashRequest} (h : readDash .value v.doc = .ok r) :
    readDash .text v.reread = .ok r := by
  obtain ⟨docs, hdocs, h⟩ := of_bind h
  obtain ⟨found, rfl, hfound⟩ := Record.docs_reread dashRecord_checked hdocs
  obtain ⟨version, hversion, h⟩ := of_bind h
  obtain ⟨user, huser, h⟩ := of_bind h
  obtain ⟨forward, hforward, h⟩ := of_bind h
  obtain ⟨number, hnumber, h⟩ := of_bind h
  have version := FieldDocs.withDefault_reread steady_readWord32 hversion
  have user := FieldDocs.required_reread steady_readString huser
  have forward := FieldDocs.required_reread steady_readString hforward
  have number := FieldDocs.required_reread steady_readInt64 hnumber
  rw [readDash, hfound]
  simp only [bind, Except.bind, version, user, forward, number]
  exact h

theorem readBitcoinCash_reread {r : BitcoinCashRequest}
    (h : readBitcoinCash .value v.doc = .ok r) : readBitcoinCash .text v.reread = .ok r := by
  obtain ⟨docs, hdocs, h⟩ := of_bind h
  obtain ⟨found, rfl, hfound⟩ := Record.docs_reread bitcoinCashRecord_checked hdocs
  obtain ⟨version, hversion, h⟩ := of_bind h
  obtain ⟨user, huser, h⟩ := of_bind h
  obtain ⟨sender, hsender, h⟩ := of_bind h
  obtain ⟨recipient, hrecipient, h⟩ := of_bind h
  obtain ⟨number, hnumber, h⟩ := of_bind h
  have version := FieldDocs.withDefault_reread steady_readWord32 hversion
  have user := FieldDocs.required_reread steady_readString huser
  have sender := FieldDocs.required_reread steady_readString hsender
  have recipient := FieldDocs.required_reread steady_readString hrecipient
  have number := FieldDocs.required_reread steady_readInt64 hnumber
  rw [readBitcoinCash, hfound]
  simp only [bind, Except.bind, version, user, sender, recipient, number]
  exact h

theorem map_reread {α β : Type} {first second : Except Fault α} {make : α → β} {b : β}
    (same : ∀ a, first = .ok a → second = .ok a) (h : first.map make = .ok b) :
    second.map make = .ok b := by
  cases first with
  | error fault => cases h
  | ok a => rwa [same a rfl]

/-- A request that is accepted from a value is read from the value's text. -/
theorem readJson_reread {chain : Blockchain} {request : Request}
    (h : readJson chain .value v.doc = .ok request) :
    readJson chain .text v.reread = .ok request := by
  cases chain with
  | ethereum => exact map_reread (fun _ => readEthereum_reread) h
  | dash => exact map_reread (fun _ => readDash_reread) h
  | bitcoinCash => exact map_reread (fun _ => readBitcoinCash_reread) h

theorem ofBody?_text {chain : Blockchain} {request : Request}
    (h : readJson chain .value v.doc = .ok request) :
    ofBody? chain v.text.toUTF8 = .ok request := by
  rw [ofBody?, glyphs_toUTF8, read_text]
  exact readJson_reread h

end Request

namespace Publication

open Json

section

variable {chain : Blockchain} {message : String} {p : Publication}

/-- A message is accepted for the request that its value is, and published as that value. -/
theorem accepted_iff : ofMessage? chain message = .ok p ↔
    ∃ value, Value.read (glyphsOf message) = .ok value ∧
      Request.readJson chain .value value.doc = .ok p.request ∧
      p.queue = Queue.confirmations chain ∧ p.body = value.text := by
  unfold ofMessage?
  constructor
  · intro h
    split at h
    next => cases h
    next value read =>
      split at h
      next => cases h
      next request accepted =>
        obtain rfl := Except.ok.inj h
        exact ⟨value, read, accepted, rfl, rfl⟩
  · rintro ⟨value, read, accepted, queue, body⟩
    rw [read]
    simp only [accepted, ← queue, ← body]

theorem ofBody?_of_accepted (accepted : ofMessage? chain message = .ok p) :
    Request.ofBody? chain p.body.toUTF8 = .ok p.request := by
  obtain ⟨value, -, request, -, body⟩ := accepted_iff.1 accepted
  rw [body]
  exact Request.ofBody?_text request

end

section

open Queue.Stream

variable {answer : Redis.Command → Redis.Result} {queue group : String}

/-- Once the queue is declared, the text is appended to it, and the server's answer to that is what
publishing comes to. -/
theorem transcript_publishText (text : String)
    (h : declared (answer (.createGroup queue group)) = .ok ()) :
    (publishText queue group text).transcript answer =
      (published (answer (.append queue text.toUTF8)),
        [.createGroup queue group, .append queue text.toUTF8]) := by
  rw [publishText, declare, Exchange.transcript_andThen]
  simp only [Exchange.transcript, h]
  rfl

/-- Nothing is appended to a queue that cannot be declared. -/
theorem transcript_publishText_undeclared (text : String) {e : QueueError}
    (h : declared (answer (.createGroup queue group)) = .error e) :
    (publishText queue group text).transcript answer =
      (.error e, [.createGroup queue group]) := by
  rw [publishText, declare, Exchange.transcript_andThen]
  simp only [Exchange.transcript, h]
  rfl

variable {chain : Blockchain} {message : String} {p : Publication}

/-- A message that is accepted for a chain is published for the request that its value is. Sending
it declares the queue of the chain, and then, unless that fails, appends one entry to it, whatever
the server answers to that. A consumer of the chain reads the entry's body as the very request. -/
theorem request_of_body (accepted : ofMessage? chain message = .ok p) :
    (∃ value, Value.read (glyphsOf message) = .ok value ∧
      Request.readJson chain .value value.doc = .ok p.request) ∧
    Request.ofBody? chain p.body.toUTF8 = .ok p.request ∧
    ∀ (answer : Redis.Command → Redis.Result) (group : String),
      (declared (answer (.createGroup (Queue.confirmations chain) group)) = .ok () →
        (p.send group).transcript answer =
          (published (answer (.append (Queue.confirmations chain) p.body.toUTF8)),
            [.createGroup (Queue.confirmations chain) group,
              .append (Queue.confirmations chain) p.body.toUTF8])) ∧
      ∀ e, declared (answer (.createGroup (Queue.confirmations chain) group)) = .error e →
        (p.send group).transcript answer =
          (.error e, [.createGroup (Queue.confirmations chain) group]) := by
  obtain ⟨value, read, request, hqueue, -⟩ := accepted_iff.1 accepted
  refine ⟨⟨value, read, request⟩, ofBody?_of_accepted accepted, fun answer group => ?_⟩
  rw [send, hqueue]
  exact ⟨transcript_publishText p.body, fun e => transcript_publishText_undeclared p.body⟩

end

theorem of_toOption {ε α : Type} {x : Except ε α} {a : α} (h : x.toOption = some a) :
    x = .ok a := by
  cases x with
  | error e => cases h
  | ok b => exact congrArg _ (Option.some.inj h)

namespace Sample

/-- A message with a name that is repeated, escapes, and a member that is no field. -/
def message : String :=
  "\x7b\"user_name\": \"bob\", \"note\": [1.50, \"\\ud83d\\ude00\"], \"payment_number\": 7, " ++
    "\"payment_forward_id\": \"\\u0066orward\", \"user_name\": \"alice\"\x7d"

def publication : Publication where
  queue := "dash-payment-confirmation-queue"
  request := .dash ⟨1, "alice", "forward", 7⟩
  body :=
    "\x7b\"note\":[1.5,\"😀\"],\"payment_forward_id\":\"forward\",\"payment_number\":7," ++
      "\"user_name\":\"alice\"\x7d"

end Sample

/-- A server that agrees to everything. -/
def Sample.agreeing (_ : Redis.Command) : Redis.Result := .ok (.status "OK")

/-- The last of two names counts, and escapes stand for what they mean. The body is on the queue
once the server has agreed to both commands. -/
theorem request_of_body_repeated :
    ofMessage? .dash Sample.message = .ok Sample.publication ∧
      Request.ofBody? .dash Sample.publication.body.toUTF8 =
        .ok (.dash ⟨1, "alice", "forward", 7⟩) ∧
      (Sample.publication.send "pay-confirm").transcript Sample.agreeing =
        (.ok (), [.createGroup "dash-payment-confirmation-queue" "pay-confirm",
          .append "dash-payment-confirmation-queue" Sample.publication.body.toUTF8]) := by
  have accepted : ofMessage? .dash Sample.message = .ok Sample.publication :=
    of_toOption (by decide +kernel)
  obtain ⟨-, read, sent⟩ := request_of_body accepted
  exact ⟨accepted, read, (sent Sample.agreeing "pay-confirm").1 rfl⟩

end Publication

end Settlement
