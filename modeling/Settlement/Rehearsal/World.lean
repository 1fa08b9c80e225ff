import Settlement.Queue.Memory
import Settlement.Queue.Name
import Settlement.Rehearsal.Node
import Settlement.Store
import Settlement.Workflow

/-!
# The workflow over collaborators in memory

Messages are worked on over a store, locks and a broker in memory and over nodes that follow a
script. Each collaborator can be made to fail, and somebody outside may confirm a payment while a
message is being worked on.
-/

namespace Settlement.Rehearsal

/-- Calls that are made to fail, with the text of the failure. `paymentOwner` replaces the user of
every payment that is found by its number. -/
structure Faults where
  findPayment : Option String
  confirmPayment : Option String
  addCredits : Option String
  findAddress : Option String
  findUser : Option String
  acquire : Option String
  release : Option String
  notify : Option String
  paymentOwner : Option String
  deriving DecidableEq, Inhabited

namespace Faults

def none : Faults := ⟨.none, .none, .none, .none, .none, .none, .none, .none, .none⟩

end Faults

/-- The collaborators of a worker. -/
structure World where
  node : Node
  store : Store
  locks : LockTable
  broker : MemoryBroker
  faults : Faults

/-- A call of a worker, or of somebody outside who confirms a payment. -/
inductive Ask where
  | worker (call : Call)
  | outside (hash : String)

def Ask.Reply : Ask → Type
  | worker call => call.Reply
  | outside _ => Unit

/-- An activity: the work on a message, somebody outside who confirms a payment after a while, or a
time that passes. -/
inductive Activity where
  | message (body : ByteArray) (stage : Stage)
  | outsider (wait : Duration) (hash : String)
  | confirming (hash : String)
  | sleeping (wait : Duration)
  | finished

namespace World

/-- The answer of a node, with the world after it. -/
def ofNode {α : Type} (w : World) (a : Answer Node α) : Answer World α :=
  ⟨a.reply, a.delay, { w with node := a.world }⟩

/-- An answer at once that leaves the world as it is. -/
def reply {α : Type} (w : World) (a : α) : Answer World α := ⟨a, ⟨0⟩, w⟩

/-- The result of a call of the store, unless the call is made to fail. -/
def ofStore {α : Type} (w : World) (fault : Option String) (result : Except StoreError α × Store) :
    Answer World (Except StoreError α) :=
  match fault with
  | some text => w.reply (.error (.corrupt text))
  | none => ⟨result.1, ⟨0⟩, { w with store := result.2 }⟩

/-- Hands a mail to the mail sender. -/
def send (w : World) (email : Email) : Answer World (Except NotifyError Unit) :=
  match w.faults.notify with
  | some text => w.reply (.error (.queue (.broker text)))
  | none =>
    match w.broker.publishText Queue.emails email.json.text with
    | .ok broker => ⟨.ok (), ⟨0⟩, { w with broker }⟩
    | .error cause => w.reply (.error (.queue cause))

/-- The payment with another owner, where the faults name one. -/
def owned (w : World) (payment : Payment) : Payment :=
  match w.faults.paymentOwner with
  | some user => { payment with user }
  | none => payment

def answer (now : Instant) (w : World) : (call : Call) → Answer World call.Reply
  | .ethereum query => w.ofNode (w.node.ethereum query)
  | .dash query => w.ofNode (w.node.dash query)
  | .bitcoinCash query => w.ofNode (w.node.bitcoinCash query)
  | .acquire key ttl =>
    match w.faults.acquire with
    | some text => w.reply (.error (.backend text))
    | none =>
      let (lease, locks) := w.locks.acquire now key ttl
      ⟨.ok lease, ⟨0⟩, { w with locks }⟩
  | .release lease =>
    match w.faults.release with
    | some text => w.reply (.error (.backend text))
    | none => ⟨.ok (), ⟨0⟩, { w with locks := w.locks.release lease }⟩
  | .findPayment user number =>
    w.ofStore w.faults.findPayment (.ok ((w.store.findPayment user number).map w.owned), w.store)
  | .confirmPayment hash =>
    let (flipped, store) := w.store.confirm hash
    w.ofStore w.faults.confirmPayment (.ok flipped, store)
  | .addCredits user amount => w.ofStore w.faults.addCredits (w.store.addCredits user amount)
  | .findAddress user => w.ofStore w.faults.findAddress (.ok (w.store.findAddress user), w.store)
  | .findUser user => w.ofStore w.faults.findUser (.ok (w.store.findUser user), w.store)
  | .notify email => w.send email

/-- The answer to a call of whoever makes it. -/
def answerAsk (now : Instant) (w : World) : (ask : Ask) → Answer World ask.Reply
  | .worker call => w.answer now call
  | .outside hash => ⟨(), ⟨0⟩, { w with store := (w.store.confirm hash).2 }⟩

end World

namespace Activity

/-- The work on a message from its start. -/
def start (body : ByteArray) : Activity := message body .received

/-- What is done at a stage; the work on a message ends with its outcome. -/
def turn (v : Verifier) (now : Instant) :
    Activity → Turn Ask Ask.Reply Activity (Option Outcome)
  | message body stage =>
    (Workflow.turn v body now stage).within Ask.worker (fun _ r => r) (message body)
      fun outcome => .done (some outcome)
  | outsider wait hash => .pause wait none (confirming hash) (confirming hash)
  | confirming hash => .ask (.outside hash) none fun _ => finished
  | sleeping wait => .pause wait none finished finished
  | finished => .done none

end Activity

/-- Messages of one chain being worked on over a world in memory. -/
def machine (v : Verifier) : Machine Ask Ask.Reply World Activity (Option Outcome) where
  turn := Activity.turn v
  answer := fun now ask w => w.answerAsk now ask

/-- The workers over a world in memory. -/
abbrev Bench := System Ask Ask.Reply World Activity (Option Outcome)

namespace Bench

/-- A bench on which nothing is being done. -/
def idle (world : World) : Bench := ⟨0, world, [], 0, []⟩

/-- Clears the workers that are over and the calls they made away. -/
def clear (bench : Bench) : Bench :=
  { bench with workers := bench.workers.filter fun worker => !worker.status.isOver, log := [] }

/-- Adds workers and runs until they are over. -/
def work (bench : Bench) (v : Verifier) (workers : List (Worker Activity (Option Outcome))) :
    Bench :=
  System.run (machine v) enough { bench with workers := bench.workers ++ workers }

/-- Somebody outside who confirms a payment after a while. Nobody waits for that. -/
def outsider (wait : Duration) (hash : String) : Worker Activity (Option Outcome) :=
  ⟨none, true, .ready (.outsider wait hash)⟩

/-- Lets time pass. -/
def pass (bench : Bench) (v : Verifier) (length : Duration) : Bench :=
  bench.work v [.begin (.sleeping length) none]

/-- The outcomes of the messages, in the order of their workers. -/
def outcomes (bench : Bench) : List Outcome := bench.results.filterMap id

end Bench

end Settlement.Rehearsal
