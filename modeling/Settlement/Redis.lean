import Settlement.Failure
import Settlement.Text.Integer
import Settlement.Url

/-!
# Talking to Redis

What a server answers, how answers are read as texts, numbers and bytes, what may go wrong, and which
addresses can be connected to.
-/

namespace Settlement.Redis

/-- An answer that is no error. -/
inductive Reply where
  | nil
  | int (n : Int)
  | data (bytes : ByteArray)
  | status (text : String)
  | bulk (items : List Reply)
  deriving Inhabited

/-- Why a command has no answer: the connection is lost, the server refused it with a code and a
text, or the answer is not what was expected. -/
inductive Fault where
  | lost
  | refused (code text : String)
  | unexpected (reason : String)
  deriving DecidableEq

/-- What a fault means for the queue. -/
def Fault.toQueue : Fault → QueueError
  | lost => .reconnect
  | refused code text => .broker s!"{code}: {text}"
  | unexpected reason => .broker reason

namespace Reply

/-- The number of 64 bits with a sign that a text stands for. -/
def intOfText? (s : String) : Option Int :=
  let (negative, digits) := match s.toList with
    | '-' :: digits => (true, if digits.head? = some '+' then [] else digits)
    | digits => (false, digits)
  match Text.natural? 64 digits with
  | .ok n =>
    if negative then if n ≤ twoPow 63 then some (-(n : Int)) else none
    else if n < twoPow 63 then some n else none
  | .error _ => none

/-- The answer as a text. -/
def text? : Reply → Except Fault String
  | data bytes =>
    match String.fromUTF8? bytes with
    | some s => .ok s
    | none => .error (.unexpected "Invalid UTF-8")
  | status text => .ok text
  | _ => .error (.unexpected "Response type not string compatible.")

/-- The answer as a number. -/
def int? : Reply → Except Fault Int
  | int n => .ok n
  | other =>
    match (other.text?.toOption).bind intOfText? with
    | some n => .ok n
    | none => .error (.unexpected "Could not convert from string.")

/-- The answer as a byte. A number is cut to its last eight bits; a text has to be a number of
eight bits. -/
def byte? : Reply → Option UInt8
  | int n => some (UInt8.ofInt n)
  | other => do
    let text ← other.text?.toOption
    return UInt8.ofNat (← (Text.natural? 8 text.toList).toOption)

/-- The answer as bytes, none where it cannot be read so. -/
def bytes? : Reply → Option ByteArray
  | data bytes => some bytes
  | nil => some .empty
  | bulk items => (items.mapM byte?).map fun bytes => ⟨bytes.toArray⟩
  | _ => none

end Reply

/-- The address can be connected to: a scheme of Redis without encryption, a host, and a number for
the database. -/
def isAddress (url : Url) : Bool :=
  let behind := url.path.toList.dropWhile (· == '/')
  let database := String.ofList (behind.reverse.dropWhile (· == '/')).reverse
  match url.scheme with
  | "redis" => url.host.isSome && (database.isEmpty || (Reply.intOfText? database).isSome)
  | "unix" => true
  | "redis+unix" => true
  | _ => false

/-- The result of connecting when no server answers. -/
def connectUnreachable (url : String) : QueueError :=
  match Url.ofText? url with
  | some url => if isAddress url then .reconnect else .broker "Redis URL did not parse"
  | none => .broker "Redis URL did not parse"

end Settlement.Redis
