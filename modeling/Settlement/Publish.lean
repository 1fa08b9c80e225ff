import Settlement.Failure
import Settlement.Queue.Name
import Settlement.Queue.Stream
import Settlement.Request

/-!
# Publishing a request

A message is published as the JSON value that it stands for, once the chain's requests accept that
value: what a consumer would only drop is refused.
-/

namespace Settlement

/-- Why a message is not published. -/
inductive PublishFault where
  | notJson
  | refused (cause : Json.Fault)
  deriving DecidableEq

namespace PublishFault

/-- The message of a fault. What is refused is a value that does not match: a value has no faults
of a text. -/
def message : PublishFault → String
  | notJson => "Message is not valid JSON"
  | refused (.mismatch cause) => cause.message
  | refused _ => ""

end PublishFault

/-- A message that may be published. -/
structure Publication where
  queue : String
  request : Request
  body : String
  deriving DecidableEq

namespace Publication

open Json

/-- The publication of a message for a chain. -/
def ofMessage? (chain : Blockchain) (message : String) : Except PublishFault Publication :=
  match Value.read (glyphsOf message) with
  | .error _ => .error .notJson
  | .ok value =>
    match Request.readJson chain .value value.doc with
    | .error cause => .error (.refused cause)
    | .ok request => .ok ⟨Queue.confirmations chain, request, value.text⟩

/-- Declares the queue for a group of consumers and puts the body on it. -/
def send (p : Publication) (group : String) : Queue.Stream.Talk Unit :=
  Queue.Stream.publishText p.queue group p.body

end Publication

end Settlement
