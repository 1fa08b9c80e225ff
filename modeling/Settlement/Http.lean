import Settlement.Exchange
import Settlement.Hex
import Settlement.Json.Value
import Settlement.Text.Base64

/-!
# Requests over HTTP

What is sent to a server and what comes back. A client is an exchange of requests and responses; a
request that is not answered, or not in time, has a fault for its response.
-/

namespace Settlement.Http

inductive Method where
  | get
  | post
  deriving DecidableEq

/-- Who sends a request. -/
structure Credentials where
  user : String
  password : Option String
  deriving DecidableEq, Inhabited

/-- What is sent: with `authorization`, the server knows who sends it. -/
structure Request where
  method : Method
  url : String
  query : List (String × String)
  authorization : Option String
  body : Option Json.Value

structure Response where
  status : Nat
  body : ByteArray
  deriving Inhabited

/-- Why a request has no response: the connection cannot be made or breaks off, or the time is
over. -/
inductive Fault where
  | broken (reason : String)
  | overdue
  deriving DecidableEq

/-- What comes back for a request. -/
abbrev Result := Except Fault Response

/-- A client's talk with its servers. -/
abbrev Talk (A : Type) := Exchange Request Result A

namespace Credentials

/-- The text by which a server knows who sends a request. -/
def authorization (c : Credentials) : String :=
  "Basic " ++ Text.base64 (c.user ++ ":" ++ c.password.getD "").toUTF8

end Credentials

/-- A byte as it stands in a query: a letter, a digit or one of a few marks as it is, a blank as
`+`, every other one in hexadecimal. -/
def queryByte (byte : UInt8) : List Char :=
  let c := Char.ofNat byte.toNat
  if c.isAlphanum || c == '*' || c == '-' || c == '.' || c == '_' then [c]
  else if c == ' ' then ['+']
  else '%' :: (Hex.paddedDigits 2 byte.toNat).map Char.toUpper

def queryText (s : String) : String := String.ofList (s.toUTF8.toList.flatMap queryByte)

namespace Request

/-- The address with the query behind it. -/
def target (r : Request) : String :=
  match r.query with
  | [] => r.url
  | query =>
    let pairs := query.map fun (name, value) => queryText name ++ "=" ++ queryText value
    r.url ++ "?" ++ "&".intercalate pairs

end Request

/-- Sends one request. -/
def send (r : Request) : Talk Result := .ask r .done

end Settlement.Http
