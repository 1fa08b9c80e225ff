import Settlement.Hex
import Settlement.Power

/-!
# Addresses of servers

The parts of an address that decide whether it can be used: its scheme, the host and the port behind
two slashes, and the path. Schemes of the web have to name a host; a port has to fit 16 bits.
-/

namespace Settlement

/-- An address in its parts. The scheme is in small letters; a host that is empty is none. -/
structure Url where
  scheme : String
  host : Option String
  port : Option Nat
  path : String
  deriving DecidableEq, Inhabited

namespace Url

def isSchemeChar (c : Char) : Bool :=
  c.isAlphanum || c == '+' || c == '-' || c == '.'

/-- The scheme in front of the first colon, and what stands behind it. -/
def splitScheme (cs : List Char) : Option (String × List Char) :=
  let scheme := cs.takeWhile isSchemeChar
  match scheme, cs.drop scheme.length with
  | first :: _, ':' :: rest =>
    if first.isAlpha then some (String.ofList (scheme.map Char.toLower), rest) else none
  | _, _ => none

/-- Schemes that need a host. -/
def isWeb (scheme : String) : Bool := ["http", "https", "ws", "wss", "ftp"].contains scheme

/-- Characters that no host has. -/
def isForbidden (c : Char) : Bool :=
  let marks := ['#', '%', '/', ':', '<', '>', '?', '@', '[', '\\', ']', '^', '|']
  c ≤ ' ' || c == '\x7f' || marks.contains c

/-- The port that digits stand for; none for no digits. -/
def port? (digits : List Char) : Option (Option Nat) :=
  if digits.isEmpty then some none
  else if digits.all Char.isDigit then
    let n := digits.foldl (fun n c => n * 10 + (c.toNat - '0'.toNat)) 0
    if n < twoPow 16 then some (some n) else none
  else none

/-- The value of a part of a numeric host: decimal, octal behind `0`, hexadecimal behind `0x`. -/
def hostNumber? (cs : List Char) : Option Nat :=
  let value (base : Nat) (digits : List Char) : Option Nat :=
    digits.foldlM (fun n c => do
      let d ← Hex.digit? c
      if d < base then some (n * base + d) else none) 0
  match cs with
  | [] => none
  | '0' :: 'x' :: digits => value 16 digits
  | '0' :: 'X' :: digits => value 16 digits
  | '0' :: digits => value 8 digits
  | digits => value 10 digits

/-- The parts of a host between its points, an empty last one left out. -/
def labels (host : List Char) : List (List Char) :=
  let parts := host.splitOn '.'
  match parts.reverse with
  | [] :: rest => if rest.isEmpty then parts else rest.reverse
  | _ => parts

/-- The last part of a host is a number, so all of it has to be one. -/
def endsInNumber (host : List Char) : Bool :=
  match (labels host).getLast? with
  | some last => !last.isEmpty && (last.all Char.isDigit || (hostNumber? last).isSome)
  | none => false

/-- Numbers of a host: at most four, each but the last below 256, and the last one fills the rest of
32 bits. -/
def isAddressNumbers (host : List Char) : Bool :=
  match (labels host).mapM hostNumber? with
  | some numbers =>
    let count := numbers.length
    count ≤ 4 && numbers.dropLast.all (· < 256) &&
      numbers.getLast?.any (· < twoPow (8 * (5 - count)))
  | none => false

/-- A host can be one: its characters are allowed, and it is a whole address where it ends in a
number. An address in brackets is not looked into. -/
def isHost (web : Bool) : List Char → Bool
  | '[' :: _ => true
  | host =>
    let named := !host.isEmpty && (!endsInNumber host || isAddressNumbers host)
    !host.any isForbidden && (!web || named)

/-- The host in front of its port, and the rest; none for a bracket that is not closed. -/
def splitHost? (server : List Char) : Option (List Char × List Char) :=
  match server with
  | '[' :: rest =>
    let inner := rest.takeWhile (· != ']')
    if inner.length < rest.length then
      some ('[' :: inner ++ [']'], rest.drop (inner.length + 1))
    else none
  | server =>
    let host := server.takeWhile (· != ':')
    some (host, server.drop host.length)

/-- Host and port of the part between the slashes, behind a user. -/
def authority? (web : Bool) (cs : List Char) : Option (Option String × Option Nat) := do
  let (host, port) ← splitHost? (cs.reverse.takeWhile (· != '@')).reverse
  let digits ← match port with
    | [] => some []
    | ':' :: digits => some digits
    | _ => none
  if !isHost web host then none
  else
    let port ← port? digits
    return (if host.isEmpty then none else some (String.ofList host), port)

/-- Blanks and controls at the ends are no part of an address. -/
def trimmed (cs : List Char) : List Char :=
  ((cs.dropWhile (· ≤ ' ')).reverse.dropWhile (· ≤ ' ')).reverse

/-- The address that a text stands for. -/
def ofText? (s : String) : Option Url := do
  let (scheme, rest) ← splitScheme (trimmed s.toList)
  let web := isWeb scheme
  let isEnd (c : Char) : Bool := c == '/' || c == '?' || c == '#' || (web && c == '\\')
  let behind? := match rest with
    | '/' :: '/' :: rest => some rest
    | rest => if web then some (rest.dropWhile fun c => c == '/' || c == '\\') else none
  match behind? with
  | none =>
    return ⟨scheme, none, none, String.ofList (rest.takeWhile fun c => c != '?' && c != '#')⟩
  | some behind =>
    let behind := if web then behind.dropWhile fun c => c == '/' || c == '\\' else behind
    let authority := behind.takeWhile (!isEnd ·)
    let (host, port) ← authority? web authority
    let path := (behind.drop authority.length).takeWhile fun c => c != '?' && c != '#'
    return ⟨scheme, host, port, String.ofList path⟩

end Url

end Settlement
