import Settlement.Bytes
import Settlement.Redis

/-!
# Commands for Redis

The commands that queues and locks need, as values, and as the arguments that are sent. A queue is a
stream that is read by a group of consumers; a lock is a key with a token that disappears by itself.
-/

namespace Settlement.Redis

/-- A command: for a stream, where `queue` names it, or for a lock. -/
inductive Command where
  | createGroup (queue group : String)
  | append (queue : String) (body : ByteArray)
  | readPending (queue group consumer after : String) (count : Nat)
  | readNew (queue group consumer : String) (count blockMillis : Nat)
  | takeOver (queue group consumer : String) (idleMillis : Nat) (start : String) (count : Nat)
  | acknowledge (queue group : String) (ids : List String)
  | setIfAbsent (key token : String) (secs : Nat)
  | runRelease (key token : String)
  | loadRelease
  deriving DecidableEq

/-- What comes back for a command. -/
abbrev Result := Except Fault Reply

/-- The script that deletes a key only while it still holds the token. -/
def releaseScript : String :=
  "\nif redis.call(\"GET\", KEYS[1]) == ARGV[1] then\n    return redis.call(\"DEL\", KEYS[1])\n" ++
    "else\n    return 0\nend\n"

/-- The digest by which the server knows the script. -/
def releaseDigest : String := "aefc6bbfaac1ed02c135d12b12c8c42cdfb36af4"

namespace Command

def texts (args : List String) : List ByteArray := args.map String.toUTF8

/-- The arguments that are sent. -/
def arguments : Command → List ByteArray
  | createGroup queue group => texts ["XGROUP", "CREATE", queue, group, "0", "MKSTREAM"]
  | append queue body => texts ["XADD", queue, "*", "body"] ++ [body]
  | readPending queue group consumer after count =>
    texts ["XREADGROUP", "GROUP", group, consumer, "COUNT", toString count, "STREAMS", queue, after]
  | readNew queue group consumer count blockMillis =>
    texts ["XREADGROUP", "GROUP", group, consumer, "BLOCK", toString blockMillis, "COUNT",
      toString count, "STREAMS", queue, ">"]
  | takeOver queue group consumer idleMillis start count =>
    texts ["XAUTOCLAIM", queue, group, consumer, toString idleMillis, start, "COUNT",
      toString count]
  | acknowledge queue group ids => texts (["XACK", queue, group] ++ ids)
  | setIfAbsent key token secs => texts ["SET", key, token, "NX", "EX", toString secs]
  | runRelease key token => texts ["EVALSHA", releaseDigest, "1", key, token]
  | loadRelease => texts ["SCRIPT", "LOAD", releaseScript]

/-- The ids that a command acknowledges. -/
def acknowledged : Command → List String
  | acknowledge _ _ ids => ids
  | _ => []

end Command

end Settlement.Redis
