import Settlement.CommandLine
import Settlement.Config
import Settlement.Publish
import Settlement.Queue.Stream

/-!
# The program

Reads its command line and its configuration and tells what it would send to a server that agrees to
everything: for `publish` the commands that put the message on its queue, for `consume` the one that
declares the queue. Connections belong to whoever runs it.
-/

namespace Settlement.Program

/-- The variables that are set. -/
def setVariables : IO Variables :=
  Variables.names.filterMapM fun name => do return (← IO.getEnv name).map fun value => (name, value)

def fail (message : String) (code : UInt32) : IO UInt32 := do
  IO.eprintln message
  return code

/-- Tells the commands of a talk with a server that agrees to everything. -/
def tell {A : Type} (talk : Queue.Stream.Talk A) : IO UInt32 := do
  for command in (talk.transcript fun _ => .ok (.status "OK")).2 do
    IO.println (" ".intercalate (command.arguments.filterMap String.fromUTF8?))
  return 0

def consume (config : Config) (chain : Blockchain) : IO UInt32 :=
  match config.missingFor? chain with
  | some reason => fail reason 1
  | none => tell (Queue.Stream.declare (Queue.confirmations chain) config.queue.group)

def publish (config : Config) (chain : Blockchain) (message : String) : IO UInt32 :=
  match Publication.ofMessage? chain message with
  | .error fault => fail fault.message 1
  | .ok publication => tell (publication.send config.queue.group)

def run (command : CommandLine) : IO UInt32 := do
  match Config.ofVariables (← setVariables) with
  | .error fault => fail fault.message 1
  | .ok config =>
    match command with
    | .consume chain => consume config chain
    | .publish chain message => publish config chain message

end Settlement.Program

def main (args : List String) : IO UInt32 := do
  match Settlement.CommandLine.ofArguments args with
  | .ok command => Settlement.Program.run command
  | .error e => Settlement.Program.fail e.name (if e.isHelp then 0 else 2)
