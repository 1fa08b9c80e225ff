import Settlement.Blockchain
import Settlement.Text.Part

/-!
# The command line

There are two commands: `consume` with a chain, and `publish` with a chain and a message. Both know
the option for help; the version is an option of the program alone. What stands behind `--` is never
an option.

A chain that is none is only noticed when the next argument has been looked at, so an argument that
nobody knows is reported first.
-/

namespace Settlement

/-- What the command line asks for. -/
inductive CommandLine where
  | consume (chain : Blockchain)
  | publish (chain : Blockchain) (message : String)
  deriving DecidableEq

/-- Why a command line asks for nothing, or asks for a text about the program. -/
inductive UsageError where
  | invalidValue
  | invalidSubcommand
  | missingRequiredArgument
  | unknownArgument
  | tooManyValues
  | displayHelp
  | displayVersion
  | displayHelpOnMissingArgumentOrSubcommand
  deriving DecidableEq

namespace UsageError

def name : UsageError → String
  | invalidValue => "InvalidValue"
  | invalidSubcommand => "InvalidSubcommand"
  | missingRequiredArgument => "MissingRequiredArgument"
  | unknownArgument => "UnknownArgument"
  | tooManyValues => "TooManyValues"
  | displayHelp => "DisplayHelp"
  | displayVersion => "DisplayVersion"
  | displayHelpOnMissingArgumentOrSubcommand => "DisplayHelpOnMissingArgumentOrSubcommand"

/-- What was asked for is a text about the program. -/
def isHelp : UsageError → Bool
  | displayHelp => true
  | displayVersion => true
  | _ => false

end UsageError

namespace CommandLine

def name : CommandLine → String
  | consume _ => "consume"
  | publish _ _ => "publish"

def chain : CommandLine → Blockchain
  | consume chain => chain
  | publish chain _ => chain

def message? : CommandLine → Option String
  | consume _ => none
  | publish _ message => some message

/-- An argument by its form: the mark behind which there are no options, a long option with its
value, short options, or a value. -/
inductive Argument where
  | endOfOptions
  | long (name : String) (value : Bool)
  | short (first : Char)
  | value
  deriving DecidableEq

namespace Argument

def ofText (s : String) : Argument :=
  match s.toList with
  | ['-', '-'] => endOfOptions
  | '-' :: '-' :: rest =>
    let name := rest.takeWhile (· != '=')
    long (String.ofList name) (name.length < rest.length)
  | '-' :: first :: _ => short first
  | _ => value

end Argument

def chainOfText? (s : String) : Option Blockchain :=
  match s with
  | "ethereum" => some .ethereum
  | "dash" => some .dash
  | "bch" => some .bitcoinCash
  | _ => none

/-- The two commands by their names, with the count of their values. -/
def valueCount? (s : String) : Option Nat :=
  match s with
  | "consume" => some 1
  | "publish" => some 2
  | _ => none

/-- The command with its values. -/
def ofValues (values : List String) (wanted : Nat) : Except UsageError CommandLine :=
  match values with
  | [] => .error .missingRequiredArgument
  | chain :: rest =>
    match chainOfText? chain, rest, wanted with
    | none, _, _ => .error .invalidValue
    | some chain, [], 1 => .ok (.consume chain)
    | some chain, [message], _ => .ok (.publish chain message)
    | some _, _, _ => .error .missingRequiredArgument

/-- A chain that was read, where one was, is one. -/
def checkChain : List String → Except UsageError Unit
  | [] => .ok ()
  | chain :: _ => if (chainOfText? chain).isSome then .ok () else .error .invalidValue

/-- Adds a value of a command with at most `wanted` values. -/
def addValue (values : List String) (wanted : Nat) (s : String) : Except UsageError (List String) :=
  if values.length < wanted then do
    checkChain values
    return values ++ [s]
  else .error .unknownArgument

/-- The arguments of a command with `wanted` values, behind the ones that were read; `options` tells
whether there may be options. -/
def readArguments (wanted : Nat) : Bool → List String → List String → Except UsageError CommandLine
  | _, values, [] => ofValues values wanted
  | false, values, s :: rest => do
    readArguments wanted false (← addValue values wanted s) rest
  | true, values, s :: rest =>
    match Argument.ofText s with
    | .endOfOptions => readArguments wanted false values rest
    | .long "help" false => do checkChain values; throw .displayHelp
    | .long "help" true => .error .tooManyValues
    | .long _ _ => .error .unknownArgument
    | .short 'h' => do checkChain values; throw .displayHelp
    | .short _ => .error .unknownArgument
    | .value => do readArguments wanted true (← addValue values wanted s) rest

/-- The name of a command, or of the one that shows help. -/
def isName (s : String) : Bool := (valueCount? s).isSome || s == "help"

/-- What `help` is asked about has to be a command. -/
def readHelp : List String → UsageError
  | [] => .displayHelp
  | [s] => if isName s then .displayHelp else .invalidSubcommand
  | _ => .invalidSubcommand

/-- The command of a command line, the program's name left out. -/
def ofArguments : List String → Except UsageError CommandLine
  | [] => .error .displayHelpOnMissingArgumentOrSubcommand
  | s :: rest =>
    match Argument.ofText s with
    | .endOfOptions =>
      match rest with
      | [] => .error .displayHelpOnMissingArgumentOrSubcommand
      | s :: _ => .error (if isName s then .unknownArgument else .invalidSubcommand)
    | .long "help" false => .error .displayHelp
    | .long "version" false => .error .displayVersion
    | .long "help" true => .error .tooManyValues
    | .long "version" true => .error .tooManyValues
    | .long _ _ => .error .unknownArgument
    | .short 'h' => .error .displayHelp
    | .short 'V' => .error .displayVersion
    | .short _ => .error .unknownArgument
    | .value =>
      match valueCount? s with
      | some wanted => readArguments wanted true [] rest
      | none => .error (if s == "help" then readHelp rest else .invalidSubcommand)

end CommandLine

end Settlement
