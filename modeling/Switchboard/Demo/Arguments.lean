import Switchboard.Text.Utf8

/-!
# Switchboard.Demo.Arguments

The command line of the demo server: a port, a switch for detailed logs and a
context.  An option's value may stand in the same argument or in the next one.
A value in the next argument is looked at only when something else is
understood after it, so an argument that is not understood at all is reported
first.
-/

namespace Switchboard.Demo

/-- What the command line asks for. -/
structure Options where
  port : UInt16 := 3000
  verbose : Bool := false
  context : String := "\x7b\x7d"
  deriving DecidableEq

/-- Why a command line gives no options. -/
inductive Refusal where
  | displayHelp
  | displayVersion
  | unknownArgument
  | invalidValue
  | valueValidation
  | tooManyValues
  | argumentConflict
  deriving DecidableEq

def Refusal.name : Refusal → String
  | .displayHelp => "DisplayHelp"
  | .displayVersion => "DisplayVersion"
  | .unknownArgument => "UnknownArgument"
  | .invalidValue => "InvalidValue"
  | .valueValidation => "ValueValidation"
  | .tooManyValues => "TooManyValues"
  | .argumentConflict => "ArgumentConflict"

/-- The exit code of a refusal: asking for help or the version is no error. -/
def Refusal.exitCode : Refusal → UInt8
  | .displayHelp => 0
  | .displayVersion => 0
  | _ => 2

namespace Arguments

/-- The options that take a value. -/
inductive Key where
  | port | context
  deriving DecidableEq

/-- The options that take none. -/
inductive Switch where
  | verbose | help | version

/-- The command line as far as it has been understood. -/
structure Draft where
  port : Option UInt16 := none
  verbose : Bool := false
  context : Option String := none
  /-- An option that was named last, and its value if that has been seen. -/
  pending : Option (Key × Option String) := none

/-! ## Values -/

/-- The digits of a decimal numeral as a number. -/
def digitsValue? (ds : List Char) : Option Nat :=
  if ds.isEmpty || !ds.all Char.isDigit then none
  else some (ds.foldl (fun n d => n * 10 + (d.toNat - 48)) 0)

/-- A port: a decimal numeral, which may have a sign. -/
def portValue? (text : String) : Option UInt16 :=
  match text.toList with
  | '-' :: ds => if digitsValue? ds = some 0 then some 0 else none
  | '+' :: ds => (digitsValue? ds).bind inRange
  | ds => (digitsValue? ds).bind inRange
where
  inRange (n : Nat) : Option UInt16 := if n < UInt16.size then some n.toUInt16 else none

/-- Give an option its value.  It can be given once. -/
def Draft.set (d : Draft) (key : Key) (value : String) : Except Refusal Draft :=
  match key with
  | .port =>
    if d.port.isSome then .error .argumentConflict
    else match portValue? value with
      | none => .error .valueValidation
      | some port => .ok { d with port := some port }
  | .context =>
    if d.context.isSome then .error .argumentConflict
    else .ok { d with context := some value }

/-- Give the option that was named last its value. -/
def Draft.settle (d : Draft) : Except Refusal Draft :=
  match d.pending with
  | none => .ok d
  | some (_, none) => .error .invalidValue
  | some (key, some value) => { d with pending := none }.set key value

/-- Turn a switch on.  Detailed logs can be asked for once. -/
def Draft.turnOn (d : Draft) (switch : Switch) : Except Refusal Draft := do
  let d ← d.settle
  match switch with
  | .help => throw .displayHelp
  | .version => throw .displayVersion
  | .verbose => if d.verbose then throw .argumentConflict else return { d with verbose := true }

/-- Name an option, with its value if that stands in the same argument. -/
def Draft.nameOption (d : Draft) (key : Key) (attached : Option String) :
    Except Refusal Draft := do
  let d ← d.settle
  match attached with
  | some value => d.set key value
  | none => return { d with pending := some (key, none) }

/-! ## Arguments -/

def shortKey? : Char → Option (Key ⊕ Switch)
  | 'p' => some (.inl .port)
  | 'v' => some (.inr .verbose)
  | 'h' => some (.inr .help)
  | 'V' => some (.inr .version)
  | _ => none

def longKey? : String → Option (Key ⊕ Switch)
  | "port" => some (.inl .port)
  | "context" => some (.inl .context)
  | "verbose" => some (.inr .verbose)
  | "help" => some (.inr .help)
  | "version" => some (.inr .version)
  | _ => none

/-- The value behind a short option in the same argument, without a leading
equals sign. -/
def attachedValue : List Char → Option String
  | [] => none
  | '=' :: rest => some (String.ofList rest)
  | rest => some (String.ofList rest)

/-- An argument of short options. -/
def readShort (d : Draft) : List Char → Except Refusal Draft
  | [] => .ok d
  | c :: rest => match shortKey? c with
    | none => .error .unknownArgument
    | some (.inl key) => d.nameOption key (attachedValue rest)
    | some (.inr switch) => match d.turnOn switch with
      | .error r => .error r
      | .ok d => readShort d rest

/-- An argument with a long option, and a value behind an equals sign. -/
def readLong (d : Draft) (name : String) (attached : Option String) : Except Refusal Draft :=
  match longKey? name, attached with
  | none, _ => .error .unknownArgument
  | some (.inl key), _ => d.nameOption key attached
  | some (.inr switch), none => d.turnOn switch
  | some (.inr _), some _ => .error .tooManyValues

/-- An argument that is no option: a value that is waited for, or nothing that
anybody knows. -/
def readOther (d : Draft) (text : String) : Except Refusal Draft :=
  match d.pending with
  | some (key, none) => .ok { d with pending := some (key, some text) }
  | _ => .error .unknownArgument

/-- The name of a long option, and the value behind the first equals sign. -/
def splitLong (cs : List Char) : String × Option String :=
  let name := String.ofList (cs.takeWhile (· ≠ '='))
  match cs.dropWhile (· ≠ '=') with
  | [] => (name, none)
  | _ :: value => (name, some (String.ofList value))

/-- Understand arguments in order.  Behind two dashes there are no options,
and nothing else is expected. -/
def readAll (d : Draft) : List String → Except Refusal Draft
  | [] => d.settle
  | arg :: rest => match arg.toList with
    | ['-', '-'] => if rest.isEmpty then d.settle else .error .unknownArgument
    | '-' :: '-' :: cs =>
      let (name, attached) := splitLong cs
      (readLong d name attached).bind fun d => readAll d rest
    | '-' :: c :: cs => (readShort d (c :: cs)).bind fun d => readAll d rest
    | _ => (readOther d arg).bind fun d => readAll d rest

end Arguments

/-- The options of a command line. -/
def Options.ofArguments (args : List String) : Except Refusal Options :=
  (Arguments.readAll {} args).map fun d =>
    let defaults : Options := {}
    { port := d.port.getD defaults.port, verbose := d.verbose
      context := d.context.getD defaults.context }

end Switchboard.Demo
