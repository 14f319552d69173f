import WordMachine.Console.Basic
import WordMachine.Dump
import WordMachine.Machine.Basic

/-!
# Arguments

The first argument names a command, the others are its options and one file. Options may stand
before and after the file. The value of an option stands behind `=` or in the next argument; after
`--` there are no more options. Arguments that do not fit are refused: an unknown option, one given
twice, one with a value that it does not take or without one that it needs, no file, two files.
-/

namespace WordMachine.CommandLine

/-! ### Options and other arguments -/

/-- The arguments of a command, options and other arguments apart. -/
structure Args where
  /-- The options with their values, in order; an option that takes no value has an empty one. -/
  options : List (String × String)
  /-- The arguments that belong to no option. -/
  others : List String
  deriving DecidableEq, Repr

/-- An argument as an option: its name, and the value attached to it behind `=`. -/
def optionOf? (arg : String) : Option (String × Option String) :=
  match arg.toList with
  | '-' :: '-' :: text =>
    let name := String.ofList (text.takeWhile (· ≠ '='))
    match text.dropWhile (· ≠ '=') with
    | _ :: value => some (name, some (String.ofList value))
    | [] => some (name, none)
  | _ => none

/-- Whether an argument is no option: it does not start with a dash, or is nothing else. -/
def isPlain (arg : String) : Bool := arg.toList.head? != some '-' || arg == "-"

namespace Args

/-- Puts an option in front. -/
def addOption (name value : String) (a : Args) : Args :=
  { a with options := (name, value) :: a.options }

/-- Puts another argument in front. -/
def addOther (arg : String) (a : Args) : Args := { a with others := arg :: a.others }

/-- The value of an option, if it is given. -/
def value? (a : Args) (name : String) : Option String := a.options.lookup name

/-- Whether an option is given. -/
def has (a : Args) (name : String) : Bool := (a.value? name).isSome

/-- Tells the options from the other arguments. A command knows its options by name: `takesValue`
answers whether an option takes a value, and nothing if there is no such option. -/
def ofList? (takesValue : String → Option Bool) : List String → Option Args
  | [] => some ⟨[], []⟩
  | arg :: rest =>
    if arg = "--" then some ⟨[], rest⟩
    else if isPlain arg then (ofList? takesValue rest).map (·.addOther arg)
    else
      match optionOf? arg with
      | none => none
      | some (name, attached) =>
        match takesValue name, attached, rest with
        | some false, none, rest => (ofList? takesValue rest).map (·.addOption name "")
        | some true, some value, rest =>
          if value = "" then none else (ofList? takesValue rest).map (·.addOption name value)
        | some true, none, value :: rest =>
          if value = "" ∨ !isPlain value then none
          else (ofList? takesValue rest).map (·.addOption name value)
        | _, _, _ => none

/-- The file of a command and its options, if there is one file and no option is given twice. -/
def withFile? (takesValue : String → Option Bool) (list : List String) :
    Option (String × Args) := do
  let args ← ofList? takesValue list
  match args.others with
  | [file] => if file ≠ "" ∧ (args.options.map Prod.fst).Nodup then some (file, args) else none
  | _ => none

end Args

/-! ### Commands -/

/-- How to run a program. -/
structure RunOptions where
  rom : String
  /-- Whether to show all that happens in the machine, and output only at the end. -/
  debug : Bool
  /-- Whether to stop at unknown opcodes, whatever `unknownOpcode` says. -/
  strict : Bool
  unknownOpcode : Policy
  script : Option String
  deriving DecidableEq, Repr

/-- How to dump a program. -/
structure DumpOptions where
  rom : String
  width : Nat
  style : DumpStyle
  deriving DecidableEq, Repr

/-- What can be asked for. -/
inductive Command
  | run (options : RunOptions)
  | dis (rom : String)
  | dump (options : DumpOptions)
  deriving DecidableEq, Repr

/-- The policy with the given name. -/
def policyOf? (name : String) : Option Policy :=
  if name = "skip" then some .skip
  else if name = "fault" then some .fault
  else none

/-- A row's width in decimal, with or without a plus sign: a number from 1 to 65535. -/
def widthOf? (text : String) : Option Nat :=
  let digits := match text.toList with
    | '+' :: digits => digits
    | digits => digits
  if digits ≠ [] ∧ digits.all Char.isDigit then
    let width := Nat.ofDigitChars 10 digits 0
    if 1 ≤ width ∧ width ≤ 65535 then some width else none
  else none

/-- The options of `run`. -/
def runOption (name : String) : Option Bool :=
  if name = "debug" ∨ name = "strict" then some false
  else if name = "unknown-opcode" ∨ name = "script" then some true
  else none

/-- The options of `dump`. -/
def dumpOption (name : String) : Option Bool :=
  if name = "text" then some false
  else if name = "width" then some true
  else none

/-- The arguments of `run`. -/
def RunOptions.ofList? (list : List String) : Option RunOptions := do
  let (rom, args) ← Args.withFile? runOption list
  let unknownOpcode ← (args.value? "unknown-opcode").elim (some default) policyOf?
  return {
    rom, unknownOpcode
    debug := args.has "debug"
    strict := args.has "strict"
    script := args.value? "script" }

/-- The arguments of `dump`. -/
def DumpOptions.ofList? (list : List String) : Option DumpOptions := do
  let (rom, args) ← Args.withFile? dumpOption list
  let width ← (args.value? "width").elim (some 16) widthOf?
  return { rom, width, style := if args.has "text" then .text else .hex }

/-- The command that the arguments ask for, if they fit one. -/
def Command.ofList? : List String → Option Command
  | [] => none
  | name :: list =>
    if name = "run" then .run <$> RunOptions.ofList? list
    else if name = "dis" then (.dis ·.1) <$> Args.withFile? (fun _ => none) list
    else if name = "dump" then .dump <$> DumpOptions.ofList? list
    else none

/-! ### What options stand for -/

/-- The files that a command reads. -/
def Command.files : Command → List String
  | .run o => o.rom :: o.script.toList
  | .dis rom => [rom]
  | .dump o => [o.rom]

namespace RunOptions

/-- What the machine does at unknown opcodes: to be strict outweighs the choice made. -/
def policy (o : RunOptions) : Policy := if o.strict then .fault else o.unknownOpcode

/-- When the console writes: if all records of the machine are shown, output is kept apart from
them. -/
def mode (o : RunOptions) : Console.Mode := if o.debug then .buffered else .interactive

end RunOptions

end WordMachine.CommandLine
