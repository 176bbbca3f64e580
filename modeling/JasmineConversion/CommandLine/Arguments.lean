import JasmineConversion.Text.Basic

/-! # Arguments of the command line

A command line names a command and gives its arguments. Options may stand anywhere among the
others, and the last value of an option counts. Two hyphens end the options.
-/

namespace JasmineConversion

open Text

namespace CommandLine

/-- The options that take a value. -/
inductive ValueOption where
  | inputMask
  | outputMask
  | indent
  | settingsFile
  | logLevel
  deriving DecidableEq

/-- The options that take no value. -/
inductive Flag where
  | dryRun
  | failFast
  | debug
  | help
  deriving DecidableEq

/-- An option, with its value where it is part of the same argument. -/
inductive OptionUse where
  | flag (flag : Flag)
  | value (option : ValueOption) (attached : Option Text)
  deriving DecidableEq

/-- The option that takes a value and has a long name. -/
def ValueOption.ofName? : String → Option ValueOption
  | "--input-mask" => some inputMask
  | "--output-mask" => some outputMask
  | "--indent" => some indent
  | "--config" => some settingsFile
  | "--log-level" => some logLevel
  | _ => none

/-- The option that takes no value and has a long name. -/
def Flag.ofName? : String → Option Flag
  | "--dry-run" => some dryRun
  | "--fail-fast" => some failFast
  | "--debug" => some debug
  | "--help" => some help
  | _ => none

namespace OptionUse

/-- The option that an argument uses by a long name. A value follows an equals sign, and an
option that takes none must not have one. -/
def ofLong? (argument : Text) : Option OptionUse :=
  let name := str (argument.takeWhile (· != '='))
  match argument.dropWhile (· != '=') with
  | [] => ((Flag.ofName? name).map flag).or ((ValueOption.ofName? name).map (value · none))
  | _ :: attached => (ValueOption.ofName? name).map (value · (some attached))

/-- The option that an argument uses by a single letter. Its value may follow at once. -/
def ofShort? : Text → Option OptionUse
  | ['-', 'c'] => some (value .settingsFile none)
  | '-' :: 'c' :: attached => some (value .settingsFile (some attached))
  | _ => none

/-- The option that an argument uses. -/
def of? (argument : Text) : Option OptionUse :=
  (ofLong? argument).or (ofShort? argument)

end OptionUse

/-- Whether an argument uses an option. A hyphen alone does not. -/
def isOption (argument : Text) : Bool :=
  startsWith ['-'] argument && argument.length > 1

/-- The argument that ends the options. -/
def endOfOptions : Text :=
  "--".toList

/-- The arguments of a command: the values of options, the last one first, the flags, and the
other arguments. -/
structure Arguments where
  values : List (ValueOption × Text) := []
  flags : List Flag := []
  places : List Text := []
  deriving DecidableEq

namespace Arguments

/-- The value of an option. -/
def value? (arguments : Arguments) (option : ValueOption) : Option Text :=
  (arguments.values.find? fun entry => entry.1 = option).map (·.2)

/-- Whether a flag is given. -/
def has (arguments : Arguments) (flag : Flag) : Bool :=
  arguments.flags.contains flag

/-- Arguments with one more value. -/
def give (arguments : Arguments) (option : ValueOption) (value : Text) : Arguments :=
  { arguments with values := (option, value) :: arguments.values }

/-- Reads arguments behind those read already. An option that is not known, or that lacks its
value, is refused. -/
def readFrom (before : Arguments) : List Text → Option Arguments
  | [] => some before
  | argument :: rest =>
    if argument = endOfOptions then some { before with places := before.places ++ rest }
    else if !isOption argument then
      readFrom { before with places := before.places ++ [argument] } rest
    else
      match OptionUse.of? argument with
      | none => none
      | some (.flag flag) => readFrom { before with flags := flag :: before.flags } rest
      | some (.value option (some value)) => readFrom (before.give option value) rest
      | some (.value option none) =>
        match rest with
        | [] => none
        | value :: rest => readFrom (before.give option value) rest

/-- Reads the arguments of a command. -/
def read (arguments : List Text) : Option Arguments :=
  readFrom {} arguments

end Arguments

/-- A request to convert a file or a directory. -/
structure ConvertRequest where
  input : Text
  output : Option Text
  arguments : Arguments
  deriving DecidableEq

/-- What a command line asks for. -/
inductive Command where
  | help
  | version
  | convert (request : ConvertRequest)
  deriving DecidableEq

namespace Command

/-- The command of a name with its arguments. -/
def ofName? (name : String) (arguments : Arguments) : Option Command :=
  if name ≠ "version" && name ≠ "convert" then none
  else if name = "version" && (!arguments.values.isEmpty || arguments.flags.any (· ≠ .help)) then
    none
  else if arguments.has .help then some help
  else
    match name, arguments.places with
    | "version", [] => some version
    | "convert", [input] => some (convert ⟨input, none, arguments⟩)
    | "convert", [input, output] => some (convert ⟨input, some output, arguments⟩)
    | _, _ => none

/-- The command that a command line gives, its name first. Before the name only help can be asked
for. -/
def read (line : List Text) : Option Command :=
  let asksHelp := line.head? = some "--help".toList
  match line.dropWhile (· = "--help".toList) with
  | [] => if asksHelp then some help else none
  | first :: rest =>
    let (name, rest) : Option Text × List Text :=
      if first = endOfOptions then (rest.head?, rest.tail)
      else if isOption first then (none, rest)
      else (some first, rest)
    match name with
    | none => if asksHelp && first = endOfOptions then some help else none
    | some name =>
      if asksHelp then some help
      else do ofName? (str name) (← Arguments.read rest)

end Command

end CommandLine

end JasmineConversion
