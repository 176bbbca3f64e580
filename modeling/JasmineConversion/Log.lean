/-! # Log records -/

namespace JasmineConversion

/-- The parts of the program that write log records. -/
inductive LogOrigin where
  | reading
  | adapting
  | conversion
  | files
  | commandLine
  deriving DecidableEq

/-- The name of a part of the program, as log lines show it. -/
def LogOrigin.name : LogOrigin → String
  | reading => "splurge_exttest_to_jasmine.parser"
  | adapting => "splurge_exttest_to_jasmine.transform_visitor"
  | conversion => "splurge_exttest_to_jasmine.converter"
  | files => "splurge_exttest_to_jasmine.main"
  | commandLine => "splurge_exttest_to_jasmine.cli"

/-- How grave a log record is. -/
inductive LogLevel where
  | debug
  | info
  | error
  deriving DecidableEq

namespace LogLevel

/-- The name of a level, as log lines show it. -/
def name : LogLevel → String
  | debug => "DEBUG"
  | info => "INFO"
  | error => "ERROR"

/-- The rank of a level among all thresholds. -/
def rank : LogLevel → Nat
  | debug => 10
  | info => 20
  | error => 40

/-- The rank that a threshold name stands for, in capital letters. -/
def rankOfName? : String → Option Nat
  | "NOTSET" => some 0
  | "DEBUG" => some 10
  | "INFO" => some 20
  | "WARN" => some 30
  | "WARNING" => some 30
  | "ERROR" => some 40
  | "FATAL" => some 50
  | "CRITICAL" => some 50
  | _ => none

end LogLevel

/-- Names that the log has for something else than a threshold: for the form of its lines, and for
the styles that such a form may have. -/
inductive NotThreshold where
  | lineForm
  | lineStyles
  deriving DecidableEq

namespace NotThreshold

/-- What a name in capital letters stands for, if it is no threshold. -/
def ofName? : String → Option NotThreshold
  | "BASIC_FORMAT" => some lineForm
  | "_STYLES" => some lineStyles
  | _ => none

/-- The wording for something that was given as a threshold. -/
def message : NotThreshold → String
  | lineForm => "Unknown level: '%(levelname)s:%(name)s:%(message)s'"
  | lineStyles =>
      "Level not an integer or a valid string: \x7b" ++
        "'%': (<class 'logging.PercentStyle'>, '%(levelname)s:%(name)s:%(message)s'), " ++
        "'\x7b': (<class 'logging.StrFormatStyle'>, " ++
        "'\x7blevelname\x7d:\x7bname\x7d:\x7bmessage\x7d'), " ++
        "'$': (<class 'logging.StringTemplateStyle'>, " ++
        "'$\x7blevelname\x7d:$\x7bname\x7d:$\x7bmessage\x7d')\x7d"

end NotThreshold

/-- A log record. -/
structure LogRecord where
  origin : LogOrigin
  level : LogLevel
  message : String
  deriving DecidableEq

/-- The line that a log record is shown as. -/
def LogRecord.line (entry : LogRecord) : String :=
  entry.origin.name ++ " - " ++ entry.level.name ++ " - " ++ entry.message

end JasmineConversion
