import Rv64Board.Cli.Options

/-!
# The form of the log

Entries of the log are written one a line: as they are, with the level in color, or as JSON objects.
-/

namespace Rv64Board.Cli

/-- How entries of the log are written. -/
inductive LogFormat
  | plain
  | colored
  | json
  deriving DecidableEq

/-- The format that options ask for, on a terminal with or without colors. -/
def Options.logFormat (o : Options) (colors : Bool) : LogFormat :=
  if o.json then .json else if o.color?.getD colors then .colored else .plain

/-- A character inside a JSON string. -/
def jsonChar (c : Char) : String :=
  if c = '"' then "\\\""
  else if c = '\\' then "\\\\"
  else if c = '\n' then "\\n"
  else if c.val < 0x20 then "\\u00" ++ Text.hexByte c.val.toUInt8
  else c.toString

/-- A JSON string. -/
def jsonString (s : String) : String :=
  "\"" ++ String.join (s.toList.map jsonChar) ++ "\""

/-- The control sequence for the color of a level. -/
def levelColor : Level → String
  | .info => "\x1b[32m"
  | .warn => "\x1b[33m"

namespace LogFormat

/-- An entry of the log in a format. -/
def render : LogFormat → LogEntry → String
  | .plain, e => e.line
  | .colored, e => levelColor e.level ++ e.level.word ++ "\x1b[0m " ++ e.text
  | .json, e =>
    "\x7b\"level\":" ++ jsonString e.level.word ++ ",\"message\":" ++ jsonString e.text ++ "\x7d"

end LogFormat

end Rv64Board.Cli
