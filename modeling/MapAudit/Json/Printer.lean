import MapAudit.Json.Basic
import MapAudit.Text.Hex
import MapAudit.Text.Cut

/-!
# Writing JSON

Values are written without gaps.  In strings, quotes, backslashes and the
characters below U+0020 are escaped, and everything else stands for itself.
-/

namespace MapAudit.Json

set_option autoImplicit false

/-- How a character is written between quotes. -/
def escapeChar (c : Char) : List Char :=
  if c = '"' then ['\\', '"']
  else if c = '\\' then ['\\', '\\']
  else if c.toNat = 0x08 then ['\\', 'b']
  else if c.toNat = 0x0C then ['\\', 'f']
  else if c = '\n' then ['\\', 'n']
  else if c = '\r' then ['\\', 'r']
  else if c = '\t' then ['\\', 't']
  else if c.toNat < 0x20 then '\\' :: 'u' :: Text.Hex.four c.toNat
  else [c]

def escapeUnit : StringUnit → List Char
  | .char c => escapeChar c
  | .surrogate code => '\\' :: 'u' :: Text.Hex.four code

/-- A string with its quotes. -/
def quoted (us : List StringUnit) : String :=
  "\"" ++ String.ofList (us.flatMap escapeUnit) ++ "\""

namespace Value

mutual

def render : Value → String
  | .null => "null"
  | .bool true => "true"
  | .bool false => "false"
  | .number text => text
  | .string us => quoted us
  | .array items => "[" ++ Text.joinWith "," (renderItems items) ++ "]"
  | .object members => "\x7b" ++ Text.joinWith "," (renderMembers members) ++ "\x7d"

def renderItems : List Value → List String
  | [] => []
  | v :: rest => v.render :: renderItems rest

def renderMembers : List (List StringUnit × Value) → List String
  | [] => []
  | (key, v) :: rest => (quoted key ++ ":" ++ v.render) :: renderMembers rest

end

end Value

end MapAudit.Json
