/-!
# Texts and bytes

`bytes` writes a text in UTF-8.  `ofBytes` shows any bytes as a text: every character that
is written there, and a replacement character for each longest part that is none.
-/

namespace MapAudit

set_option autoImplicit false

abbrev Bytes := List UInt8

namespace Text

/-- The bytes of a text in UTF-8. -/
def bytes (s : String) : Bytes :=
  s.toList.flatMap String.utf8EncodeChar

/-- The character that bytes begin with. -/
def char? (bytes : Bytes) : Option Char :=
  bytes.toByteArray.utf8DecodeChar? 0

/-- Whether a byte may follow the first one of a character of three or four bytes. -/
def mayFollow (first second : UInt8) : Bool :=
  if first = 0xE0 then 0xA0 ≤ second && second ≤ 0xBF
  else if first = 0xED then 0x80 ≤ second && second ≤ 0x9F
  else if first = 0xF0 then 0x90 ≤ second && second ≤ 0xBF
  else if first = 0xF4 then 0x80 ≤ second && second ≤ 0x8F
  else 0xE0 ≤ first && first ≤ 0xF4 && 0x80 ≤ second && second ≤ 0xBF

/-- Of the bytes after the first one of a character that is cut off, the number of those
that still belong to it. -/
def stray (first : UInt8) : Bytes → Nat
  | [] => 0
  | second :: rest =>
      if !mayFollow first second then 0
      else if 0xF0 ≤ first && (rest.head?.any fun third => 0x80 ≤ third && third ≤ 0xBF) then 2
      else 1

/-- What stands for bytes that are no character. -/
def replacement : Char := '�'

/-- The characters that bytes show, once so many of them are passed over. -/
def shown : Nat → Bytes → List Char
  | _, [] => []
  | pass + 1, _ :: rest => shown pass rest
  | 0, first :: rest =>
      match char? (first :: rest) with
      | some c => c :: shown (c.utf8Size - 1) rest
      | none => replacement :: shown (stray first rest) rest

/-- The text that bytes show. -/
def ofBytes (bytes : Bytes) : String :=
  String.ofList (shown 0 bytes)

end Text

end MapAudit
