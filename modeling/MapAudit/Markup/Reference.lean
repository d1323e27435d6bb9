import MapAudit.Markup.Character
import MapAudit.Markup.Fault
import MapAudit.Text.Cut
import MapAudit.Text.Hex
import MapAudit.Text.Decimal

/-!
# References and line ends

Character data is read as a list of *pieces*: characters that stand for
themselves, and characters that a reference such as `&lt;` or `&#65;` names.
Only the former take part in line-end rules.
-/

namespace MapAudit.Markup

set_option autoImplicit false

/-- One character of character data. -/
inductive Piece where
  /-- It stands in the document as it is. -/
  | literal (c : Char)
  /-- A reference names it. -/
  | referred (c : Char)
  deriving DecidableEq, Repr

/-! ## References -/

/-- The character of a code point.  A number below 2^32 that is no scalar value
stands for the replacement character. -/
def codePoint? (n : Nat) : Option Char :=
  if n < UInt32.size then
    let c := if h : n.isValidChar then Char.ofNatAux n h else '�'
    if isAllowed c then some c else none
  else none

/-- The characters with names of their own. -/
def namedCharacters : List (String × Char) :=
  [("quot", '"'), ("amp", '&'), ("apos", '\x27'), ("lt", '<'), ("gt", '>')]

/-- The character that a reference names, given what stands between `&` and `;`. -/
def referred? : List Char → Option Char
  | '#' :: 'x' :: digits => (Text.Hex.value? digits).bind codePoint?
  | '#' :: digits => (Text.digits? digits).bind codePoint?
  | name => namedCharacters.lookup (String.ofList name)

def pieces : List Char → Except Fault (List Piece)
  | [] => .ok []
  | c :: cs =>
      if c = '&' then
        match _cut : Text.cut? [';'] cs with
        | none => .error .badReference
        | some (name, rest) =>
            match referred? name with
            | none => .error .badReference
            | some named => (pieces rest).map (Piece.referred named :: ·)
      else (pieces cs).map (Piece.literal c :: ·)
  termination_by cs => cs.length
  decreasing_by
    · have := Text.length_cut? _cut
      simp only [List.length_cons, List.length_nil] at this ⊢
      omega
    · simp

/-! ## Line ends -/

/-- Put a character that stands for itself after the text `out`, which is kept in
reverse.  A carriage return before it becomes a line feed, which swallows a line
feed that follows; one that is the last character becomes a line feed at once. -/
def pushLiteral (out : List Char) (c : Char) (last : Bool) : List Char :=
  let c' := if last && c == '\r' then '\n' else c
  match out with
  | '\r' :: before => if c = '\n' then '\n' :: before else c' :: '\n' :: before
  | _ => c' :: out

/-- Put pieces after the text `out`, which is kept in reverse.  A character that a
reference names is taken as it is, and so is the one character after it
(`asIs`). -/
def pour (out : List Char) (asIs : Bool) : List Piece → List Char
  | [] => out
  | .referred c :: rest => pour (c :: out) true rest
  | .literal c :: rest =>
      if asIs then pour (c :: out) false rest else pour (pushLiteral out c rest.isEmpty) false rest

/-- The text of character data: CR LF and a lone CR are line feeds. -/
def contentText (ps : List Piece) : String :=
  String.ofList (pour [] false ps).reverse

/-- The value of an attribute: line ends and tabs are spaces. -/
def attributeChars : List Piece → List Char
  | [] => []
  | .referred c :: rest => c :: attributeChars rest
  | .literal '\r' :: .literal '\n' :: rest => ' ' :: attributeChars rest
  | .literal c :: rest =>
      (if c == '\n' || c == '\r' || c == '\t' then ' ' else c) :: attributeChars rest

end MapAudit.Markup
