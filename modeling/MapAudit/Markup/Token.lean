import MapAudit.Markup.Reference

/-!
# Tokens of a document

`scan` divides a document into tags, character data, literal sections, comments
and instructions.  It knows nothing of how tags nest.
-/

namespace MapAudit.Markup

set_option autoImplicit false

/-- A name with its qualifier, which is empty where there is none. -/
structure Name where
  qualifier : String
  base : String
  deriving DecidableEq, Repr

structure Attribute where
  name : Name
  value : String
  deriving DecidableEq, Repr

inductive Token where
  /-- An opening tag; `closed` where it also closes its element. -/
  | opening (name : Name) (attributes : List Attribute) (closed : Bool)
  | closing (name : Name)
  | text (content : List Piece)
  /-- A literal section: character data without references. -/
  | literal (content : List Piece)
  | comment
  | instruction
  deriving DecidableEq, Repr

/-! ## Names -/

/-- Whether a word is empty or begins as a name may. -/
def startsAsName : List Char → Bool
  | [] => true
  | c :: _ => isNameStart c

/-- Divide a word at its colon.  There is at most one, and the part after it is
not empty. -/
def name? (word : List Char) : Option Name :=
  match word.span (· ≠ ':') with
  | (base, []) =>
      if !base.isEmpty && startsAsName base then some ⟨"", String.ofList base⟩ else none
  | (qualifier, _ :: base) =>
      if startsAsName qualifier && !base.isEmpty && startsAsName base && !base.contains ':' then
        some ⟨String.ofList qualifier, String.ofList base⟩
      else none

def readName (cs : List Char) : Except Fault (Name × List Char) :=
  match name? (cs.takeWhile isNamePart) with
  | some name => .ok (name, cs.dropWhile isNamePart)
  | none => .error .badName

/-! ## Attributes -/

/-- Read a quoted text as it is written. -/
def readQuoted : List Char → Except Fault (List Char × List Char)
  | [] => .error .badMarkup
  | q :: cs =>
      if q = '"' ∨ q = '\x27' then
        match cs.dropWhile (fun c => c ≠ q ∧ c ≠ '<') with
        | [] => .error .badMarkup
        | c :: rest =>
            if c = q then .ok (cs.takeWhile fun c => c ≠ q ∧ c ≠ '<', rest)
            else .error .badMarkup
      else .error .badMarkup

/-- Read a name, an equals sign and a quoted text as it is written. -/
def readAssignment (cs : List Char) : Except Fault (Name × List Char × List Char) := do
  let (name, rest) ← readName cs
  match skipSpace rest with
  | '=' :: rest =>
      let (written, rest) ← readQuoted (skipSpace rest)
      return (name, written, rest)
  | _ => throw .badMarkup

/-- Read an attribute, whose value may hold references. -/
def readAttribute (cs : List Char) : Except Fault (Attribute × List Char) := do
  let (name, written, rest) ← readAssignment cs
  let value ← pieces written
  return (⟨name, String.ofList (attributeChars value)⟩, rest)

/-! ## What reading consumes -/

theorem length_readName {cs rest : List Char} {name : Name} (read : readName cs = .ok (name, rest)) :
    rest.length ≤ cs.length := by
  unfold readName at read
  split at read
  · simp only [Except.ok.injEq, Prod.mk.injEq] at read
    exact read.2 ▸ (List.dropWhile_suffix isNamePart).length_le
  · simp at read

theorem length_readQuoted {cs written rest : List Char}
    (read : readQuoted cs = .ok (written, rest)) : rest.length ≤ cs.length := by
  cases cs with
  | nil => cases read
  | cons q cs =>
      simp only [readQuoted] at read
      split at read
      · split at read
        · cases read
        · rename_i c tail dropped
          split at read
          · cases read
            have shorter := (List.dropWhile_suffix (l := cs) fun c => decide (c ≠ q ∧ c ≠ '<')).length_le
            simp only [dropped, List.length_cons] at shorter ⊢
            omega
          · cases read
      · cases read

theorem length_readAssignment {cs written rest : List Char} {name : Name}
    (read : readAssignment cs = .ok (name, written, rest)) : rest.length < cs.length := by
  unfold readAssignment at read
  cases named : readName cs with
  | error fault => simp [named, bind, Except.bind] at read
  | ok found =>
      obtain ⟨name, tail⟩ := found
      have first := length_readName named
      simp only [named, bind, Except.bind] at read
      split at read
      · rename_i tail' spaced
        have second := length_skipSpace tail
        simp only [spaced, List.length_cons] at second
        cases quoted : readQuoted (skipSpace tail') with
        | error fault => simp [quoted] at read
        | ok found =>
            obtain ⟨written, tail''⟩ := found
            have third := length_readQuoted quoted
            have fourth := length_skipSpace tail'
            simp only [quoted, pure, Except.pure, Except.ok.injEq, Prod.mk.injEq] at read
            have same := congrArg List.length read.2.2
            omega
      · simp [throw, throwThe, MonadExceptOf.throw] at read

theorem length_readAttribute {cs rest : List Char} {attr : Attribute}
    (read : readAttribute cs = .ok (attr, rest)) : rest.length < cs.length := by
  unfold readAttribute at read
  cases assigned : readAssignment cs with
  | error fault => simp [assigned, bind, Except.bind] at read
  | ok found =>
      obtain ⟨name, written, tail⟩ := found
      simp only [assigned, bind, Except.bind] at read
      cases decoded : pieces written with
      | error fault => simp only [decoded, reduceCtorEq] at read
      | ok ps =>
          simp only [decoded, pure, Except.pure, Except.ok.injEq, Prod.mk.injEq] at read
          exact read.2 ▸ length_readAssignment assigned

/-! ## Tags -/

def startsAsSpace : List Char → Bool
  | [] => false
  | c :: _ => isSpace c

/-- Read the attributes and the end of an opening tag: whether it also closes its
element, and what follows.  White space stands before every attribute. -/
def readTagEnd (cs : List Char) : Except Fault (List Attribute × Bool × List Char) :=
  match _skipped : skipSpace cs with
  | [] => .error .badMarkup
  | '>' :: rest => .ok ([], false, rest)
  | '/' :: '>' :: rest => .ok ([], true, rest)
  | c :: rest =>
      if startsAsSpace cs then
        match _read : readAttribute (c :: rest) with
        | .error fault => .error fault
        | .ok (attr, rest') =>
            (readTagEnd rest').map fun found => (attr :: found.1, found.2)
      else .error .badMarkup
  termination_by cs.length
  decreasing_by
    have consumed := length_readAttribute _read
    have spaced := length_skipSpace cs
    rw [_skipped] at spaced
    omega

theorem length_readTagEnd {cs rest : List Char} {attributes : List Attribute} {closed : Bool}
    (read : readTagEnd cs = .ok (attributes, closed, rest)) : rest.length < cs.length := by
  fun_induction readTagEnd cs generalizing attributes closed rest with
  | case1 => simp at read
  | case2 cs tail skipped =>
      have := length_skipSpace cs
      simp only [Except.ok.injEq, Prod.mk.injEq] at read
      simp only [skipped, List.length_cons] at this
      have same := congrArg List.length read.2.2
      omega
  | case3 cs tail skipped =>
      have := length_skipSpace cs
      simp only [Except.ok.injEq, Prod.mk.injEq] at read
      simp only [skipped, List.length_cons] at this
      have same := congrArg List.length read.2.2
      omega
  | case4 => simp at read
  | case5 cs c tail _ _ skipped _ attr tail' read' ih =>
      cases inner : readTagEnd tail' with
      | error fault => simp [inner, Except.map] at read
      | ok found =>
          obtain ⟨others, closed', rest'⟩ := found
          simp only [inner, Except.map, Except.ok.injEq, Prod.mk.injEq] at read
          have first := ih inner
          have second := length_readAttribute read'
          have third := length_skipSpace cs
          rw [skipped] at third
          have same := congrArg List.length read.2.2
          omega
  | case6 => simp at read

/-! ## One token -/

/-- The rest of an opening tag. -/
def readOpening (cs : List Char) : Except Fault (Token × List Char) := do
  let (name, rest) ← readName cs
  let (attributes, closed, rest) ← readTagEnd rest
  return (.opening name attributes closed, rest)

def readClosing (cs : List Char) : Except Fault (Token × List Char) := do
  let (name, rest) ← readName cs
  match skipSpace rest with
  | '>' :: rest => return (.closing name, rest)
  | _ => throw .badMarkup

/-- The rest of a comment, which holds no two hyphens in a row and does not end
in one. -/
def readComment (cs : List Char) : Except Fault (Token × List Char) :=
  match Text.cut? ['-', '-', '>'] cs with
  | some (content, rest) =>
      if (Text.cut? ['-', '-'] content).isSome ∨ content.getLast? = some '-' then .error .badMarkup
      else .ok (.comment, rest)
  | none => .error .badMarkup

/-- The rest of an instruction.  It begins with a name, and it is no declaration,
which may stand only at the very start of a document. -/
def readInstruction (cs : List Char) : Except Fault (Token × List Char) :=
  match cs with
  | [] => .error .badName
  | c :: _ =>
      if !isNameStart c then .error .badName
      else if (Text.after? "xml ".toList cs).isSome then .error .badMarkup
      else
        match Text.cut? ['?', '>'] (cs.dropWhile isNamePart) with
        | some (_, rest) => .ok (.instruction, rest)
        | none => .error .badMarkup

def readLiteral (cs : List Char) : Except Fault (Token × List Char) :=
  match Text.cut? [']', ']', '>'] cs with
  | some (content, rest) => .ok (.literal (content.map .literal), rest)
  | none => .error .badMarkup

/-- Character data up to the next tag, given its first character. -/
def readText (c : Char) (cs : List Char) : Except Fault (Token × List Char) :=
  let content := c :: cs.takeWhile (· ≠ '<')
  if (Text.cut? [']', ']', '>'] content).isSome then .error .strayClosing
  else (pieces content).map fun ps => (.text ps, cs.dropWhile (· ≠ '<'))

/-- Read one token of a document that goes on with `c`. -/
def next (c : Char) (cs : List Char) : Except Fault (Token × List Char) :=
  if c ≠ '<' then readText c cs
  else
    match Text.after? "!--".toList cs with
    | some rest => readComment rest
    | none =>
        match Text.after? "![CDATA[".toList cs with
        | some rest => readLiteral rest
        | none =>
            match cs with
            | '?' :: rest => readInstruction rest
            | '/' :: rest => readClosing rest
            | _ => readOpening cs

theorem length_readOpening {cs rest : List Char} {token : Token}
    (read : readOpening cs = .ok (token, rest)) : rest.length ≤ cs.length := by
  unfold readOpening at read
  cases named : readName cs with
  | error fault => simp [named, bind, Except.bind] at read
  | ok found =>
      obtain ⟨name, tail⟩ := found
      simp only [named, bind, Except.bind] at read
      cases ended : readTagEnd tail with
      | error fault => simp [ended] at read
      | ok found =>
          obtain ⟨attributes, closed, tail'⟩ := found
          simp only [ended, pure, Except.pure, Except.ok.injEq, Prod.mk.injEq] at read
          have first := length_readName named
          have second := length_readTagEnd ended
          have same := congrArg List.length read.2
          omega

theorem length_readClosing {cs rest : List Char} {token : Token}
    (read : readClosing cs = .ok (token, rest)) : rest.length ≤ cs.length := by
  unfold readClosing at read
  cases named : readName cs with
  | error fault => simp [named, bind, Except.bind] at read
  | ok found =>
      obtain ⟨name, tail⟩ := found
      have first := length_readName named
      simp only [named, bind, Except.bind] at read
      split at read
      · rename_i tail' spaced
        have second := length_skipSpace tail
        simp only [spaced, List.length_cons] at second
        simp only [pure, Except.pure, Except.ok.injEq, Prod.mk.injEq] at read
        have same := congrArg List.length read.2
        omega
      · simp [throw, throwThe, MonadExceptOf.throw] at read

theorem length_readComment {cs rest : List Char} {token : Token}
    (read : readComment cs = .ok (token, rest)) : rest.length ≤ cs.length := by
  unfold readComment at read
  split at read
  · rename_i content tail cut
    split at read
    · simp at read
    · simp only [Except.ok.injEq, Prod.mk.injEq] at read
      have := Text.length_cut? cut
      rw [← read.2]
      omega
  · simp at read

theorem length_readInstruction {cs rest : List Char} {token : Token}
    (read : readInstruction cs = .ok (token, rest)) : rest.length ≤ cs.length := by
  cases cs with
  | nil => simp [readInstruction] at read
  | cons c cs =>
      simp only [readInstruction] at read
      split at read
      · simp at read
      · split at read
        · simp at read
        · split at read
          · rename_i content tail cut
            simp only [Except.ok.injEq, Prod.mk.injEq] at read
            have first := Text.length_cut? cut
            have second := (List.dropWhile_suffix (l := c :: cs) isNamePart).length_le
            rw [← read.2]
            omega
          · simp at read

theorem length_readLiteral {cs rest : List Char} {token : Token}
    (read : readLiteral cs = .ok (token, rest)) : rest.length ≤ cs.length := by
  unfold readLiteral at read
  split at read
  · rename_i content tail cut
    simp only [Except.ok.injEq, Prod.mk.injEq] at read
    have := Text.length_cut? cut
    rw [← read.2]
    omega
  · simp at read

theorem length_readText {c : Char} {cs rest : List Char} {token : Token}
    (read : readText c cs = .ok (token, rest)) : rest.length ≤ cs.length := by
  unfold readText at read
  simp only at read
  split at read
  · simp at read
  · cases decoded : pieces (c :: cs.takeWhile (· ≠ '<')) with
    | error fault => simp only [decoded, Except.map, reduceCtorEq] at read
    | ok ps =>
        simp only [decoded, Except.map, Except.ok.injEq, Prod.mk.injEq] at read
        exact read.2 ▸ (List.dropWhile_suffix _).length_le

/-- Every token consumes its first character. -/
theorem length_next {c : Char} {cs rest : List Char} {token : Token}
    (read : next c cs = .ok (token, rest)) : rest.length ≤ cs.length := by
  unfold next at read
  split at read
  · exact length_readText read
  · split at read
    · rename_i tail found
      have := Text.length_after? found
      have := length_readComment read
      omega
    · split at read
      · rename_i tail found
        have := Text.length_after? found
        have := length_readLiteral read
        omega
      · split at read
        · have := length_readInstruction read
          simp only [List.length_cons]
          omega
        · have := length_readClosing read
          simp only [List.length_cons]
          omega
        · exact length_readOpening read

/-! ## All tokens -/

/-- Divide a document, after its declaration, into tokens. -/
def scan : List Char → Except Fault (List Token)
  | [] => .ok []
  | c :: cs =>
      match _read : next c cs with
      | .error fault => .error fault
      | .ok (token, rest) => (scan rest).map (token :: ·)
  termination_by cs => cs.length
  decreasing_by
    have := length_next _read
    simp only [List.length_cons]
    omega

end MapAudit.Markup
