import MapAudit.Text.Cut

/-!
# Command-line arguments

`Command.ofArguments` reads the words of a command line: the name of a command and
its options.  An option takes one value, either after an equals sign or as the next
word.  The value of an option is judged only when the next option is met or the
line ends, so an unknown word after it counts first.
-/

namespace MapAudit

set_option autoImplicit false

/-- What an explanation is asked for. -/
inductive Target where
  /-- A loaded check, by its id. -/
  | check (id : String)
  /-- A document, by its path. -/
  | file (path : String)
  deriving DecidableEq, Repr

/-- A command, with the path of the settings. -/
inductive Command where
  /-- List what is loaded and what is refused. -/
  | list (settings : String)
  /-- Write the statements of all checks, or of one. -/
  | compile (settings : String) (check : Option String)
  /-- Explain a check or a document. -/
  | explain (settings : String) (target : Option Target)
  deriving DecidableEq, Repr

/-- Why a command line is no command. -/
inductive Usage where
  /-- Help is asked for. -/
  | help
  /-- The version is asked for. -/
  | version
  | noCommand
  | unknownCommand
  | unknownArgument
  /-- An option has no value, or an empty one that it cannot take. -/
  | badValue
  /-- A value is given to what takes none. -/
  | unneededValue
  /-- Options that exclude each other, or one option twice. -/
  | conflict
  /-- An option that must be there is not. -/
  | missingArgument
  deriving DecidableEq, Repr

/-- Asking for help or for the version is no failure. -/
def Usage.exitCode : Usage → Nat
  | .help => 0
  | .version => 0
  | _ => 2

namespace Command

/-! ## Words -/

/-- A word of a command line by its shape. -/
inductive Argument where
  /-- Two dashes: no options follow. -/
  | endOfOptions
  /-- Two dashes and a name, with a value after an equals sign or without. -/
  | long (name : String) (value : Option String)
  /-- One dash and letters, of which the first counts. -/
  | short (letter : Char)
  /-- Anything else, a single dash too. -/
  | word (text : String)
  deriving DecidableEq, Repr

def Argument.ofText (text : String) : Argument :=
  match text.toList with
  | ['-', '-'] => .endOfOptions
  | '-' :: '-' :: rest =>
      match Text.cut? ['='] rest with
      | some (name, value) => .long (String.ofList name) (some (String.ofList value))
      | none => .long (String.ofList rest) none
  | '-' :: letter :: _ => .short letter
  | _ => .word text

/-! ## Options -/

/-- An option that takes a value. -/
inductive Opt where
  | config
  | check
  | file
  deriving DecidableEq, Repr

namespace Opt

def name : Opt → String
  | .config => "config"
  | .check => "check"
  | .file => "file"

/-- Whether the value is a path, which may not be empty. -/
def isPath : Opt → Bool
  | .check => false
  | _ => true

end Opt

/-- The options that have a value, each with it. -/
abbrev Given := List (Opt × String)

def Given.put (given : Given) (opt : Opt) (value : String) : Except Usage Given :=
  if (given.lookup opt).isSome then .error .conflict
  else if opt.isPath ∧ value = "" then .error .badValue
  else .ok (given ++ [(opt, value)])

/-- What has been read of the options. -/
structure Options where
  given : Given := []
  /-- The option met last, if its value is not judged yet; and that value, if it
  has come. -/
  pending : Option (Opt × Option String) := none
  deriving DecidableEq, Repr

namespace Options

/-- Judge the value of the option met last. -/
def settle (o : Options) : Except Usage Given :=
  match o.pending with
  | none => .ok o.given
  | some (_, none) => .error .badValue
  | some (opt, some value) => o.given.put opt value

def step (allowed : List Opt) (o : Options) : Argument → Except Usage Options
  | .long name value =>
      match allowed.find? fun opt => opt.name = name with
      | some opt => do
          let given ← o.settle
          match value with
          | some value => return { given := ← given.put opt value }
          | none => return { given, pending := some (opt, none) }
      | none =>
          if name ≠ "help" then .error .unknownArgument
          else if value.isSome then .error .unneededValue
          else do
            let _ ← o.settle
            throw .help
  | .short letter =>
      if letter ≠ 'h' then .error .unknownArgument
      else do
        let _ ← o.settle
        throw .help
  | .word text =>
      match o.pending with
      | some (opt, none) => .ok { o with pending := some (opt, some text) }
      | _ => .error .unknownArgument
  | .endOfOptions => .error .unknownArgument

def read (allowed : List Opt) : List String → Options → Except Usage Given
  | [], o => o.settle
  | text :: rest, o =>
      match Argument.ofText text with
      | .endOfOptions => if rest.isEmpty then o.settle else .error .unknownArgument
      | argument => do
          let o ← o.step allowed argument
          o.read allowed rest

end Options

/-! ## Commands -/

/-- Where settings are if no path is given. -/
def defaultSettings : String := "./geocheck.json"

def settingsPath (given : Given) : String :=
  (given.lookup .config).getD defaultSettings

def names : List String := ["list", "compile", "explain", "help"]

/-- Read what follows `help`: nothing, or the name of one command. -/
def readHelp : List String → Usage
  | [] => .help
  | [name] => if name ∈ names then .help else .unknownCommand
  | _ => .unknownCommand

def ofWords (name : String) (rest : List String) : Except Usage Command :=
  match name with
  | "list" => do
      let given ← Options.read [.config] rest {}
      return .list (settingsPath given)
  | "compile" => do
      let given ← Options.read [.config, .check] rest {}
      return .compile (settingsPath given) (given.lookup .check)
  | "explain" => do
      let given ← Options.read [.config, .check, .file] rest {}
      match given.lookup .check, given.lookup .file with
      | some _, some _ => throw .conflict
      | none, none => throw .missingArgument
      | some id, none => return .explain (settingsPath given) (some (.check id))
      | none, some path => return .explain (settingsPath given) (some (.file path))
  | "help" => .error (readHelp rest)
  | _ => .error .unknownCommand

/-- Read the words of a command line, without the name of the program. -/
def ofArguments : List String → Except Usage Command
  | [] => .error .noCommand
  | first :: rest =>
      match Argument.ofText first with
      | .word name => ofWords name rest
      | .endOfOptions =>
          match rest with
          | [] => .error .noCommand
          | name :: _ => .error (if name ∈ names then .unknownArgument else .unknownCommand)
      | .long name value =>
          if name ≠ "help" ∧ name ≠ "version" then .error .unknownArgument
          else if value.isSome then .error .unneededValue
          else .error (if name = "help" then .help else .version)
      | .short 'h' => .error .help
      | .short 'V' => .error .version
      | .short _ => .error .unknownArgument

end Command

end MapAudit
