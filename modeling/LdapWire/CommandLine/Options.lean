import LdapWire.Text.Digits

/-!
# Command-line options

`Options.parse` reads the arguments of the program. An option may be given once;
its value is the next argument or follows an equals sign, and the value of a
one-letter option may follow at once. One argument without a dash names the
input, and after two dashes every argument counts as such.
-/

set_option autoImplicit false

namespace LdapWire.CommandLine

/-- What the arguments ask for. -/
structure Options where
  /-- The file that holds the settings. -/
  config : Option String := none
  /-- Whether the input is hexadecimal text. -/
  hex : Bool := false
  /-- The number of octets asked for in one read, in place of the setting. -/
  chunkSize : Option Nat := none
  /-- Whether every message is encoded again. -/
  reencode : Bool := false
  /-- Whether a fuller log is asked for; a report has the same lines either way. -/
  debug : Bool := false
  /-- The input file, if the standard input is not read. -/
  input : Option String := none
deriving DecidableEq

/-- Why the arguments start no run. -/
inductive Refusal where
  | badArguments
  | helpWanted
deriving DecidableEq

namespace Options

/-- The options that take a value. -/
inductive Valued where
  | config
  | chunkSize
deriving DecidableEq

/-- The name of a file, which is never empty. -/
def fileName (text : String) : Except Refusal String :=
  if text.isEmpty then .error .badArguments else .ok text

/-- A size in decimal digits, of at most 64 bits. -/
def size (text : String) : Except Refusal Nat :=
  let digits :=
    match text.toList with
    | '+' :: rest => rest
    | all => all
  match Text.Digits.number? 10 digits with
  | some value => if value < UInt64.size then .ok value else .error .badArguments
  | none => .error .badArguments

/-- Sets a flag that has not been given yet. -/
def once (given : Bool) (options : Options) : Except Refusal Options :=
  if given then .error .badArguments else .ok options

def setHex (options : Options) : Except Refusal Options :=
  once options.hex { options with hex := true }

def setReencode (options : Options) : Except Refusal Options :=
  once options.reencode { options with reencode := true }

def setDebug (options : Options) : Except Refusal Options :=
  once options.debug { options with debug := true }

/-- Sets an option with its value. -/
def setValue (options : Options) (name : Valued) (value : String) : Except Refusal Options := do
  match name with
  | .config => once options.config.isSome { options with config := some (← fileName value) }
  | .chunkSize => once options.chunkSize.isSome { options with chunkSize := some (← size value) }

/-- Names the input. -/
def setInput (options : Options) (name : String) : Except Refusal Options := do
  once options.input.isSome { options with input := some (← fileName name) }

/-- Reads the letters after a single dash. The last one may be an option whose
value is the next argument. -/
def letters (options : Options) : List Char → Except Refusal (Options × Option Valued)
  | [] => .ok (options, none)
  | 'd' :: rest => do letters (← options.setDebug) rest
  | 'h' :: _ => .error .helpWanted
  | ['c'] => .ok (options, some .config)
  | 'c' :: '=' :: value => do return (← options.setValue .config (String.ofList value), none)
  | 'c' :: value => do return (← options.setValue .config (String.ofList value), none)
  | _ => .error .badArguments

/-- Reads the name after two dashes, and the value after an equals sign. -/
def word (options : Options) (name : String) (value : Option String) :
    Except Refusal (Options × Option Valued) := do
  match name, value with
  | "hex", none => return (← options.setHex, none)
  | "reencode", none => return (← options.setReencode, none)
  | "debug", none => return (← options.setDebug, none)
  | "help", none => throw .helpWanted
  | "config", none => return (options, some .config)
  | "chunk-size", none => return (options, some .chunkSize)
  | "config", some value => return (← options.setValue .config value, none)
  | "chunk-size", some value => return (← options.setValue .chunkSize value, none)
  | _, _ => throw .badArguments

/-- Splits at the first equals sign. -/
def splitValue (characters : List Char) : String × Option String :=
  let name := characters.takeWhile (fun character => character != '=')
  match characters.drop name.length with
  | [] => (String.ofList name, none)
  | _ :: value => (String.ofList name, some (String.ofList value))

/-- Reads arguments after an option that may wait for its value. -/
def parseFrom (options : Options) (waiting : Option Valued) :
    List String → Except Refusal Options
  | [] => if waiting.isSome then .error .badArguments else .ok options
  | argument :: rest =>
      match waiting, argument.toList with
      | some name, characters =>
          if characters.head? = some '-' ∧ characters ≠ ['-'] then .error .badArguments
          else do parseFrom (← options.setValue name argument) none rest
      | none, ['-', '-'] => rest.foldlM setInput options
      | none, '-' :: '-' :: name => do
          let (name, value) := splitValue name
          let (options, waiting) ← options.word name value
          parseFrom options waiting rest
      | none, '-' :: letter :: more => do
          let (options, waiting) ← options.letters (letter :: more)
          parseFrom options waiting rest
      | none, _ => do parseFrom (← options.setInput argument) none rest

def parse (arguments : List String) : Except Refusal Options := parseFrom {} none arguments

/-- The lines that explain the arguments. -/
def help : List String :=
  ["Decode a stream of BER-encoded LDAPv3 messages",
   "",
   "Usage: ldap-codec [OPTIONS] [INPUT]",
   "",
   "Arguments:",
   "  [INPUT]  Input file (stdin when omitted)",
   "",
   "Options:",
   "  -c, --config <FILE>   Configuration file path (defaults are used when omitted)",
   "      --hex             Input is hex text instead of raw bytes",
   "      --chunk-size <N>  Bytes per read (overrides stream.read_chunk_size)",
   "      --reencode        Encode every decoded message again and print it as hex",
   "  -d, --debug           Enable debug logging",
   "  -h, --help            Print help"]

end Options

end LdapWire.CommandLine
