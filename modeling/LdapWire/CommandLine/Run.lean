import LdapWire.CommandLine.Options
import LdapWire.Encode.Basic
import LdapWire.Message.Outline
import LdapWire.Session.Stream
import LdapWire.Settings.Text
import LdapWire.Text.Blank

/-!
# Running the program

`CommandLine.run` decodes the input that the arguments name and reports every
message. It is a function of the arguments, the files and the standard input;
its result is the list of lines to print and the way the run ends.
-/

set_option autoImplicit false

namespace LdapWire.CommandLine

/-- How much attention a line of the log asks for. -/
inductive Level where
  | info
  | warn
  | error
deriving DecidableEq

def Level.name : Level → String
  | .info => "INFO"
  | .warn => "WARN"
  | .error => "ERROR"

/-- A line that is printed. -/
inductive Line where
  | output (text : String)
  | log (level : Level) (text : String)
deriving DecidableEq

/-- Why a run fails. -/
inductive RunError where
  | configUnreadable (name : String)
  | settings (error : SettingsError)
  | inputUnopened (name : String)
  | hexUnreadable
  | hexMalformed
  | stream (error : StreamError)
  | reencode (id : Int32)
  | batch (failure : Batch.Failure)
deriving DecidableEq

/-- The failure in words. -/
def RunError.message : RunError → String
  | .configUnreadable name => s!"Read config file {name}"
  | .settings error => error.message
  | .inputUnopened name => s!"Open input {name}"
  | .hexUnreadable => "Read hex input"
  | .hexMalformed => "Decode hex input"
  | .stream error => error.message
  | .reencode id => s!"Re-encode message {id}"
  | .batch failure => failure.message

/-- What a run prints and how it ends. -/
structure Report where
  lines : List Line := []
  failure : Option RunError := none
  /-- The exit code. -/
  status : Nat := 0
deriving DecidableEq

namespace Report

/-- A report that prints lines before another one. -/
def after (lines : List Line) (report : Report) : Report :=
  { report with lines := lines ++ report.lines }

def failed (error : RunError) : Report := { failure := some error, status := 1 }

end Report

/-- The files that a run may read, by name. -/
abbrev Files := String → Option Bytes

/-- The text of a file or of the input, if its octets are UTF-8. -/
def textOf? (content : Bytes) : Option String := String.fromUTF8? ⟨content.toArray⟩

/-- The settings from a file. -/
def readSettings (files : Files) (name : String) : Except RunError Settings :=
  match (files name).bind textOf? with
  | none => .error (.configUnreadable name)
  | some text => (Settings.parse text).mapError .settings

/-- The settings of a run. A size of reads among the arguments has precedence. -/
def settingsOf (files : Files) (options : Options) : Except RunError Settings := do
  let settings ←
    match options.config with
    | none => pure {}
    | some name => readSettings files name
  match options.chunkSize with
  | none => return settings
  | some chunkSize =>
      let settings := { settings with chunkSize }
      settings.check.mapError .settings
      return settings

/-- The octets that hexadecimal text spells, blanks aside. -/
def decodeHex (content : Bytes) : Except RunError Bytes :=
  match textOf? content with
  | none => .error .hexUnreadable
  | some text =>
      match Text.Hex.decode? (text.toList.filter (fun character => !Text.isBlank character)) with
      | none => .error .hexMalformed
      | some bytes => .ok bytes

/-- The octets to decode. -/
def inputOf (files : Files) (standardInput : Bytes) (options : Options) :
    Except RunError Bytes := do
  let content ←
    match options.input with
    | none => pure standardInput
    | some name =>
        match files name with
        | some content => pure content
        | none => throw (.inputUnopened name)
  if options.hex then decodeHex content else return content

/-- The warnings for controls that were kept although nobody knows them. -/
def warnings (registry : Registry) (controls : List Control) : List Line :=
  (controls.filter (fun control => !registry.isRegistered control.oid)).map fun control =>
    .log .warn s!"Keeping unknown non-critical control {control.oid} as opaque bytes"

/-- The outcome of a message: it is shown, encoded again if that is wanted, and
checked by the policy for batches. -/
def reportMessage (settings : Settings) (options : Options) (message : Message) : Report :=
  let shown := message.outline.lines.map Line.output
  let checked : Report :=
    match settings.policy.process message with
    | .error failure =>
        { Report.failed (.batch failure) with lines := [.log .error failure.message] }
    | .ok (some failure) => { lines := [.log .warn s!"{failure.message}, resuming"] }
    | .ok none => {}
  if options.reencode then
    match message.encode with
    | .error _ => (Report.failed (.reencode message.id)).after shown
    | .ok bytes => checked.after (shown ++ [.output (Text.Hex.encode bytes)])
  else checked.after shown

/-- The lines about a stream that yields no further message because of an error. -/
def reportStop (decoder : Decoder) (stream : Stream) (error : StreamError) : Report :=
  let session := stream.session
  let cause :=
    match error with
    | .codec error =>
        [Line.log .error s!"LDAP decode failed in state {session.state.name}: {error.message}"]
    | _ => []
  (Report.failed (.stream error)).after
    (warnings decoder.registry session.machine.draft.controls ++ cause)

/-- Reports message after message. A message takes at least one octet, so the
number of octets bounds the rounds. -/
def reportAll (decoder : Decoder) (settings : Settings) (options : Options) :
    (rounds count : Nat) → Stream → Report
  | 0, _, _ => {}
  | rounds + 1, count, stream =>
      match Stream.next decoder settings.chunkSize stream with
      | .error error stream => reportStop decoder stream error
      | .ok none _ => { lines := [.log .info s!"Decoded {count} messages"] }
      | .ok (some message) stream =>
          let report :=
            (reportMessage settings options message).after
              (warnings decoder.registry message.controls)
          if report.failure.isSome then report
          else (reportAll decoder settings options rounds (count + 1) stream).after report.lines

/-- Decodes the input that the options name. -/
def execute (files : Files) (standardInput : Bytes) (options : Options) : Report :=
  let source :=
    match options.config with
    | some name =>
        [Line.log .info s!"Configuration source: file {Text.Quoted.quote name}"]
    | none => []
  Report.after source <|
    match settingsOf files options with
    | .error error => Report.failed error
    | .ok settings =>
        match inputOf files standardInput options with
        | .error error => Report.failed error
        | .ok content =>
            let decoder : Decoder := { limits := settings.limits }
            reportAll decoder settings options (content.length + 1) 0
              { source := { reads := [content] } }

/-- Runs the program. -/
def run (files : Files) (standardInput : Bytes) (arguments : List String) : Report :=
  match Options.parse arguments with
  | .error .badArguments => { status := 2 }
  | .error .helpWanted => { lines := Options.help.map .output }
  | .ok options => execute files standardInput options

end LdapWire.CommandLine
