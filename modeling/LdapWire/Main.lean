import LdapWire.CommandLine.Run

/-!
# The program

Reads the files that the arguments name and the standard input, and prints the
report of the run.
-/

set_option autoImplicit false

namespace LdapWire.CommandLine

/-- The content of a file, if it can be read. -/
def readFile? (name : String) : IO (Option Bytes) := do
  try
    return some (← IO.FS.readBinFile name).data.toList
  catch _ => return none

/-- The content of the files with the given names. -/
def readFiles (names : List String) : IO Files := do
  let found ← names.mapM fun name => return (name, ← readFile? name)
  return fun name => (found.lookup name).join

def Line.print : Line → IO Unit
  | .output text => IO.println text
  | .log level text => IO.println (level.name ++ " " ++ text)

end LdapWire.CommandLine

/-- Runs the program and returns its exit code. -/
def main (arguments : List String) : IO UInt32 := do
  let options := (LdapWire.CommandLine.Options.parse arguments).toOption.getD {}
  let files ← LdapWire.CommandLine.readFiles (options.config.toList ++ options.input.toList)
  let standardInput ←
    if options.input.isSome then pure ByteArray.empty
    else (← IO.getStdin).readBinToEnd
  let report := LdapWire.CommandLine.run files standardInput.data.toList arguments
  report.lines.forM LdapWire.CommandLine.Line.print
  if let some failure := report.failure then IO.eprintln ("Error: " ++ failure.message)
  if report.status = 2 then
    IO.eprintln "error: bad arguments; for more information, try '--help'."
  return UInt32.ofNat report.status
