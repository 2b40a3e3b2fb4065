import LdapWire.Batch
import LdapWire.Session.Machine

/-!
# Settings

Everything that a user may set: the limits of the decoder, the size of the reads
from a stream and the policy for batches. `Settings.check` refuses values with
which nothing could be decoded.
-/

set_option autoImplicit false

namespace LdapWire

/-- What a user may set. -/
structure Settings where
  limits : Limits := {}
  /-- The number of octets asked for in one read. -/
  chunkSize : Nat := 4096
  policy : Batch.Policy := {}
deriving DecidableEq

/-- Why settings are refused. -/
inductive SettingsError where
  /-- The text is not the YAML that settings are written in. -/
  | unreadable
  | zeroPduSize
  | shallowDepth (depth : Nat)
  | zeroChunkSize
deriving DecidableEq

namespace SettingsError

/-- The failure in words. -/
def message : SettingsError → String
  | .unreadable => "Parse YAML config"
  | .zeroPduSize => "decoder.max_pdu_size must be greater than 0"
  | .shallowDepth depth => s!"decoder.max_depth must be at least 2, got {depth}"
  | .zeroChunkSize => "stream.read_chunk_size must be greater than 0"

end SettingsError

namespace Settings

/-- Accepts settings with which a message can be decoded. The envelope of a
message and its operation take two levels. -/
def check (settings : Settings) : Except SettingsError Unit :=
  if settings.limits.maxPduSize = 0 then .error .zeroPduSize
  else if settings.limits.maxDepth < 2 then .error (.shallowDepth settings.limits.maxDepth)
  else if settings.chunkSize = 0 then .error .zeroChunkSize
  else .ok ()

end Settings

end LdapWire
