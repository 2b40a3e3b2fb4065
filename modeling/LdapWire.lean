import LdapWire.Filter.Text
import LdapWire.Main
import LdapWire.Operation.Cancel
import LdapWire.Proofs.Ber.Sequence
import LdapWire.Proofs.Ber.Shortest
import LdapWire.Proofs.CommandLine
import LdapWire.Proofs.Control.Value
import LdapWire.Proofs.Descent.Controls
import LdapWire.Proofs.Filter.Legible
import LdapWire.Proofs.Filter.Refusal
import LdapWire.Proofs.Forwarding
import LdapWire.Proofs.Oversight
import LdapWire.Proofs.Session.Collection
import LdapWire.Proofs.Session.Limits
import LdapWire.Proofs.Session.Rejection
import LdapWire.Proofs.Session.Relaxation
import LdapWire.Proofs.Session.Renewal
import LdapWire.Proofs.Session.Verdict
