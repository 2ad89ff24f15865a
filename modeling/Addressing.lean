import Addressing.Assertion
import Addressing.Authority.Basic
import Addressing.Authority.Entry
import Addressing.Authority.Session
import Addressing.Digit
import Addressing.ErrorCode
import Addressing.Fault
import Addressing.Hex
import Addressing.Ip.Address
import Addressing.Ip.Group
import Addressing.Ip.Spelling
import Addressing.Ip.V4
import Addressing.Ip.V6
import Addressing.Ip.ZeroRun
import Addressing.MicroForm
import Addressing.Numeral
import Addressing.Outcome.Basic
import Addressing.Outcome.Session
import Addressing.Proofs.Assertion
import Addressing.Proofs.Authority.Entry
import Addressing.Proofs.Authority.IpText
import Addressing.Proofs.Authority.Session
import Addressing.Proofs.Authority.Text
import Addressing.Proofs.Hex
import Addressing.Proofs.Ip.Address
import Addressing.Proofs.Ip.Canonical
import Addressing.Proofs.Ip.Dotted
import Addressing.Proofs.Ip.Embedded
import Addressing.Proofs.Ip.Extent
import Addressing.Proofs.Ip.Grammar
import Addressing.Proofs.Ip.RoundTrip
import Addressing.Proofs.Ip.Spelling
import Addressing.Proofs.Ip.V4
import Addressing.Proofs.Ip.ZeroRun
import Addressing.Proofs.MicroForm
import Addressing.Proofs.Outcome.Errors
import Addressing.Proofs.Outcome.Pipeline
import Addressing.Proofs.Outcome.Session
import Addressing.Proofs.Pieces
import Addressing.Proofs.Report.Ledger
import Addressing.Proofs.Report.Message
import Addressing.Proofs.Report.Nesting
import Addressing.Proofs.Report.Stored
import Addressing.Report.Basic
import Addressing.Report.Session
import Addressing.Report.Stored
import Addressing.Session
import Addressing.Text.Basic
import Addressing.Text.Cut
