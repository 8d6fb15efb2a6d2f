import BomTable.Main
import BomTable.Property.Value
import BomTable.Proofs.Publish.Copying
import BomTable.Proofs.Resolution.Caching
import BomTable.Proofs.Publish.Importing
import BomTable.Proofs.Resolution.Hierarchy
import BomTable.Proofs.Property.Reference
import BomTable.Proofs.Property.Expansion
import BomTable.Proofs.Property.Layering
import BomTable.Proofs.Resolution.Scope
import BomTable.Proofs.Resolution.Precedence
import BomTable.Proofs.Resolution.Builtins
import BomTable.Proofs.Resolution.Failing
import BomTable.Proofs.Property.Blank
import BomTable.Proofs.Resolution.Calls
import BomTable.Proofs.Publish.Failures
import BomTable.Publish.Editing
import BomTable.Proofs.Xml.Changes
import BomTable.Proofs.Publish.Editing
import BomTable.Proofs.Run.Blind
import BomTable.Proofs.Ledger.Blind
import BomTable.Proofs.Ledger.Blank
import BomTable.Proofs.Ledger.Irrelevant
import BomTable.Proofs.Ledger.Order
import BomTable.Proofs.Ledger.History
import BomTable.Proofs.Ledger.Recording
import BomTable.Proofs.Resolution.Tables
import BomTable.Proofs.Publish.Altered
import BomTable.Proofs.Publish.Classified
import BomTable.Proofs.Publish.Extended
import BomTable.Proofs.Publish.Rereading
import BomTable.Proofs.Resolution.Reached
import BomTable.Proofs.Xml.Redressed
import BomTable.Proofs.Pom.Redressed
import BomTable.Proofs.Pom.Printing
import BomTable.Proofs.Repository.Splitting
import BomTable.Proofs.Repository.Containment
import BomTable.Proofs.Repository.Places
import BomTable.Proofs.CommandLine.Reported
import BomTable.Proofs.Pom.Keeping
