import MapAudit.Main
import MapAudit.Proofs.SingleStatement
import MapAudit.Proofs.Traversal
import MapAudit.Run.Rehearsal
import MapAudit.Run.Runner
import MapAudit.Proofs.UniqueReading
import MapAudit.Proofs.Availability
import MapAudit.Proofs.Effect
import MapAudit.Proofs.Cleanup
import MapAudit.Proofs.Selection
import MapAudit.Proofs.Exchange
import MapAudit.Proofs.Teardown
import MapAudit.Proofs.Isolation
import MapAudit.Proofs.Inspection
import MapAudit.Proofs.Rescan
import MapAudit.Proofs.Grammar
import MapAudit.Proofs.Rearrangement
import MapAudit.Proofs.Reading
import MapAudit.Proofs.Stamping
import MapAudit.Proofs.Journalling
import MapAudit.Proofs.Opening
import MapAudit.Proofs.Inheritance
import MapAudit.Proofs.Refusal
import MapAudit.Proofs.Folding
import MapAudit.Proofs.Layout
import MapAudit.Proofs.Comparison
import MapAudit.Proofs.Delivery
import MapAudit.Proofs.Projection
import MapAudit.Proofs.Legibility
import MapAudit.Proofs.Testimony
import MapAudit.Proofs.Tolerance
import MapAudit.Proofs.Blame
import MapAudit.Proofs.Quotation
import MapAudit.Proofs.Scoping
import MapAudit.Proofs.Nesting
import MapAudit.Proofs.Numeral
