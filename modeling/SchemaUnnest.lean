import SchemaUnnest.Main
import SchemaUnnest.Proofs.Ending
import SchemaUnnest.Proofs.FixedPoint
import SchemaUnnest.Proofs.LastWrite
import SchemaUnnest.Proofs.Report
import SchemaUnnest.Proofs.Restoring
import SchemaUnnest.Proofs.Reordering
import SchemaUnnest.Proofs.OrderFree
import SchemaUnnest.Proofs.Batches
import SchemaUnnest.Proofs.Digits
import SchemaUnnest.Proofs.Rounding
import SchemaUnnest.Proofs.Numbers
import SchemaUnnest.Proofs.Rendering
import SchemaUnnest.Proofs.Nesting
import SchemaUnnest.Proofs.Reloading
import SchemaUnnest.Proofs.Chains
import SchemaUnnest.Proofs.Walks
import SchemaUnnest.Proofs.Outputs
import SchemaUnnest.Proofs.Independence
import SchemaUnnest.Proofs.References
import SchemaUnnest.Proofs.Metering
import SchemaUnnest.Proofs.Writing
import SchemaUnnest.Proofs.Warnings
import SchemaUnnest.Proofs.Positions
import SchemaUnnest.Proofs.Frame
import SchemaUnnest.Proofs.Scans
import SchemaUnnest.Proofs.LineBreaks
import SchemaUnnest.Proofs.Loading
import SchemaUnnest.Proofs.Verdicts
import SchemaUnnest.Proofs.Sharing
import SchemaUnnest.Proofs.Refusals
import SchemaUnnest.Proofs.Pointers
import SchemaUnnest.Proofs.Sessions
import SchemaUnnest.Proofs.Blocks
import SchemaUnnest.Proofs.History
import SchemaUnnest.Proofs.Telling
import SchemaUnnest.Proofs.Agreement
import SchemaUnnest.Proofs.LongestPath
import SchemaUnnest.Proofs.InPlace
