import ArithCircuit.Ast.Equality
import ArithCircuit.Ast.Stored
import ArithCircuit.Execution.Code
import ArithCircuit.Execution.Source
import ArithCircuit.Listing.Circuit
import ArithCircuit.Lowering.Node
import ArithCircuit.Proofs.Assertions
import ArithCircuit.Proofs.Constraints
import ArithCircuit.Proofs.Evaluation
import ArithCircuit.Proofs.FieldSemantics
import ArithCircuit.Proofs.Frames
import ArithCircuit.Proofs.FunctionBodies
import ArithCircuit.Proofs.Registrations
import ArithCircuit.Proofs.Runs
import ArithCircuit.Proofs.Underflow
import ArithCircuit.Proofs.Visits
import ArithCircuit.Proofs.Disciplines
import ArithCircuit.Proofs.ScopeDiscipline
import ArithCircuit.Proofs.Consistency
import ArithCircuit.Proofs.Headings
import ArithCircuit.Proofs.Cells
import ArithCircuit.Proofs.Events
import ArithCircuit.Proofs.References
import ArithCircuit.Proofs.Laws
import ArithCircuit.Proofs.Parts
import ArithCircuit.Proofs.SeparateUnits
import ArithCircuit.Proofs.Acceptance
import ArithCircuit.Proofs.Introductions
import ArithCircuit.Proofs.Faults
import ArithCircuit.Proofs.Accounts
import ArithCircuit.Proofs.Diagnostics
import ArithCircuit.Proofs.Spelling
import ArithCircuit.Proofs.Written
import ArithCircuit.Proofs.Records
import ArithCircuit.Proofs.WholeTrees
import ArithCircuit.Proofs.Readback
import ArithCircuit.Proofs.CircuitStorage
import ArithCircuit.Proofs.NodeStorage
import ArithCircuit.Proofs.StoredVariants
import ArithCircuit.Proofs.Literals
import ArithCircuit.Proofs.ListingTokens
import ArithCircuit.Proofs.ExpressionForms
import ArithCircuit.Proofs.Outlines
import ArithCircuit.Proofs.FaithfulListings
import ArithCircuit.Proofs.Relocations
import ArithCircuit.Proofs.LoopHeaders
import ArithCircuit.Proofs.Traces
import ArithCircuit.Proofs.OperandOrder
import ArithCircuit.Proofs.Repetitions
import ArithCircuit.Proofs.InPlaceUpdates
import ArithCircuit.Proofs.Expansions
import ArithCircuit.Proofs.Increments
import ArithCircuit.Proofs.ConstrainedStores
import ArithCircuit.Proofs.VisibleKinds
import ArithCircuit.Proofs.UnlistedCircuits
import ArithCircuit.Proofs.ShiftLimit
import ArithCircuit.Proofs.SingleLines
import ArithCircuit.Proofs.ListingLayout
import ArithCircuit.Proofs.Inclusions
import ArithCircuit.Proofs.LexicalScopes
import ArithCircuit.Proofs.CompleteValues
import ArithCircuit.Proofs.ScannedTokens
import ArithCircuit.Proofs.ObjectTexts
import ArithCircuit.Proofs.DecimalTexts
import ArithCircuit.Proofs.Decimals
