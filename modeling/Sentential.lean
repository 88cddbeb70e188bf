import Sentential.Report.Run
import Sentential.Main
import Sentential.Proofs.OnePass
import Sentential.Proofs.Limits
import Sentential.Proofs.Words
import Sentential.Proofs.Recursion
import Sentential.Proofs.Munch
import Sentential.Proofs.Backends
import Sentential.Proofs.Order
import Sentential.Proofs.Variables
import Sentential.Proofs.Rows
import Sentential.Proofs.Equivalence
import Sentential.Proofs.Batches
import Sentential.Proofs.Widening
import Sentential.Proofs.Sameness
import Sentential.Proofs.Memory
import Sentential.Proofs.Printing
import Sentential.Proofs.Parentheses
import Sentential.Proofs.Respelling
import Sentential.Proofs.Marking
import Sentential.Proofs.Spacing
import Sentential.Proofs.Composition
import Sentential.Proofs.Refusals
import Sentential.Proofs.Stack
import Sentential.Proofs.Delivery
import Sentential.Proofs.Columns
import Sentential.Proofs.Alignment
import Sentential.Proofs.Lines
import Sentential.Proofs.Typesetting
import Sentential.Proofs.Arrays
import Sentential.Proofs.Records
import Sentential.Proofs.Calls
