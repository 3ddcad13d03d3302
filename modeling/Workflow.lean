import Workflow.Script.Request
import Workflow.Proofs.TaskTree.Unwinding
import Workflow.Proofs.TaskTree.Earlier
import Workflow.Proofs.Nesting.Left
import Workflow.Proofs.Nesting.Right
import Workflow.Proofs.Nesting.Regrouped
import Workflow.Proofs.Nesting.LastValue
import Workflow.Proofs.Token.History
import Workflow.Proofs.Token.Decided
import Workflow.Proofs.Nesting.WrittenOut
import Workflow.Proofs.Direct.Performance
import Workflow.Proofs.Direct.Generator
import Workflow.Proofs.Direct.Settled
import Workflow.Proofs.Direct.Laws
import Workflow.Proofs.Direct.Evaluations
import Workflow.Proofs.Direct.Straight
import Workflow.Proofs.Builder.Translation
import Workflow.Proofs.Chronicle.Abreast
import Workflow.Proofs.TaskTree.Unrelated
import Workflow.Proofs.Direct.Chains
import Workflow.Proofs.Direct.ShortCircuit
import Workflow.Proofs.Direct.Splitting
import Workflow.Proofs.Direct.Threading
import Workflow.Proofs.Sequence.CallOrder
import Workflow.Proofs.Sequence.Product
import Workflow.Proofs.Sequence.Distribution
import Workflow.Proofs.Sequence.RoundTrip
import Workflow.Proofs.Direct.Primitives
import Workflow.Proofs.Nesting.Identity
