import TriggerEngine.Fault.Making
import TriggerEngine.Index
import TriggerEngine.Listing
import TriggerEngine.Main
import TriggerEngine.Manager.Activation
import TriggerEngine.Proofs.Manager.Gating
import TriggerEngine.Proofs.Run.Ending
import TriggerEngine.Proofs.Run.Interrupt
import TriggerEngine.Proofs.Syntax.Concatenation
import TriggerEngine.Proofs.Syntax.Offence
import TriggerEngine.Proofs.Syntax.Agreement
import TriggerEngine.Proofs.Run.Blame
import TriggerEngine.Proofs.Run.Cutoff
import TriggerEngine.Proofs.Manager.Shielding
import TriggerEngine.Proofs.Run.Course
import TriggerEngine.Proofs.Run.Lifecycle
import TriggerEngine.Proofs.Syntax.Coverage
import TriggerEngine.Proofs.Run.Coverage
import TriggerEngine.Proofs.Run.Dependence
import TriggerEngine.Proofs.Manager.Shutdown
import TriggerEngine.Proofs.Value.Renaming
import TriggerEngine.Proofs.Manager.Parallel
import TriggerEngine.Proofs.Manager.Isolation
import TriggerEngine.Proofs.Manager.Visibility
import TriggerEngine.Proofs.Token.Spacing
import TriggerEngine.Proofs.Syntax.RoundTrip
import TriggerEngine.Proofs.Run.Iteration
import TriggerEngine.Proofs.Run.Branching
import TriggerEngine.Proofs.Syntax.Calls
import TriggerEngine.Proofs.Syntax.Mentions
import TriggerEngine.Proofs.Run.Equality
import TriggerEngine.Proofs.Run.Purity
import TriggerEngine.Proofs.Checking
import TriggerEngine.Proofs.Host.Registration
import TriggerEngine.Proofs.Token.Quoting
import TriggerEngine.Proofs.Syntax.Lookahead
