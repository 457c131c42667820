import Optima.Registry
import Optima.Workspace.Race
import Optima.Proofs.Lifecycle.Waiting
import Optima.Proofs.Encoding.Faithful
import Optima.Proofs.Engine.Program
import Optima.Proofs.Solver.Values
import Optima.Proofs.Engine.Loaded
import Optima.Proofs.Engine.Ranging
import Optima.Proofs.Report.Sensitivity
import Optima.Proofs.Solver.Sensitivity
import Optima.Proofs.Engine.Exchange
import Optima.Proofs.Engine.Observers
import Optima.Proofs.Solver.Endings
import Optima.Proofs.Model.Coefficients
import Optima.Proofs.Model.Identity
import Optima.Proofs.Encoding.Limits
import Optima.Proofs.Encoding.Bounds
import Optima.Proofs.Engine.SettingsFile
import Optima.Proofs.Engine.Slices
import Optima.Proofs.Engine.Notes
import Optima.Proofs.Engine.Course
import Optima.Proofs.Engine.Incumbent
import Optima.Proofs.Engine.Protocol
import Optima.Proofs.Engine.Timing
import Optima.Proofs.Report.Binding
import Optima.Proofs.Report.Normal
import Optima.Proofs.Engine.Restriction
import Optima.Proofs.Engine.Independence
import Optima.Proofs.Model.Refusal
import Optima.Proofs.Model.WriteOrder
import Optima.Proofs.Encoding.Script
import Optima.Proofs.Model.Adding
import Optima.Proofs.Model.Assembled
import Optima.Proofs.Engine.SettingsApplied
import Optima.Proofs.Engine.Backed
import Optima.Proofs.Solver.Histories
import Optima.Proofs.Report.Details
