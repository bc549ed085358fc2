import Chart.Config.Form
import Chart.Handle.Form
import Chart.Kind.Form
import Chart.Machine.Configuration
import Chart.Machine.Construction
import Chart.Machine.Summary
import Chart.Run.Operations
import Chart.Script.Choice
import Chart.Script.Instruction
import Chart.Proofs.Forest.Basic
import Chart.Proofs.Forest.SameChart
import Chart.Proofs.Run.Ends
import Chart.Proofs.Forest.Building
import Chart.Proofs.Forest.Growing
import Chart.Proofs.Forest.Occupancy
import Chart.Proofs.Run.Activating
import Chart.Proofs.Run.OfferedOperations
import Chart.Proofs.Session.Configuration
import Chart.Proofs.Session.Recalling
import Chart.Proofs.Session.Siblings
import Chart.Proofs.Session.Joins
import Chart.Proofs.Session.Commuting
import Chart.Proofs.Session.Progress
import Chart.Proofs.Session.PendingFrames
import Chart.Proofs.Session.Finishing
import Chart.Proofs.Session.RootEntries
import Chart.Proofs.Session.Structure
import Chart.Proofs.Session.Timing
import Chart.Proofs.Session.Refusing
import Chart.Proofs.Session.Termination
import Chart.Proofs.Session.Restarting
import Chart.Proofs.Session.Driving
import Chart.Proofs.Session.ExitOrder
import Chart.Proofs.Session.FailingTriggers
import Chart.Proofs.Session.Choosing
import Chart.Proofs.Session.FollowingPlans
import Chart.Proofs.Session.Resolving
import Chart.Proofs.Session.InstallingHistories
import Chart.Proofs.Session.Visiting
import Chart.Proofs.Session.Remembering
import Chart.Proofs.Timer.Folding
import Chart.Proofs.Config.Rereading
import Chart.Proofs.Session.Reporting
import Chart.Proofs.Session.Logging
