import DurableWorkflow.Client
import DurableWorkflow.Program.Document
import DurableWorkflow.Proofs.ReplayBlind
import DurableWorkflow.Rehearsal
import DurableWorkflow.Simulation.Basic
import DurableWorkflow.Proofs.Replay
import DurableWorkflow.Proofs.Accounts
import DurableWorkflow.Proofs.ChildReports
import DurableWorkflow.Proofs.Deliveries
import DurableWorkflow.Proofs.Fidelity
import DurableWorkflow.Proofs.NoDivergence
import DurableWorkflow.Proofs.Chronicle
import DurableWorkflow.Proofs.NoLostWakeups
import DurableWorkflow.Proofs.AwaitedChildren
import DurableWorkflow.Proofs.Resolution
import DurableWorkflow.Proofs.CancelledParents
import DurableWorkflow.Proofs.Agreement
import DurableWorkflow.Proofs.Interchange
import DurableWorkflow.Proofs.Numbering
import DurableWorkflow.Proofs.ChildNames
import DurableWorkflow.Proofs.LogLines
import DurableWorkflow.Proofs.StoredForms
import DurableWorkflow.Proofs.FirstDivergence
import DurableWorkflow.Proofs.SingleUse
import DurableWorkflow.Proofs.Isolation
import DurableWorkflow.Proofs.Settlements
import DurableWorkflow.Proofs.BlockOrder
import DurableWorkflow.Proofs.Returns
import DurableWorkflow.Proofs.Payloads
import DurableWorkflow.Proofs.SchedulerStates
import DurableWorkflow.Proofs.Waiters
import DurableWorkflow.Proofs.Registration
import DurableWorkflow.Proofs.CommandRecords
