import EntityScript.Bytes.Lemmas
import EntityScript.Main
import EntityScript.Machine.Image
import EntityScript.Packed.Values
import EntityScript.Program.Assembly
import EntityScript.Proofs.Operations
import EntityScript.Proofs.Recording
import EntityScript.Proofs.Forgetting
import EntityScript.Proofs.Confinement
import EntityScript.Proofs.Dispatch
import EntityScript.Proofs.FailedSteps
import EntityScript.Proofs.CallFrames
import EntityScript.Proofs.Image
import EntityScript.Proofs.Routine
import EntityScript.Proofs.StackSafety
import EntityScript.Proofs.Subroutines
import EntityScript.Proofs.ChunkGrammar
import EntityScript.Proofs.OperationTable
import EntityScript.Proofs.ProgramImage
import EntityScript.Proofs.Counting
import EntityScript.Proofs.HostCalls
import EntityScript.Proofs.Restoring
import EntityScript.Proofs.Packing
import EntityScript.Proofs.Summaries
import EntityScript.Proofs.Rounds
import EntityScript.Proofs.Sleeping
import EntityScript.Proofs.InstructionFormat
import EntityScript.Proofs.Assembling
import EntityScript.Proofs.Accounting
import EntityScript.Proofs.StayingLoaded
import EntityScript.Proofs.Lifecycle
import EntityScript.Proofs.SavedForm
import EntityScript.Proofs.FixedBuffers
import EntityScript.Proofs.FaultReports
import EntityScript.Proofs.PlainText
import EntityScript.Proofs.ListingCoverage
import EntityScript.Proofs.KnownSlots
import EntityScript.Proofs.StaleSlots
import EntityScript.Proofs.StraightRuns
import EntityScript.Proofs.EntryLabels
import EntityScript.Proofs.OperationFaults
import EntityScript.Proofs.ListedOperands
import EntityScript.Proofs.FrameRegisters
import EntityScript.Proofs.UnseenChanges
import EntityScript.Proofs.Budgets
import EntityScript.Proofs.BoundedStack
import EntityScript.Proofs.ExactArithmetic
import EntityScript.Proofs.ShortestLayout
import EntityScript.Proofs.ReportSums
import EntityScript.Proofs.NativeBinding
import EntityScript.Proofs.SettingsVariables
import EntityScript.Proofs.StandaloneRuns
import EntityScript.Proofs.TextPool
