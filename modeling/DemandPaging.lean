import DemandPaging.Machine.Calls
import DemandPaging.Machine.Processes
import DemandPaging.Machine.Program
import DemandPaging.Machine.Run
import DemandPaging.Machine.UserAccess
import DemandPaging.Proofs.FaultRetry
import DemandPaging.Proofs.FileCursors
import DemandPaging.Proofs.Fork
import DemandPaging.Proofs.FrameLoans
import DemandPaging.Proofs.OpenHandles
import DemandPaging.Proofs.PageMap
import DemandPaging.Proofs.PageStore
import DemandPaging.Proofs.PrivateMemory
import DemandPaging.Proofs.Residue
import DemandPaging.Proofs.SharedFiles
import DemandPaging.Proofs.SlotOwnership
import DemandPaging.Proofs.Lifetime
import DemandPaging.Proofs.StackHoles
import DemandPaging.Proofs.Claims
import DemandPaging.Proofs.UserPages
import DemandPaging.Proofs.Claimable
import DemandPaging.Proofs.PageLife
import DemandPaging.Proofs.Writability
import DemandPaging.Proofs.Exit
import DemandPaging.Proofs.FileSizes
import DemandPaging.Proofs.WritablePages
import DemandPaging.Proofs.FileChanges
import DemandPaging.Proofs.Eviction
import DemandPaging.Proofs.CleanFailures
import DemandPaging.Proofs.ClaimOutcome
import DemandPaging.Proofs.StackGrowth
import DemandPaging.Proofs.SystemCalls
import DemandPaging.Proofs.SecondChance
import DemandPaging.Proofs.RepeatedEviction
import DemandPaging.Proofs.Unmapping
import DemandPaging.Proofs.MappingLayout
import DemandPaging.Proofs.ByteAccess
import DemandPaging.Proofs.WordRange
import DemandPaging.Proofs.SegmentContents
import DemandPaging.Proofs.StackLimit
import DemandPaging.Proofs.NullPage
import DemandPaging.Proofs.ProtectedPages
import DemandPaging.Proofs.AccessCheck
import DemandPaging.Proofs.LoanLedger
import DemandPaging.Proofs.TouchedPages
