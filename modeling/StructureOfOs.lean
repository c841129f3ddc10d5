import StructureOfOs.BankState
import StructureOfOs.Accounts
import StructureOfOs.Atm
import StructureOfOs.Bank
import StructureOfOs.AccountBook
import StructureOfOs.BankInvariant
import StructureOfOs.BankReads
import StructureOfOs.BankMoves
import StructureOfOs.BankWrites
import StructureOfOs.BankSound
import StructureOfOs.BankOutline
import StructureOfOs.Reports
import StructureOfOs.AtmFollows
import StructureOfOs.BankFollows
import StructureOfOs.SerialHistory
import StructureOfOs.BankSafety
import StructureOfOs.Passwords
import StructureOfOs.ClosedAccounts
import StructureOfOs.Independence
import StructureOfOs.ReadersWriters
import StructureOfOs.CircularWait
import StructureOfOs.WriterGate
import StructureOfOs.Loops
import StructureOfOs.Server
import StructureOfOs.ServerPasses
import StructureOfOs.Blocks
import StructureOfOs.UploadIntegrity
import StructureOfOs.CalmSessions
import StructureOfOs.UploadCompleteness
import StructureOfOs.LateBlocks
import StructureOfOs.ForeignDatagrams
import StructureOfOs.SessionBound
import StructureOfOs.FailedUploads
import StructureOfOs.FileCalls
import StructureOfOs.WriteRequests
import StructureOfOs.Jobs
import StructureOfOs.Smash
import StructureOfOs.JobIds
import StructureOfOs.TrackedPids
import StructureOfOs.WriteLengths
import StructureOfOs.ResendLimit
import StructureOfOs.PacketKinds
import StructureOfOs.FailedCommands
import StructureOfOs.Diff
import StructureOfOs.CommandLines
import StructureOfOs.LoneOperations
import StructureOfOs.FeePasses
import StructureOfOs.ShellLedger
import StructureOfOs.ShellFollows
import StructureOfOs.Foreground
import StructureOfOs.ForgottenJobs
import StructureOfOs.ServerArguments
import StructureOfOs.CStrings
import StructureOfOs.ShellLines
import StructureOfOs.InputLines
import StructureOfOs.TypedArguments
import StructureOfOs.JobCommands
import StructureOfOs.Directories
import StructureOfOs.QuitKill
import StructureOfOs.CheckedPrograms
import StructureOfOs.NodeLists
import StructureOfOs.JobIterators
import StructureOfOs.ValidIterators
import StructureOfOs.MoneyRange
import StructureOfOs.Frames
import StructureOfOs.RequestLoop
import StructureOfOs.WriteOnce
import StructureOfOs.StoredUploads
import StructureOfOs.Conversations
import StructureOfOs.Debts
import StructureOfOs.Endings
import StructureOfOs.Finishing
import StructureOfOs.Extensions
import StructureOfOs.BankProgram
import StructureOfOs.Teardown
import StructureOfOs.Returning
import StructureOfOs.ShellProgram
import StructureOfOs.Contracts
import StructureOfOs.OwnChildren
import StructureOfOs.ShellRuns
import StructureOfOs.Buffered
import StructureOfOs.CutOff
import StructureOfOs.MoneyBounds
