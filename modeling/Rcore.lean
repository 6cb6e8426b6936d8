import Rcore.Basic
import Rcore.Task.Manager
import Rcore.Banker.Safety
import Rcore.Banker.Pass
import Rcore.Sync.Primitives
import Rcore.Sync.Ledger
import Rcore.Sync.Syscalls
import Rcore.Sync.System
import Rcore.Sync.Columns
import Rcore.Sync.Agreement
import Rcore.Sync.Underflow
import Rcore.Sync.Slots
import Rcore.Banker.Updates
import Rcore.Sync.Avoidance
import Rcore.Sync.Deadlock
import Rcore.Task.Processor
import Rcore.Task.Priority
import Rcore.Task.Children
import Rcore.Task.Wraparound
import Rcore.Fs.File
import Rcore.Fs.FdTable
