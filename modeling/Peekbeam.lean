import Peekbeam.Foundation.History
import Peekbeam.Foundation.KeyedFold
import Peekbeam.Foundation.SharedSlot
import Peekbeam.Foundation.FinMap
import Peekbeam.Foundation.Aliased
import Peekbeam.Foundation.Lines
import Peekbeam.Foundation.Text
import Peekbeam.Foundation.Json
import Peekbeam.Foundation.FixedPoint
import Peekbeam.Foundation.Floating
import Peekbeam.Common
import Peekbeam.FileTable
import Peekbeam.Utf8
import Peekbeam.Kernel.Run
import Peekbeam.Isolation
import Peekbeam.Drain.Syscalls
import Peekbeam.Drain.Net
import Peekbeam.Drain.Files
import Peekbeam.Threads
import Peekbeam.Latency
import Peekbeam.ElapsedTime
import Peekbeam.FileTrace
import Peekbeam.PathCapture
import Peekbeam.LostRecords
import Peekbeam.Processes
import Peekbeam.OpenRows
import Peekbeam.SocketFirings
import Peekbeam.SocketIdentity
import Peekbeam.SocketScope
import Peekbeam.Connections
import Peekbeam.MemStats
import Peekbeam.FaultCounters
import Peekbeam.MemoryTexts
import Peekbeam.Listings
import Peekbeam.ProcessNames
import Peekbeam.Containers
import Peekbeam.Summary
import Peekbeam.PlainText
import Peekbeam.ByteCounts
import Peekbeam.Overflow
import Peekbeam.Headless
import Peekbeam.Live
import Peekbeam.Snapshots
import Peekbeam.TargetScope
import Peekbeam.KernelMemory
import Peekbeam.Foundation.IpText
import Peekbeam.NetTable
import Peekbeam.SummaryBuild
import Peekbeam.PollLoops
import Peekbeam.Capacity
import Peekbeam.Foundation.Throttle
import Peekbeam.HeadlessRuns
import Peekbeam.Foundation.JsonReader
import Peekbeam.JsonStream
import Peekbeam.SyscallTotals
import Peekbeam.Foundation.Slots
import Peekbeam.MapCapacity
import Peekbeam.Tui
import Peekbeam.TuiRuns
import Peekbeam.Foundation.Script
import Peekbeam.Targets
import Peekbeam.Startup
import Peekbeam.EndToEnd
