import Cs300Projects.Lib.BitField
import Cs300Projects.Lib.Loop
import Cs300Projects.Lib.Bytes
import Cs300Projects.Lib.Column
import Cs300Projects.Lib.ScanAlloc
import Cs300Projects.Lib.Heap
import Cs300Projects.Lib.Numeral
import Cs300Projects.Lib.Tape
import Cs300Projects.Lib.Stack
import Cs300Projects.Lib.RoundRobin
import Cs300Projects.Lib.Bisect
import Cs300Projects.Lib.StableSort
import Cs300Projects.Lib.Overwrite
import Cs300Projects.Lib.Session
import Cs300Projects.Lib.Lines
import Cs300Projects.Lib.Descent
import Cs300Projects.Lib.Sectors
import Cs300Projects.Lib.Locking
import Cs300Projects.WeensyOS.Paging
import Cs300Projects.WeensyOS.PageTable
import Cs300Projects.WeensyOS.Vmiter
import Cs300Projects.WeensyOS.VmiterWalk
import Cs300Projects.WeensyOS.Mmu
import Cs300Projects.WeensyOS.VmiterRange
import Cs300Projects.WeensyOS.VmiterMap
import Cs300Projects.WeensyOS.VmiterRun
import Cs300Projects.WeensyOS.VmiterTryMap
import Cs300Projects.WeensyOS.VmiterUnmap
import Cs300Projects.WeensyOS.VmiterFail
import Cs300Projects.WeensyOS.VmiterHole
import Cs300Projects.WeensyOS.Ptiter
import Cs300Projects.WeensyOS.PtiterVisits
import Cs300Projects.WeensyOS.PtiterTeardown
import Cs300Projects.WeensyOS.Kernel
import Cs300Projects.WeensyOS.KernelPages
import Cs300Projects.WeensyOS.KernelPagetable
import Cs300Projects.WeensyOS.KernelTranslation
import Cs300Projects.WeensyOS.KernelMemory
import Cs300Projects.WeensyOS.Guard
import Cs300Projects.WeensyOS.Regstate
import Cs300Projects.WeensyOS.Processes
import Cs300Projects.WeensyOS.ProcessTable
import Cs300Projects.WeensyOS.ProcessRuns
import Cs300Projects.WeensyOS.ProcessStart
import Cs300Projects.WeensyOS.ProgramSegments
import Cs300Projects.WeensyOS.ProgramLoader
import Cs300Projects.WeensyOS.Schedule
import Cs300Projects.WeensyOS.KernelEntries
import Cs300Projects.WeensyOS.Allocator
import Cs300Projects.WeensyOS.AllocatorRuns
import Cs300Projects.WeensyOS.AllocatorStart
import Cs300Projects.WeensyOS.Memusage
import Cs300Projects.WeensyOS.MemusageRefresh
import Cs300Projects.WeensyOS.Elf
import Cs300Projects.WeensyOS.Boot
import Cs300Projects.WeensyOS.BootLoad
import Cs300Projects.WeensyOS.ElfValidate
import Cs300Projects.WeensyOS.ElfInfo
import Cs300Projects.WeensyOS.LookupSymbol
import Cs300Projects.WeensyOS.ElfSort
import Cs300Projects.WeensyOS.ElfLayout
import Cs300Projects.WeensyOS.ElfFrame
import Cs300Projects.WeensyOS.ElfLookup
import Cs300Projects.WeensyOS.ElfRewrite
import Cs300Projects.WeensyOS.ElfShift
import Cs300Projects.WeensyOS.ElfReferences
import Cs300Projects.WeensyOS.ElfFill
import Cs300Projects.WeensyOS.ElfPrograms
import Cs300Projects.WeensyOS.ElfSteps
import Cs300Projects.WeensyOS.ElfAlign
import Cs300Projects.WeensyOS.ElfEmbed
import Cs300Projects.WeensyOS.ElfIdempotent
import Cs300Projects.WeensyOS.ElfFaithful
import Cs300Projects.WeensyOS.ElfOutput
import Cs300Projects.WeensyOS.Symtab
import Cs300Projects.WeensyOS.Backtrace
import Cs300Projects.WeensyOS.Strtoul
import Cs300Projects.WeensyOS.StrtoulGrammar
import Cs300Projects.WeensyOS.Mkbootdisk
import Cs300Projects.WeensyOS.DiskBoot
import Cs300Projects.WeensyOS.KernelSymbols
import Cs300Projects.WeensyOS.FindPartition
import Cs300Projects.WeensyOS.Rand
import Cs300Projects.WeensyOS.Printf
import Cs300Projects.WeensyOS.PrintfStrtol
import Cs300Projects.WeensyOS.PrintfFormat
import Cs300Projects.WeensyOS.PrintfNumber
import Cs300Projects.WeensyOS.PrintfChars
import Cs300Projects.WeensyOS.PrintfBuffer
import Cs300Projects.WeensyOS.Panic
import Cs300Projects.WeensyOS.Memory
import Cs300Projects.WeensyOS.Console
import Cs300Projects.WeensyOS.Descriptors
import Cs300Projects.WeensyOS.Keyboard
import Cs300Projects.WeensyOS.Reboot
import Cs300Projects.WeensyOS.Pci
import Cs300Projects.WeensyOS.PciScan
import Cs300Projects.Vunmo.Handlers
import Cs300Projects.Vunmo.Messages
import Cs300Projects.Vunmo.Ledger
import Cs300Projects.Vunmo.Connections
import Cs300Projects.Vunmo.Accept
import Cs300Projects.Vunmo.AcceptDescriptors
import Cs300Projects.Vunmo.Descriptors
import Cs300Projects.Vunmo.DescriptorSteps
import Cs300Projects.Vunmo.DescriptorRuns
import Cs300Projects.Vunmo.Client
import Cs300Projects.Vunmo.FetchRequests
import Cs300Projects.Vunmo.ServerLocks
import Cs300Projects.Vunmo.Command
import Cs300Projects.Dmalloc.BaseAlloc
import Cs300Projects.Dmalloc.BaseAllocBlocks
import Cs300Projects.Dmalloc.BaseAllocModes
import Cs300Projects.Fileio.Calls
import Cs300Projects.Fileio.Streams
import Cs300Projects.Fileio.Interchange
import Cs300Projects.Fileio.ReverseCat
import Cs300Projects.Fileio.StrideCat
import Cs300Projects.Fileio.TestPrograms
import Cs300Projects.Dmalloc.CheckPattern
import Cs300Projects.WeensyOS.Msb
import Cs300Projects.DistributedStore.Common
import Cs300Projects.DistributedStore.TestQuery
