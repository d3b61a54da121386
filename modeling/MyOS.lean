import MyOS.Lib.Bytes
import MyOS.Lib.FixedArray
import MyOS.Lib.Bitmap
import MyOS.Lib.Run
import MyOS.Lib.Recency
import MyOS.Lib.Forest
import MyOS.Lib.Memory
import MyOS.Lib.Words
import MyOS.Lib.SafeOrder
import MyOS.Lib.Decimal
import MyOS.Lib.Ring
import MyOS.Lib.Walk
import MyOS.Lib.Lines
import MyOS.Lib.Ia32
import MyOS.Console.WriteDec
import MyOS.Console.Console
import MyOS.Console.Window
import MyOS.Timer.Timer
import MyOS.Drivers.Ata
import MyOS.Drivers.Keyboard
import MyOS.Fs.Layout
import MyOS.Fs.Inodes
import MyOS.Fs.Files
import MyOS.Fs.BlockLaws
import MyOS.Fs.RewriteLaws
import MyOS.Fs.Effects
import MyOS.Fs.WriteLaws
import MyOS.Fs.InodeLaws
import MyOS.Fs.ReadLaws
import MyOS.Fs.EntryLaws
import MyOS.Fs.DirectoryLaws
import MyOS.Fs.Moves
import MyOS.Fs.Runs
import MyOS.Fs.CreateLaws
import MyOS.Fs.RemoveLaws
import MyOS.Fs.FileLaws
import MyOS.Fs.Calls
import MyOS.Fs.Volume
import MyOS.Fs.Mount
import MyOS.Fs.Crash
import MyOS.Fs.Atomic
import MyOS.Fs.Listings
import MyOS.Fs.UnlinkLaws
import MyOS.Fs.Tree
import MyOS.Fs.Store
import MyOS.Fs.Flat
import MyOS.Fs.Refinement
import MyOS.Fs.Space
import MyOS.Fs.Faults
import MyOS.Fs.Bounds
import MyOS.Fs.Growth
import MyOS.Fs.Paths
import MyOS.Fs.Shifts
import MyOS.Fs.Sessions
import MyOS.Fs.Links
import MyOS.Fs.SharedDisk
import MyOS.Mm.Pmm
import MyOS.Mm.PmmInit
import MyOS.Mm.MemoryMap
import MyOS.Mm.MmapWalk
import MyOS.Mm.Vmm
import MyOS.Mm.Spaces
import MyOS.Mm.SpaceLaws
import MyOS.Mm.TableLaws
import MyOS.Mm.VmmLaws
import MyOS.Mm.VmmInit
import MyOS.Mm.SpaceLife
import MyOS.Mm.Translation
import MyOS.Mm.DemoSpace
import MyOS.Mm.Pager
import MyOS.Mm.PagerState
import MyOS.Mm.PageLife
import MyOS.Mm.PagerVictims
import MyOS.Mm.PagerFrames
import MyOS.Mm.PagerCalls
import MyOS.Mm.Mmu
import MyOS.Mm.MmuLaws
import MyOS.Mm.PagerAccess
import MyOS.Mm.PagerRuns
import MyOS.Mm.PagerPins
import MyOS.Mm.ClockExact
import MyOS.Mm.LruExact
import MyOS.Mm.PagerContents
import MyOS.Mm.Transparency
import MyOS.Mm.PagerAgain
import MyOS.Mm.Estates
import MyOS.Mm.FirstSpace
import MyOS.Mm.SpaceUndo
import MyOS.Mm.PagerUndo
import MyOS.Mm.SwapArea
import MyOS.Mm.SwapPlaces
import MyOS.Kernel.Banker
import MyOS.Kernel.BankerLaws
import MyOS.Kernel.BankerExact
import MyOS.Kernel.Memdemo
import MyOS.Kernel.MemdemoLaws
import MyOS.Kernel.Process
import MyOS.Kernel.Usermode
import MyOS.Kernel.Programs
import MyOS.Kernel.Scripts
import MyOS.Kernel.ScriptLaws
import MyOS.Kernel.ScriptRuns
import MyOS.Kernel.Accounts
import MyOS.Kernel.ProcessTable
import MyOS.Kernel.MachineLaws
import MyOS.Kernel.TableRuns
import MyOS.Kernel.MemdemoRuns
import MyOS.Kernel.MemdemoBooks
import MyOS.Kernel.AccountRuns
import MyOS.Kernel.Charges
import MyOS.Kernel.System
import MyOS.Kernel.Memories
import MyOS.Kernel.Tenancy
import MyOS.Kernel.TenancyLaws
import MyOS.Kernel.Privacy
import MyOS.Kernel.SharedFiles
import MyOS.Kernel.Boot
import MyOS.Kernel.Scheduler
import MyOS.Kernel.SchedulerExact
import MyOS.Kernel.Contexts
import MyOS.Kernel.SpawnFailures
import MyOS.Kernel.Exits
import MyOS.Shell.Arguments
import MyOS.Shell.Commands
import MyOS.Shell.Shell
import MyOS.Shell.Names
import MyOS.Shell.BigFile
