import UefiBoot.Lib.Run
import UefiBoot.Lib.Select
import UefiBoot.Lib.Align
import UefiBoot.Lib.Bitmap
import UefiBoot.Lib.Bytes
import UefiBoot.Lib.ByteRange
import UefiBoot.Lib.Linked
import UefiBoot.Lib.Traced
import UefiBoot.Lib.Ledger
import UefiBoot.Lib.Ring
import UefiBoot.Lib.Issue
import UefiBoot.Lib.Serial
import UefiBoot.Lib.Accounts
import UefiBoot.Lib.OnesComplement
import UefiBoot.Lib.XorLinear
import UefiBoot.Memory.Layout
import UefiBoot.Memory.Heap
import UefiBoot.Memory.Pmm
import UefiBoot.Memory.Paging
import UefiBoot.Memory.Counters
import UefiBoot.Memory.FirstFit
import UefiBoot.Memory.Frames
import UefiBoot.Memory.InitMap
import UefiBoot.Memory.AlignedFit
import UefiBoot.Memory.FrameSets
import UefiBoot.Memory.HeapBlocks
import UefiBoot.Memory.CopyOnWrite
import UefiBoot.Memory.CowRuns
import UefiBoot.Memory.PageCache
import UefiBoot.Memory.CacheRuns
import UefiBoot.Memory.Swap
import UefiBoot.Memory.SwapRuns
import UefiBoot.Memory.Slab
import UefiBoot.Memory.SlabRuns
import UefiBoot.Memory.SlabFrees
import UefiBoot.Memory.Mappings
import UefiBoot.Memory.MappingPages
import UefiBoot.Memory.Rollback
import UefiBoot.Memory.MappingRuns
import UefiBoot.Memory.MappingFrames
import UefiBoot.Memory.Ownership
import UefiBoot.Memory.SharedMemory
import UefiBoot.Memory.SharedRuns
import UefiBoot.Scheduler.State
import UefiBoot.Scheduler.Process
import UefiBoot.Scheduler.Sync
import UefiBoot.Scheduler.Wake
import UefiBoot.Scheduler.Events
import UefiBoot.Scheduler.Machine
import UefiBoot.Scheduler.Frame
import UefiBoot.Scheduler.EventTable
import UefiBoot.Scheduler.Epoll
import UefiBoot.Scheduler.EventFd
import UefiBoot.Scheduler.Timers
import UefiBoot.Scheduler.Ipc
import UefiBoot.Scheduler.Yield
import UefiBoot.Scheduler.Effect
import UefiBoot.Scheduler.Slot
import UefiBoot.Scheduler.Wf
import UefiBoot.Scheduler.Mutex
import UefiBoot.Scheduler.Sleep
import UefiBoot.Scheduler.Owner
import UefiBoot.Scheduler.Futex
import UefiBoot.Scheduler.Blocking
import UefiBoot.Scheduler.Exit
import UefiBoot.Scheduler.ProcessTable
import UefiBoot.Scheduler.Tables
import UefiBoot.Scheduler.RoundRobin
import UefiBoot.Scheduler.Current
import UefiBoot.Scheduler.Join
import UefiBoot.Scheduler.Stacks
import UefiBoot.Scheduler.Exec
import UefiBoot.Cpu.Interrupt
import UefiBoot.Cpu.Acpi
import UefiBoot.Lib.Walk
import UefiBoot.Cpu.Madt
import UefiBoot.Lib.BitFields
import UefiBoot.Cpu.DescriptorTables
import UefiBoot.User.Elf
import UefiBoot.User.State
import UefiBoot.User.Files
import UefiBoot.Lib.Fields
import UefiBoot.User.AppElf
import UefiBoot.User.Acceptance
import UefiBoot.User.Process
import UefiBoot.User.System
import UefiBoot.User.Frame
import UefiBoot.User.Descriptors
import UefiBoot.User.Pipe
import UefiBoot.User.Signals
import UefiBoot.User.Records
import UefiBoot.User.Launch
import UefiBoot.User.Recycle
import UefiBoot.User.Lifecycle
import UefiBoot.User.Applications
import UefiBoot.Lib.CString
import UefiBoot.Text.Strings
import UefiBoot.User.Sdk
import UefiBoot.Lib.Dictionary
import UefiBoot.User.Environment
import UefiBoot.Lib.Components
import UefiBoot.Fs.Mounts
import UefiBoot.Lib.AppendTable
import UefiBoot.Fs.Nodes
import UefiBoot.Fs.Probes
import UefiBoot.Boot.ElfLoader
import UefiBoot.Boot.Writes
import UefiBoot.Boot.Segments
import UefiBoot.Boot.HandOver
import UefiBoot.Boot.LoadSuccess
import UefiBoot.Boot.Console
import UefiBoot.Net.Checksum
import UefiBoot.Security.Random
import UefiBoot.Security.Access
import UefiBoot.Lib.Stacking
import UefiBoot.Lib.Custody
import UefiBoot.Gui.EventQueue
import UefiBoot.Gui.State
import UefiBoot.Gui.NativeApps
import UefiBoot.Gui.Terminal
import UefiBoot.Gui.Windows
import UefiBoot.Gui.Launch
import UefiBoot.Gui.Dispatch
import UefiBoot.Gui.Works
import UefiBoot.Gui.Focus
import UefiBoot.Gui.Geometry
import UefiBoot.Gui.Dragging
import UefiBoot.Gui.AppView
import UefiBoot.Gui.Lifecycle
import UefiBoot.Gui.Orphans
import UefiBoot.Drivers.Mouse
import UefiBoot.Gui.Pump
import UefiBoot.Drivers.Pointing
import UefiBoot.Drivers.GpuPool
import UefiBoot.Gui.Buttons
import UefiBoot.Gui.Cursor
import UefiBoot.Lib.SlotTable
import UefiBoot.Lib.Simulation
import UefiBoot.Lib.Zipper
import UefiBoot.Gui.FileTable
import UefiBoot.Gui.History
import UefiBoot.Gui.Editor
import UefiBoot.Gui.Bars
import UefiBoot.Lib.Stores
import UefiBoot.Gui.Canvas
import UefiBoot.Gui.Clipping
import UefiBoot.Gui.Overlay
import UefiBoot.Gui.SelfTests
import UefiBoot.Gui.Placements
import UefiBoot.Gui.Transparent
import UefiBoot.Gui.Handlers
import UefiBoot.Gui.Front
import UefiBoot.Gui.Creation
import UefiBoot.Gui.Script
import UefiBoot.Gui.AnsiLine
import UefiBoot.Lib.Digits
import UefiBoot.Gui.Calculator
import UefiBoot.Lib.Signed
import UefiBoot.Lib.Window
import UefiBoot.Gui.TerminalLog
import UefiBoot.Gui.Kill
import UefiBoot.Boot.Formatted
import UefiBoot.Boot.FormatScan
import UefiBoot.Boot.FormatRender
import UefiBoot.Boot.ConsoleText
import UefiBoot.Scheduler.Selection
import UefiBoot.Lib.Boxes
import UefiBoot.Gui.Rectangles
import UefiBoot.Gui.Maximize
import UefiBoot.Scheduler.ContextSwitch
import UefiBoot.Scheduler.ContextRuns
import UefiBoot.Boot.ExitBootServices
import UefiBoot.Cpu.Pic
import UefiBoot.Cpu.Irqs
import UefiBoot.Drivers.Pci
import UefiBoot.Drivers.Ps2
import UefiBoot.Drivers.Movements
import UefiBoot.Lib.Ranked
import UefiBoot.Scheduler.Drain
import UefiBoot.Gui.Drawing
import UefiBoot.Gui.Contents
import UefiBoot.Gui.Compose
import UefiBoot.Gui.Repaint
import UefiBoot.Gui.DragRepaint
import UefiBoot.Memory.Lends
import UefiBoot.Memory.SelfTest
