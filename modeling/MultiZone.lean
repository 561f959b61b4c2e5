import MultiZone.Transition.Machine
import MultiZone.Transition.Preemption
import MultiZone.Transition.Channel
import MultiZone.Mailbox
import MultiZone.Notification
import MultiZone.RecvCommand
import MultiZone.Message
import MultiZone.Inbox
import MultiZone.Reassembly
import MultiZone.Transition.Queue
import MultiZone.Uart
import MultiZone.Zone2
import MultiZone.Sequencer
import MultiZone.Robot.Model
import MultiZone.Robot.Tick
import MultiZone.Robot.Control
import MultiZone.Robot.Invariant
import MultiZone.Robot.ManualLock
import MultiZone.Robot.UsbEvents
import MultiZone.Robot.Stranded
import MultiZone.Robot.Exclusive
import MultiZone.Robot.Runaway
import MultiZone.Robot.Holding
import MultiZone.Memory.Region
import MultiZone.Boot.Model
import MultiZone.Boot.Loading
import MultiZone.Boot.Report
import MultiZone.Boot.Start
import MultiZone.Boot.Results
import MultiZone.Usb.Driver
import MultiZone.Usb.Bus
import MultiZone.Usb.Lengths
import MultiZone.Usb.Completions
import MultiZone.Transition.Reactive
import MultiZone.Usb.Reattach
import MultiZone.Usb.Retry
import MultiZone.Editing.Zipper
import MultiZone.Editing.Terminal
import MultiZone.Editing.Recent
import MultiZone.Formatting.Printf
import MultiZone.Readline.Model
import MultiZone.Readline.Strings
import MultiZone.Readline.Reference
import MultiZone.Readline.Refinement
import MultiZone.Readline.Display
import MultiZone.Readline.Bounds
import MultiZone.Readline.ControlSequences
import MultiZone.Readline.HartEcho
import MultiZone.Readline.History
import MultiZone.Readline.Browsing
import MultiZone.Pmp.Model
import MultiZone.Pmp.Agreement
import MultiZone.Accumulation.Leftovers
import MultiZone.Accumulation.Fragments
import MultiZone.SendCommand
import MultiZone.Sequencer.Rounds
import MultiZone.Robot.RunningLight
import MultiZone.Memory.Aligned
import MultiZone.Pmp.Napot
import MultiZone.Pmp.Decoding
import MultiZone.Memory.Layout
import MultiZone.Usb.Descriptors
import MultiZone.Usb.Endpoints
import MultiZone.Buttons
import MultiZone.Memory.Break
import MultiZone.Newlib
import MultiZone.Memory.Cursor
import MultiZone.Fat.Model
import MultiZone.Fat.Entries
import MultiZone.Fat.Reading
import MultiZone.Fat.Loading
import MultiZone.Fat.Free
import MultiZone.Fat.Mount
import MultiZone.Fat.Layout
import MultiZone.Formatting.Conversions
import MultiZone.Printf.Model
import MultiZone.Printf.Integers
import MultiZone.Printf.Alternative
import MultiZone.Printf.Specifiers
import MultiZone.Printf.Formats
import MultiZone.Riscv.Machine
import MultiZone.Riscv.Blocks
import MultiZone.Riscv.Frames
import MultiZone.Startup.Entry
import MultiZone.Startup.Crt0
import MultiZone.Startup.Routines
import MultiZone.Startup.Trap
import MultiZone.Transition.Scan
import MultiZone.Fat.Unicode
import MultiZone.Fat.Names
import MultiZone.Fat.Directory
import MultiZone.Fat.Segments
import MultiZone.Fat.ShortNames
import MultiZone.Fat.Forms
import MultiZone.Fat.Paths
import MultiZone.Fat.Opening
import MultiZone.Fat.Booting
