import SimulatedLinux.Demo.Worker
import SimulatedLinux.Ethernet.Irq
import SimulatedLinux.Ethernet.Pbuf
import SimulatedLinux.Ethernet.Rx
import SimulatedLinux.Ethernet.Tx
import SimulatedLinux.Heap.Calls
import SimulatedLinux.Heap.Client
import SimulatedLinux.Heap.Headers
import SimulatedLinux.Heap.Heap4
import SimulatedLinux.Heap.Links
import SimulatedLinux.Heap.Memory
import SimulatedLinux.Heap.Objects
import SimulatedLinux.Heap.Take
import SimulatedLinux.Kernel.Agree
import SimulatedLinux.Kernel.Calls
import SimulatedLinux.Kernel.Clock
import SimulatedLinux.Kernel.Cpu
import SimulatedLinux.Kernel.Critical
import SimulatedLinux.Kernel.Effect
import SimulatedLinux.Kernel.Follow
import SimulatedLinux.Kernel.Holder
import SimulatedLinux.Kernel.Inherit
import SimulatedLinux.Kernel.Invariant
import SimulatedLinux.Kernel.ListMemory
import SimulatedLinux.Kernel.Listing
import SimulatedLinux.Kernel.Loop
import SimulatedLinux.Kernel.Machine
import SimulatedLinux.Kernel.MachineInv
import SimulatedLinux.Kernel.MachineStep
import SimulatedLinux.Kernel.Mailbox
import SimulatedLinux.Kernel.Moves
import SimulatedLinux.Kernel.Mutex
import SimulatedLinux.Kernel.Notify
import SimulatedLinux.Kernel.OneQueue
import SimulatedLinux.Kernel.Placement
import SimulatedLinux.Kernel.Priority
import SimulatedLinux.Kernel.Queue
import SimulatedLinux.Kernel.Reachable
import SimulatedLinux.Kernel.Rests
import SimulatedLinux.Kernel.RoundRobin
import SimulatedLinux.Kernel.Rouse
import SimulatedLinux.Kernel.Sched
import SimulatedLinux.Kernel.Semaphore
import SimulatedLinux.Kernel.Sleep
import SimulatedLinux.Kernel.Slots
import SimulatedLinux.Kernel.State
import SimulatedLinux.Kernel.Step
import SimulatedLinux.Kernel.Ticks
import SimulatedLinux.Kernel.TimedWait
import SimulatedLinux.Kernel.View
import SimulatedLinux.Kernel.Wait
import SimulatedLinux.Kernel.WakeOrder
import SimulatedLinux.Kernel.Wakeup
import SimulatedLinux.Lib.Bytes
import SimulatedLinux.Lib.Chain
import SimulatedLinux.Lib.Dialogue
import SimulatedLinux.Lib.Linked
import SimulatedLinux.Lib.Ownership
import SimulatedLinux.Lib.Ring
import SimulatedLinux.Lib.Run
import SimulatedLinux.Lib.Shelf
import SimulatedLinux.Lib.Span
import SimulatedLinux.Lib.Trail
import SimulatedLinux.Lib.Turns
import SimulatedLinux.Printf.Family
import SimulatedLinux.Printf.Format
import SimulatedLinux.Printf.Number
import SimulatedLinux.Printf.Output
import SimulatedLinux.Printf.Print
import SimulatedLinux.Thread.Census
import SimulatedLinux.Thread.CreateFail
import SimulatedLinux.Thread.Detach
import SimulatedLinux.Thread.Effect
import SimulatedLinux.Thread.End
import SimulatedLinux.Thread.Failure
import SimulatedLinux.Thread.Fields
import SimulatedLinux.Thread.Footprint
import SimulatedLinux.Thread.Identity
import SimulatedLinux.Thread.Invariant
import SimulatedLinux.Thread.Join
import SimulatedLinux.Thread.Keep
import SimulatedLinux.Thread.Kernel
import SimulatedLinux.Thread.Leak
import SimulatedLinux.Thread.Life
import SimulatedLinux.Thread.Links
import SimulatedLinux.Thread.Lookup
import SimulatedLinux.Thread.Memory
import SimulatedLinux.Thread.Move
import SimulatedLinux.Thread.Mutex
import SimulatedLinux.Thread.Native
import SimulatedLinux.Thread.Next
import SimulatedLinux.Thread.Objects
import SimulatedLinux.Thread.Project
import SimulatedLinux.Thread.Reachable
import SimulatedLinux.Thread.Reclaim
import SimulatedLinux.Thread.Run
import SimulatedLinux.Thread.Spawn
import SimulatedLinux.Thread.State
import SimulatedLinux.Thread.Step
import SimulatedLinux.Thread.Turn
