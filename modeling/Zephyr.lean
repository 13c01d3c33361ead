import Zephyr.Kernel.Sched.NonPreemption
import Zephyr.Library.Run
import Zephyr.Kernel.Sched.Running
import Zephyr.Kernel.Sched.Sleeping
import Mathlib.Data.List.Perm.Basic
import Zephyr.Kernel.Base
import Zephyr.Kernel.Work.Expiry
import Mathlib
import Zephyr.Kernel.Mutex.Unlocking
import Zephyr.Kernel.Mutex.Holding
import Zephyr.Library.Ring
import Zephyr.Kernel.MsgQ.Delivery
import Zephyr.Kernel.Timeout.Courses
import Zephyr.Kernel.Timeout.Wakeups
import Zephyr.Library.CircularList
import Zephyr.Library.Tiling
import Zephyr.Heap.Contents
import Zephyr.Heap.Indices
import Zephyr.Heap.Placement
import Zephyr.Heap.Integrity
import Zephyr.Library.MachineInt
import Mathlib.Data.List.Nodup
import Mathlib.Data.Nat.Bitwise
import Mathlib.Data.Set.Card
import Zephyr.MemDomain.Partitions
import Zephyr.Mpu.Validation
import Zephyr.Kernel.Poll.Unlinking
import Zephyr.Kernel.Sched.Altering
import Zephyr.Kernel.Sched.Model
import Mathlib.Data.Finset.Option
import Mathlib.Data.List.Pairwise
import Mathlib.Data.Finset.Basic
import Zephyr.Library.Memory
import Zephyr.Pm.Waiting
import Zephyr.Pm.Model
import Zephyr.Ipv4.Receiving
import Zephyr.Ipv4.RoundTrip
import Mathlib.Data.List.Basic
import Mathlib.Tactic.Common
import Mathlib.Data.List.TakeDrop
import Zephyr.Smf.Activity
import Zephyr.Smf.Propagation
import Zephyr.Library.Loop
import Mathlib.Data.List.Range
import Mathlib.Tactic.Ring
import Zephyr.Coap.Model
import Zephyr.Coap.Parsing
import Zephyr.Library.StableQueue
import Zephyr.Coap.Failing
import Zephyr.Library.Overwrite
import Mathlib.Tactic.IntervalCases
import Zephyr.BitArray.Allocation
import Zephyr.Kernel.Priq.MultiQueue
import Zephyr.Kernel.Sem
import Zephyr.Kernel.MemSlab
import Zephyr.Kernel.EventObject
import Zephyr.Kernel.Work.Draining
import Zephyr.Time.Units
import Zephyr.T32Logger
import Zephyr.Utf8
import Zephyr.HashMapSc
import Zephyr.Winstream
import Zephyr.Pm.Policy
import Zephyr.Kernel.Condvar.Waking
import Zephyr.Kernel.TimeSlice
import Zephyr.Net.Timeout
import Zephyr.Net.Checksum
import Zephyr.Net.Address
import Zephyr.Net.AddressText
import Zephyr.Net.AddressBounds
import Zephyr.Net.AddressRoundTrip
import Zephyr.Dns.Packing
import Zephyr.Dns.Unpacking
import Zephyr.ModemPpp
import Zephyr.JsonEscape
import Zephyr.Bsearch
import Zephyr.Coap.Replies
