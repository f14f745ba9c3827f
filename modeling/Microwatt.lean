import Microwatt.Lib.Run
import Microwatt.Lib.Fair
import Microwatt.Lib.Select
import Microwatt.Dcache.Tags
import Microwatt.Dcache.Stores
import Microwatt.Dcache.StoreRuns
import Microwatt.Dcache.Completion
import Microwatt.Dcache.Progress
import Microwatt.Dcache.Reservation
import Microwatt.Execute1.Flush
import Microwatt.Mmu.Fields
import Microwatt.Bitsort
import Microwatt.Divider
import Microwatt.Execute1.Stage1
import Microwatt.Mmu.Walk
import Microwatt.Mmu.Reads
import Microwatt.Mmu.Translation
import Microwatt.Fetch1.Translation
import Microwatt.Execute1.Actions
import Microwatt.Execute1.Stage2
import Microwatt.Writeback
import Microwatt.Execute1.Msr
import Microwatt.Redirect
import Microwatt.Execute1.Preempt
import Microwatt.Loadstore1.Request
import Microwatt.Loadstore1.Step
import Microwatt.Loadstore1.Digest
import Microwatt.Decode2
import Microwatt.Loadstore1.Doubled
import Microwatt.Loadstore1.Order
import Microwatt.Loadstore1.Invariant
import Microwatt.Loadstore1.Finish
import Microwatt.Lms.Step
import Microwatt.Lms.Timing
import Microwatt.Lms.Recursion
import Microwatt.Soc.SlaveIo
import Microwatt.Soc.Converter
import Microwatt.WishboneArbiter
import Microwatt.Helpers
import Microwatt.Xics.Step
import Microwatt.Xics.Presentation
import Microwatt.Control.Operands
import Microwatt.L2.Step
import Microwatt.L2.Protocol
import Microwatt.L2.Refill
import Microwatt.L2.Coherence
import Microwatt.L2.Progress
import Microwatt.Dmi.Handshake
import Microwatt.Dmi.Access
import Microwatt.Dmi.Progress
import Microwatt.Spi.FlashCtrl
import Microwatt.Spi.Flash
import Microwatt.Spi.Bus
import Microwatt.Spi.Clocks
import Microwatt.Spi.Reads
import Microwatt.Spi.Progress
import Microwatt.Icache.BusCycle
import Microwatt.RamSpr.Registers
import Microwatt.Xilinx.Multiply
import Microwatt.Lib.Dsp48
import Microwatt.Xilinx.Product
import Microwatt.Multiply32s
import Microwatt.Xilinx.Multiply32s
import Microwatt.Xilinx.Lockstep
import Microwatt.Fpu.Arith
import Microwatt.Fpu.Control
import Microwatt.Fpu.Idiv
import Microwatt.Fpu.Step
import Microwatt.Execute1.Timebase
import Microwatt.Execute1.Flags
import Microwatt.Pmu
import Microwatt.Fpu.Compare
import Microwatt.Predecode.InsnCode
import Microwatt.Predecode.Tables
import Microwatt.Predecode.Recode
import Microwatt.Decode1.Step
import Microwatt.Decode1.Stream
import Microwatt.Loadstore1.Hash
import Microwatt.Loadstore1.HashRun
import Microwatt.Spi.Pipeline
import Microwatt.Spi.Orderly
import Microwatt.Spi.Bound
import Microwatt.Fpu.Compute
import Microwatt.Fpu.FeMode
import Microwatt.Gpio
import Microwatt.Mmu.Ends
import Microwatt.Mmu.Cached
import Microwatt.Uart
import Microwatt.Debug.Access
import Microwatt.Debug.LogDump
import Microwatt.Dcache.Acks
import Microwatt.Loadstore1.Bytes
import Microwatt.Loadstore1.Assemble
import Microwatt.Spi.Engine
import Microwatt.Dcache.Quadword
import Microwatt.Dcache.QuadStores
import Microwatt.Dcache.QuadLoads
import Microwatt.Dcache.QuadRuns
import Microwatt.Countbits
import Microwatt.SyncFifo.Runs
import Microwatt.Bitsort.Instructions
import Microwatt.Divider.Exact
import Microwatt.RegisterFile
import Microwatt.Rotator
import Microwatt.Rotator.Instructions
import Microwatt.Lib.Binary32
import Microwatt.Loadstore1.Single
import Microwatt.Loadstore1.Watch
import Microwatt.Dcache.Replacement
import Microwatt.Plru.Protection
import Microwatt.Fpu.Shifter
import Microwatt.Fpu.Bookkeeping
import Microwatt.Fpu.Termination
import Microwatt.Fpu.Delivery
