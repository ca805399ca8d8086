import RiscvEm.Core.Instr
import RiscvEm.Core.Decode
import RiscvEm.Core.Run
import RiscvEm.Soc.Bus
import RiscvEm.Lib.Region
import RiscvEm.Soc.Containment
import RiscvEm.Lib.Except
import RiscvEm.Core.AccessSpec
import RiscvEm.Core.Refusal
import RiscvEm.Core.CsrSpec
import RiscvEm.Core.DecodeSpec
import RiscvEm.Core.RunSpec
import RiscvEm.Lib.BitField
import RiscvEm.Trap.Spec
import RiscvEm.Core.InterruptSpec
import RiscvEm.Lib.Transition
import RiscvEm.Core.Reach
import RiscvEm.Core.Privilege
import RiscvEm.Core.Delivery
import RiscvEm.Core.CsrTable
import RiscvEm.Core.Confinement
import RiscvEm.Lib.FirstMatch
import RiscvEm.Pmp.Napot
import RiscvEm.Pmp.Decision
import RiscvEm.Core.Reads
import RiscvEm.Core.Precise
import RiscvEm.Core.FaultCauses
import RiscvEm.Pmp.Machine
import RiscvEm.Pmp.Lock
import RiscvEm.Core.Sv32
import RiscvEm.Core.PageCross
import RiscvEm.Core.Search
import RiscvEm.Core.Encoding
import RiscvEm.Core.RoundTrip
import RiscvEm.Core.Undefined
import RiscvEm.Devices.Fifo
import RiscvEm.Devices.Clint
import RiscvEm.Devices.Plic
import RiscvEm.Devices.SimpleUart
import RiscvEm.Devices.Uart8250
import RiscvEm.Soc.System
import RiscvEm.Soc.Serves
import RiscvEm.Core.Returns
import RiscvEm.Soc.Stops
import RiscvEm.Core.CsrAccess
import RiscvEm.Devices.PlicClaims
import RiscvEm.Core.Erasure
import RiscvEm.Core.TwoRuns
import RiscvEm.Soc.HiddenState
import RiscvEm.Trap.Nesting
import RiscvEm.Devices.FifoQueue
import RiscvEm.Core.Integer
import RiscvEm.Core.WordInstr
import RiscvEm.Core.Transfer
import RiscvEm.Core.Alignment
import RiscvEm.Core.Reservation
import RiscvEm.Soc.Ram
import RiscvEm.Soc.FetchBytes
import RiscvEm.Core.Behind
import RiscvEm.Soc.Translation
import RiscvEm.Soc.Precise
import RiscvEm.Soc.Atomic
import RiscvEm.Devices.UartFlow
import RiscvEm.Soc.UartStreams
import RiscvEm.Core.ReturnLevels
import RiscvEm.Core.SavedPrivilege
import RiscvEm.Core.SharedViews
import RiscvEm.Core.Sv32Leaf
import RiscvEm.Soc.PendingLines
import RiscvEm.Devices.PlicSelect
import RiscvEm.Devices.Touches
import RiscvEm.Devices.PlicConfined
import RiscvEm.Devices.ClintRegisters
import RiscvEm.Soc.BufferContract
import RiscvEm.Soc.PlicLevels
import RiscvEm.Devices.UartRuns
import RiscvEm.Devices.UartStatus
import RiscvEm.Pmp.AddrWrite
import RiscvEm.Core.WideProducts
import RiscvEm.Core.CsrLookups
import RiscvEm.Core.DecodeLookups
import RiscvEm.Soc.Images
import RiscvEm.Core.BelowMachine
import RiscvEm.Isa.Flat
import RiscvEm.Isa.Handlers
import RiscvEm.Isa.Refinement
import RiscvEm.Isa.Rounds
import RiscvEm.Isa.Timer
import RiscvEm.Soc.Isolation
import RiscvEm.Core.Counters
import RiscvEm.Isa.Boot
import RiscvEm.Isa.Paging
import RiscvEm.Isa.Process
import RiscvEm.Isa.External
import RiscvEm.Isa.Resume
