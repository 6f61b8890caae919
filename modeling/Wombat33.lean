import Wombat33.Clocked.Run
import Wombat33.Clocked.ShiftQueue
import Wombat33.Clocked.Sender
import Wombat33.Uart.Setup
import Wombat33.Uart.Transmitter
import Wombat33.Uart.Receiver
import Wombat33.Bus32.Transaction
import Wombat33.Ncr53c96.StrayWrite
import Wombat33.Ncr53c96.HeldSector
import Wombat33.Ncr53c96.WritePath
import Wombat33.Ncr53c96.DinDrain
import Wombat33.Ncr53c96.InPhase
import Wombat33.Iosb.Pdma
import Wombat33.Iosb.PdmaBeat
import Wombat33.Iosb.ScsiLatch
import Wombat33.Ncr53c96.CdbCollect
import Wombat33.Ncr53c96.OwnAnswer
import Wombat33.Ncr53c96.ReadPath
import Wombat33.Sdram.Chip
import Wombat33.Sdram.Controller
import Wombat33.Rtc.Refinement
import Wombat33.Easc.Lossless
import Wombat33.Dafb.Scanout
import Wombat33.Scc.Phase
import Wombat33.Scc.Bridge
import Wombat33.Scc.Effect
import Wombat33.Quadra800.Service
import Wombat33.Quadra800.Ledger
import Wombat33.Quadra800.Traffic
import Wombat33.Quadra800.Delivery
import Wombat33.Quadra800.Progress
import Wombat33.Quadra800.Joined
import Wombat33.Quadra800.PdmaVisit
import Wombat33.Quadra800.PdmaOperand
import Wombat33.Ncr53c96.Quiesce
import Wombat33.Ncr53c96.Counter
import Wombat33.Iosb.Watchdog
import Wombat33.Clocked.Toggle
import Wombat33.Dafb.Registers
import Wombat33.Dafb.Blank
import Wombat33.Sdram.Bridge
import Wombat33.Sdram.PowerUp
import Wombat33.Sdram.Refresh
import Wombat33.Sdram.Cells
import Wombat33.Sdram.Handshake
import Wombat33.Sdram.Access
import Wombat33.Sdram.Advance
import Wombat33.Sdram.Memory
import Wombat33.Sdram.Deadline
import Wombat33.Sdram.Law
import Wombat33.Vram.Mapper
import Wombat33.Vram.Compaction
import Wombat33.Checks.Basic
import Wombat33.Oracle.Compare
import Wombat33.Oracle.Suites
import Wombat33.Oracle.Agreement
import Wombat33.Oracle.Fields
import Wombat33.Oracle.Verdict
import Wombat33.Adb.Command
import Wombat33.Adb.Addressing
import Wombat33.Adb.KeyQueue
import Wombat33.Adb.Motion
import Wombat33.Iosb.Shim
import Wombat33.Iosb.ShiftTimer
import Wombat33.Ncr53c96.Timeout
import Wombat33.Easc.Edges
import Wombat33.Scc.RxQueue
import Wombat33.Scc.Handshake
import Wombat33.Scc.Register8
import Wombat33.Ncr53c96.Response
import Wombat33.Ncr53c96.ResponseStep
import Wombat33.Ncr53c96.Allocation
import Wombat33.Ncr53c96.BoundedFifo
import Wombat33.Iosb.Images
import Wombat33.MacQuadra800.Boot
import Wombat33.MacQuadra800.Mount
import Wombat33.MacQuadra800.Ddr
import Wombat33.MacQuadra800.RomImage
import Wombat33.MacQuadra800.RomUpload
import Wombat33.MacQuadra800.RomRun
import Wombat33.Preboot.JsonlWriter
import Wombat33.Preboot.ResultRegion
import Wombat33.Preboot.JsonlBatch
import Wombat33.Preboot.JsonlRun
import Wombat33.AuxUfs.Ufs
import Wombat33.AuxUfs.Gaps
import Wombat33.AuxUfs.Blocklist
import Wombat33.Uart.Reception
import Wombat33.Uart.Loopback
import Wombat33.Via6522.Chip
import Wombat33.Via6522.Timers
import Wombat33.Via6522.Flags
import Wombat33.Adb.Talk
import Wombat33.Iosb.AdbPath
import Wombat33.Iosb.Outbound
import Wombat33.Iosb.Inbound
import Wombat33.Iosb.TalkRead
import Wombat33.Iosb.Completion
import Wombat33.Clocked.Replay
import Wombat33.MacQuadra800.Emu
import Wombat33.MacQuadra800.Phases
import Wombat33.MacQuadra800.Contents
import Wombat33.MacQuadra800.Coherence
import Wombat33.MacQuadra800.OneMemory
import Wombat33.MacQuadra800.Latency
