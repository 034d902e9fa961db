import LorahamRns.Duty.Account
import LorahamRns.Duty.Capacity
import LorahamRns.Duty.Charges
import LorahamRns.Duty.Earlier
import LorahamRns.Duty.Elapsed
import LorahamRns.Duty.Environment
import LorahamRns.Duty.Erased
import LorahamRns.Duty.HeldBack
import LorahamRns.Duty.Ideal
import LorahamRns.Duty.Instant
import LorahamRns.Duty.Ledger
import LorahamRns.Duty.Limits
import LorahamRns.Duty.Machine
import LorahamRns.Duty.Reboot
import LorahamRns.Duty.Recovery
import LorahamRns.Duty.Resumed
import LorahamRns.Duty.Script
import LorahamRns.Duty.Section
import LorahamRns.Duty.Shift
import LorahamRns.Duty.Status
import LorahamRns.Duty.Twin
import LorahamRns.Duty.Untrusted
import LorahamRns.Duty.Waiting
import LorahamRns.Framing.Conservation
import LorahamRns.Framing.Firmware
import LorahamRns.Framing.Lossless
import LorahamRns.Framing.Reassembler
import LorahamRns.Framing.Stream
import LorahamRns.Interface.Backlog
import LorahamRns.Interface.Carrier
import LorahamRns.Interface.Configuration
import LorahamRns.Interface.Courier
import LorahamRns.Interface.Exclusion
import LorahamRns.Interface.Health
import LorahamRns.Interface.Incoming
import LorahamRns.Interface.LastLook
import LorahamRns.Interface.Legal
import LorahamRns.Interface.Link
import LorahamRns.Interface.Outgoing
import LorahamRns.Interface.Programmed
import LorahamRns.Interface.Progress
import LorahamRns.Interface.Schedule
import LorahamRns.Interface.Sections
import LorahamRns.Interface.Stopped
import LorahamRns.Interface.Survived
import LorahamRns.Interface.Teardown
import LorahamRns.Interface.Threads
import LorahamRns.Interface.Watched
import LorahamRns.Interface.Worker
import LorahamRns.Lib.Budget
import LorahamRns.Lib.Decimal
import LorahamRns.Lib.Encoding
import LorahamRns.Lib.Json
import LorahamRns.Lib.JsonAppend
import LorahamRns.Lib.JsonAscii
import LorahamRns.Lib.JsonLength
import LorahamRns.Lib.JsonRoundTrip
import LorahamRns.Lib.JsonScan
import LorahamRns.Lib.LineBuffer
import LorahamRns.Lib.Lockstep
import LorahamRns.Lib.Monitor
import LorahamRns.Lib.Process
import LorahamRns.Lib.Program
import LorahamRns.Lib.PyFloat
import LorahamRns.Lib.Separated
import LorahamRns.Lib.Transition
import LorahamRns.Lib.Window
import LorahamRns.Node.Address
import LorahamRns.Node.Exposure
import LorahamRns.Node.Listener
import LorahamRns.Node.Main
import LorahamRns.Node.Marker
import LorahamRns.Node.Readiness
import LorahamRns.Node.Refusal
import LorahamRns.Radio.Airtime
import LorahamRns.Radio.Chip
import LorahamRns.Radio.Delivery
import LorahamRns.Radio.Driver
import LorahamRns.Radio.Faults
import LorahamRns.Radio.Sx1262
import LorahamRns.Radio.Sx127x
import LorahamRns.Radio.Transmit
import LorahamRns.Radio.TxEnable
import LorahamRns.RfLog.Lines
import LorahamRns.RfLog.Machine
import LorahamRns.RfLog.Reading
import LorahamRns.RfLog.Record
import LorahamRns.RfLog.Retention
import LorahamRns.RfLog.Segment
import LorahamRns.RfLog.Torn
import LorahamRns.RfLog.Writer
import LorahamRns.Sideband.Enable
import LorahamRns.Sideband.Gpsd
import LorahamRns.Sideband.Msgpack
import LorahamRns.Sideband.Nmea
import LorahamRns.Sideband.Replaced
import LorahamRns.Spi.ChipSelect
import LorahamRns.Spi.Construction
import LorahamRns.Spi.Xfer
