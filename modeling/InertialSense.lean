import InertialSense.Comm.Leftmost
import InertialSense.Comm.Accounting
import InertialSense.Comm.Pointers
import InertialSense.Comm.RoundTrip
import InertialSense.ComManager.Deferral
import InertialSense.ComManager.Isolation
import InertialSense.ComManager.Stopping
import InertialSense.ComManager.Streams
import InertialSense.FirmwareUpdate.Routing
import InertialSense.FirmwareUpdate.Sequencing
import InertialSense.FirmwareUpdate.Opening
import InertialSense.FirmwareUpdate.Packing
import InertialSense.FirmwareUpdate.Failing
import InertialSense.FirmwareUpdate.Integrity
import InertialSense.RingBuffer.Refinement
import InertialSense.DataLog.Chunk
import InertialSense.DataLog.ChunkContent
import InertialSense.DataLog.Raw
import InertialSense.DataLog.RawReplay
import InertialSense.DataLog.Serial
import InertialSense.DataLog.FieldText
import InertialSense.DataLog.Json
import InertialSense.DataLog.JsonRoundTrip
import InertialSense.DataLog.LoggerThread
import InertialSense.FlashConfig.IoConfig
import InertialSense.FlashConfig.Model
import InertialSense.FlashConfig.Synced
import InertialSense.Foundation.AddressMap
import InertialSense.Ihex.Denotation
import InertialSense.ComManager.Requests
import InertialSense.Comm.Arrival
import InertialSense.Comm.Clock
import InertialSense.Comm.Termination
import InertialSense.Bootloader.Dfu
import InertialSense.Bootloader.DfuPlacement
import InertialSense.Bootloader.DfuUpdate
import InertialSense.Bootloader.DfuUpdatePlacement
import InertialSense.Comm.Rtcm3
import InertialSense.Comm.Sentences
import InertialSense.Comm.Spartn
import InertialSense.DataLog.Culling
import InertialSense.ComManager.Acknowledging
import InertialSense.ComManager.Periodic
import InertialSense.ComManager.Refusal
import InertialSense.ComManager.RxTrimming
import InertialSense.Comm.PortWrite
import InertialSense.RingBuffer.Peek
import InertialSense.FirmwareUpdate.BufferForm
import InertialSense.FirmwareUpdate.BuildBuffer
import InertialSense.FirmwareUpdate.Coverage
import InertialSense.FirmwareUpdate.Dividing
import InertialSense.DataLog.Csv
import InertialSense.DataLog.CsvRoundTrip
import InertialSense.ComManager.Registered
import InertialSense.DataLog.CsvFiles
import InertialSense.DataLog.CsvReading
import InertialSense.DataLog.CsvReplay
import InertialSense.DataLog.ReadBounds
import InertialSense.FirmwareUpdate.Arguments
import InertialSense.FirmwareUpdate.Manifest
import InertialSense.FirmwareUpdate.Rejecting
import InertialSense.FirmwareUpdate.Renegotiating
import InertialSense.FirmwareUpdate.Resending
import InertialSense.RingBuffer.Search
import InertialSense.Bootloader.Isb
import InertialSense.Bootloader.IsbBounded
import InertialSense.Bootloader.IsbProgress
import InertialSense.Bootloader.IsbTerminates
import InertialSense.DataLog.BinaryText
import InertialSense.DataLog.Conversions
import InertialSense.DataLog.Expansion
import InertialSense.DataLog.FieldAccess
import InertialSense.Ihex.Accesses
import InertialSense.Ihex.Bounded
import InertialSense.Nmea.Asce
import InertialSense.Nmea.Copies
import InertialSense.Nmea.Reads
import InertialSense.Nmea.Report
import InertialSense.Foundation.Parts
import InertialSense.Foundation.Scanf
import InertialSense.Nmea.Acceptance
import InertialSense.Nmea.Builders
import InertialSense.Nmea.DeviceRoundTrip
import InertialSense.Nmea.GsvCounts
import InertialSense.Nmea.GsvLists
import InertialSense.Nmea.GsvReading
import InertialSense.Nmea.GsvRoundTrip
import InertialSense.Nmea.GsvWellFormed
import InertialSense.TimeConversion.Absolute
import InertialSense.TimeConversion.Calendar
import InertialSense.Bootloader.DfuWaiting
import InertialSense.Bootloader.MemoryPageBounds
import InertialSense.Bootloader.Otp
import InertialSense.Comm.TextMessages
import InertialSense.DataBuffer.Model
import InertialSense.DataBuffer.Newest
import InertialSense.DataLog.FieldNames
import InertialSense.FlashConfig.Receiving
import InertialSense.Foundation.Gregorian
import InertialSense.SerialPort.Ascii
import InertialSense.TimeConversion.Mjd
import InertialSense.Bootloader.Xmodem
import InertialSense.Comm.Crc24q
import InertialSense.Foundation.Chains
import InertialSense.LinkedList.Model
import InertialSense.LinkedList.WellFormed
import InertialSense.Md5.Standard
import InertialSense.Utilities.Base64
import InertialSense.Utilities.Base64RoundTrip
import InertialSense.Bootloader.IsbAgreement
import InertialSense.Bootloader.XmodemSession
import InertialSense.ComManager.Remote
import InertialSense.FirmwareUpdate.Completing
import InertialSense.FirmwareUpdate.OverLink
import InertialSense.FlashConfig.Mirroring
