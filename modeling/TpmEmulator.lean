import TpmEmulator.Library.Admission
import TpmEmulator.Library.BigEndian
import TpmEmulator.Library.BumpLayout
import TpmEmulator.Library.CellMemory
import TpmEmulator.Library.CipherFeedback
import TpmEmulator.Library.CounterMode
import TpmEmulator.Library.CryptoPrimitives
import TpmEmulator.Library.FragmentStore
import TpmEmulator.Library.Framing
import TpmEmulator.Library.Programs
import TpmEmulator.Library.RingBuffer
import TpmEmulator.Library.Runs
import TpmEmulator.Library.StructLayout
import TpmEmulator.Library.Tiling
import TpmEmulator.Constants
import TpmEmulator.State
import TpmEmulator.Header
import TpmEmulator.Unmarshal
import TpmEmulator.UnmarshalBounds
import TpmEmulator.ParameterGrammar
import TpmEmulator.Marshal
import TpmEmulator.ResponseCodec
import TpmEmulator.HeaderCodecs
import TpmEmulator.Crypto
import TpmEmulator.Nv
import TpmEmulator.Handlers
import TpmEmulator.Device
import TpmEmulator.Firmware
import TpmEmulator.ReadResponse
import TpmEmulator.ReferenceHost
import TpmEmulator.KeyDerivation
import TpmEmulator.AttributeWord
import TpmEmulator.NvOperations
import TpmEmulator.NvCapacity
import TpmEmulator.Replies
import TpmEmulator.Execution
import TpmEmulator.Effects
import TpmEmulator.BankInvariant
import TpmEmulator.Transport
import TpmEmulator.DriverAgreement
import TpmEmulator.StaleBytes
import TpmEmulator.TemplateReads
import TpmEmulator.CommandGate
import TpmEmulator.FailedCommands
import TpmEmulator.NvAttributes
import TpmEmulator.NvCommands
import TpmEmulator.NvRecords
import TpmEmulator.PendingCommands
import TpmEmulator.SessionCommands
import TpmEmulator.TpmMigration
import TpmEmulator.PrimaryObjects
import TpmEmulator.PrimaryKeys
import TpmEmulator.LocalCopies
import TpmEmulator.MessagePort
import TpmEmulator.PersistedName
import TpmEmulator.PublicAreas
import TpmEmulator.ResponsePadding
import TpmEmulator.NvKeystream
import TpmEmulator.NvContents
import TpmEmulator.NvAvailability
import TpmEmulator.NvByteArray
import TpmEmulator.NxpUart
import TpmEmulator.UartFifo
import TpmEmulator.UartRegisters
import TpmEmulator.UartInterrupts
import TpmEmulator.UartReception
import TpmEmulator.UartMigration
import TpmEmulator.MemoryBanks
import TpmEmulator.Printf
import TpmEmulator.PrintfConformance
import TpmEmulator.HexDump
import TpmEmulator.DriverRobustness
import TpmEmulator.Board
import TpmEmulator.FirmwareCode
import TpmEmulator.Terminal
import TpmEmulator.Session
import TpmEmulator.LineInput
import TpmEmulator.Menu
import TpmEmulator.Reboot
