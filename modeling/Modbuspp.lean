import Modbuspp.Library.Storage
import Modbuspp.Library.Process
import Modbuspp.Message.Buffer
import Modbuspp.Message.FrameCheck
import Modbuspp.Message.Receive
import Modbuspp.Device.RawSend
import Modbuspp.Data.Codec
import Modbuspp.BufferedSlave.Range
import Modbuspp.BufferedSlave.Offline
import Modbuspp.Server.Basic
import Modbuspp.Server.Acknowledged
import Modbuspp.Server.Rejected
import Modbuspp.Device.Equipment
import Modbuspp.BufferedSlave.Coherence
import Modbuspp.BufferedSlave.Typed
import Modbuspp.Server.Reported
import Modbuspp.Server.Dispatch
import Modbuspp.Router.Basic
import Modbuspp.Router.OpenState
import Modbuspp.Router.Routes
import Modbuspp.Server.Threads
import Modbuspp.Server.Receivers
import Modbuspp.Server.Restart
import Modbuspp.Library.ShiftRegister
import Modbuspp.Rtu.CrcModbus
import Modbuspp.Message.Words
import Modbuspp.Message.Transactions
import Modbuspp.Message.Clearing
import Modbuspp.Library.BitField
import Modbuspp.Message.Packing
import Modbuspp.Message.Payload
import Modbuspp.Message.RequestPayload
import Modbuspp.Library.Handles
import Modbuspp.Message.Copies
import Modbuspp.BufferedSlave.Identification
import Modbuspp.BufferedSlave.Atomicity
import Modbuspp.Data.Text
import Modbuspp.BufferedSlave.Description
import Modbuspp.BufferedSlave.BitValues
import Modbuspp.BufferedSlave.InitialValues
import Modbuspp.Slave.Report
import Modbuspp.BufferedSlave.ShortReads
import Modbuspp.BufferedSlave.WholeBlocks
import Modbuspp.Server.Serial
import Modbuspp.Server.Hosted
import Modbuspp.Server.Progress
import Modbuspp.Device.Link
import Modbuspp.Master.Basic
import Modbuspp.Master.Slaves
import Modbuspp.Data.Exchange
import Modbuspp.Library.ErrorPattern
import Modbuspp.Rtu.ErrorDetection
import Modbuspp.Message.Transport
import Modbuspp.Message.Exceptions
import Modbuspp.Server.Gateway
import Modbuspp.Router.Loading
import Modbuspp.BufferedSlave.Synchronisation
import Modbuspp.BufferedSlave.Remote
import Modbuspp.Server.Shutdown
