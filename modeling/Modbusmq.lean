import Modbusmq.Bridge.Fidelity
import Modbusmq.Bridge.ListPayloads
import Modbusmq.Bridge.OnChange
import Modbusmq.Bridge.RawQuery
import Modbusmq.Bridge.Reconnect
import Modbusmq.Bridge.Routing
import Modbusmq.Bridge.TextChanges
import Modbusmq.Configuration.Conversion
import Modbusmq.Configuration.KeyOrder
import Modbusmq.Configuration.Topics
import Modbusmq.Core.RawCoils
import Modbusmq.Decoding.AsciiText
import Modbusmq.Decoding.TextBounds
import Modbusmq.Decoding.Dates
import Modbusmq.Decoding.Decimals
import Modbusmq.Decoding.Defaults
import Modbusmq.Decoding.Payload
import Modbusmq.Loop.Accounting
import Modbusmq.Loop.Discipline
import Modbusmq.Loop.Exceptions
import Modbusmq.Loop.OnceReads
import Modbusmq.Loop.Reports
import Modbusmq.Loop.Probing
import Modbusmq.Loop.Reentrancy
import Modbusmq.Loop.Resync
import Modbusmq.Loop.Rotation
import Modbusmq.Loop.Series
import Modbusmq.Reading.StaleFrames
import Modbusmq.Reading.TcpAcceptance
import Modbusmq.Reading.Window
import Modbusmq.Server.Agreement
import Modbusmq.Server.Connection
import Modbusmq.Server.Clients
import Modbusmq.Server.Conversation
import Modbusmq.Server.LiveValues
import Modbusmq.Transport.Bursts
import Modbusmq.Configuration.UnknownKeys
import Modbusmq.Configuration.ConnectStrings
