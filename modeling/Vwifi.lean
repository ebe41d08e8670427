import Vwifi.Lib.LittleEndian
import Vwifi.Lib.Segmented
import Vwifi.Types
import Vwifi.Kernel
import Vwifi.Socket
import Vwifi.Signal
import Vwifi.Select
import Vwifi.WifiServer
import Vwifi.Forward
import Vwifi.CtrlServer
import Vwifi.Lib.Lts
import Vwifi.MainLoop
import Vwifi.SocketSpec
import Vwifi.Framing
import Vwifi.Registry
import Vwifi.Delivery
import Vwifi.Visit
import Vwifi.ForwardPass
import Vwifi.Order
import Vwifi.Step
import Vwifi.Reconnect
import Vwifi.Descriptors
import Vwifi.Streams
import Vwifi.Identity
import Vwifi.Lookup
import Vwifi.Recovery
import Vwifi.Handling
import Vwifi.Truncation
import Vwifi.CtrlClient
import Vwifi.ListReply
import Vwifi.SelectSpec
import Vwifi.Scheduled
import Vwifi.Pairing
import Vwifi.Remembered
import Vwifi.StatusReply
import Vwifi.Devices
import Vwifi.DeviceSync
import Vwifi.Lib.Attributes
import Vwifi.Netlink
import Vwifi.KernelWifi
import Vwifi.Client
import Vwifi.KernelWifiSpec
import Vwifi.ClientStep
import Vwifi.ClientPhases
import Vwifi.Lib.Tally
import Vwifi.TaskCount
import Vwifi.FamilyId
import Vwifi.WatchedNode
import Vwifi.Injection
import Vwifi.FrameSize
import Vwifi.Distance
import Vwifi.InetEvent
import Vwifi.Cloning
import Vwifi.FrameAccess
import Vwifi.Frequency
import Vwifi.ListErrors
import Vwifi.Transmitter
import Vwifi.Lib.TowardZero
import Vwifi.PathLoss
import Vwifi.Lib.First
import Vwifi.TwoOrders
import Vwifi.Lib.Numeral
import Vwifi.Tools
import Vwifi.Admission
import Vwifi.Lib.Broadcast
import Vwifi.OrderInbox
import Vwifi.Hub
import Vwifi.HubRuns
import Vwifi.Lib.Options
import Vwifi.CtrlProgram
import Vwifi.Answers
import Vwifi.CtrlOrders
import Vwifi.Replies
import Vwifi.Commands
import Vwifi.FramePath
import Vwifi.FrameStream
import Vwifi.Guests
import Vwifi.Lib.Keyed
import Vwifi.Requests
import Vwifi.Provenance
import Vwifi.Directory
import Vwifi.Places
import Vwifi.LinkMessages
import Vwifi.LinkEvents
import Vwifi.Lib.Lease
import Vwifi.DescriptorUse
import Vwifi.Survival
