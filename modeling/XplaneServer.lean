import XplaneServer.Foundation.Exec
import XplaneServer.Foundation.FirstWins
import XplaneServer.Foundation.Records
import XplaneServer.Foundation.Scanning
import XplaneServer.Foundation.Text
import XplaneServer.Platform
import XplaneServer.Json.Value
import XplaneServer.Datas.Dataref
import XplaneServer.Networking.Client
import XplaneServer.Plugin
import XplaneServer.Datas.Callbacks
import XplaneServer.Networking.TCPServer
import XplaneServer.Main
import XplaneServer.Networking.Dispatch
import XplaneServer.Start
import XplaneServer.Networking.Handling
import XplaneServer.Networking.Connections
import XplaneServer.Registry
import XplaneServer.Networking.Segmentation
import XplaneServer.Snapshot
import XplaneServer.Ticks
import XplaneServer.Protocol
import XplaneServer.Service
import XplaneServer.Undefined
import XplaneServer.Readback
import XplaneServer.Stream
import XplaneServer.Framing
import XplaneServer.Foundation.Numbers
import XplaneServer.Foundation.Nearest
import XplaneServer.Foundation.Formats
import XplaneServer.Foundation.Printing
import XplaneServer.Foundation.Erasing
import XplaneServer.Networking.Buffers
import XplaneServer.Networking.Routing
import XplaneServer.Datas.SetValue
import XplaneServer.Datas.Permission
import XplaneServer.Datas.Arrays
import XplaneServer.Datas.RoundTrip
import XplaneServer.Datas.Registers
import XplaneServer.Datas.SetRequest
import XplaneServer.Networking.Broadcast
import XplaneServer.Networking.Checked
import XplaneServer.Networking.Failures
import XplaneServer.Networking.Startup
import XplaneServer.Networking.UDPConnection
