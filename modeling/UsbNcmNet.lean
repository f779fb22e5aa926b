import UsbNcmNet.Lib.Trace
import UsbNcmNet.Lib.Machine
import UsbNcmNet.Lib.Loop
import UsbNcmNet.Lib.Mutex
import UsbNcmNet.Lib.Calls
import UsbNcmNet.Lib.Cbor
import UsbNcmNet.Lib.CborValue
import UsbNcmNet.Lib.Rfc7252
import UsbNcmNet.Coap.Message
import UsbNcmNet.Coap.Server
import UsbNcmNet.Edhoc.Framing
import UsbNcmNet.Edhoc.Access
import UsbNcmNet.Edhoc.Credentials
import UsbNcmNet.Edhoc.Keys
import UsbNcmNet.Edhoc.Responder
import UsbNcmNet.Edhoc.Hash
import UsbNcmNet.Edhoc.Protocol
import UsbNcmNet.Edhoc.Threads
import UsbNcmNet.Board
import UsbNcmNet.Service
import UsbNcmNet.Boot
import UsbNcmNet.Startup
import UsbNcmNet.Host.Client
import UsbNcmNet.Host.Bench
import UsbNcmNet.Host.Program
import UsbNcmNet.Host.Latency
import UsbNcmNet.Host.Cli
import UsbNcmNet.Host.Command
import UsbNcmNet.Link
import UsbNcmNet.Proofs.Packet
import UsbNcmNet.Proofs.Responder
import UsbNcmNet.Proofs.Board
import UsbNcmNet.Proofs.Dispatch
import UsbNcmNet.Proofs.Onoff
import UsbNcmNet.Proofs.Framing
import UsbNcmNet.Proofs.Access
import UsbNcmNet.Proofs.Credentials
import UsbNcmNet.Proofs.Hash
import UsbNcmNet.Proofs.Keys
import UsbNcmNet.Proofs.Handshake
import UsbNcmNet.Proofs.Threads
import UsbNcmNet.Proofs.Protocol
import UsbNcmNet.Proofs.Lifecycle
import UsbNcmNet.Proofs.Session
import UsbNcmNet.Proofs.Reply
import UsbNcmNet.Proofs.Datagram
import UsbNcmNet.Proofs.Answers
import UsbNcmNet.Proofs.Request
import UsbNcmNet.Proofs.Latency
import UsbNcmNet.Proofs.Bench
import UsbNcmNet.Proofs.Program
import UsbNcmNet.Proofs.Identifiers
import UsbNcmNet.Proofs.Led
import UsbNcmNet.Proofs.Clear
import UsbNcmNet.Proofs.Command
import UsbNcmNet.Proofs.EndToEnd
import UsbNcmNet.Proofs.Routes
import UsbNcmNet.Proofs.Gpio
import UsbNcmNet.Proofs.Boot
import UsbNcmNet.Proofs.Schedules
import UsbNcmNet.Proofs.Startup
import UsbNcmNet.Proofs.Link
import UsbNcmNet.Proofs.Agreement
import UsbNcmNet.Proofs.Recovery
import UsbNcmNet.Proofs.Sessions
import UsbNcmNet.Protected
import UsbNcmNet.Proofs.Window
import UsbNcmNet.Proofs.Conversation
import UsbNcmNet.Proofs.Protected
import UsbNcmNet.Proofs.Integrity
