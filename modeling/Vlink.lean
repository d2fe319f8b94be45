import Vlink.Lib.Outcome
import Vlink.Lib.Bytes
import Vlink.Lib.Bitmap
import Vlink.Lib.Net
import Vlink.Noise.Protocol
import Vlink.Noise.Timestamp
import Vlink.Noise.Crypto
import Vlink.Noise.Cookie
import Vlink.Noise.Handshake
import Vlink.Device.NonceFilter
import Vlink.Lib.Runs
import Vlink.Lib.Registry
import Vlink.Device.Monitor
import Vlink.Device.Session
import Vlink.Device.ActiveSession
import Vlink.Noise.Sample
import Vlink.Device.Agreement
import Vlink.Device.Peer
import Vlink.Device.Device
import Vlink.Device.System
import Vlink.Device.View
import Vlink.Device.Provenance
import Vlink.Device.Lifecycle
import Vlink.Device.Rounds
import Vlink.Device.Nonces
import Vlink.Device.Replay
import Vlink.Device.Survival
import Vlink.Device.Handling
import Vlink.Device.Routing
import Vlink.Lib.Ipv4
import Vlink.Lib.Channel
import Vlink.Lib.Map
import Vlink.Lib.Base64
import Vlink.Headlink.Abi
import Vlink.Headlink.Database
import Vlink.Headlink.Secret
import Vlink.Headlink.Registry
import Vlink.Headlink.Handler
import Vlink.Headlink.Server
import Vlink.Headlink.Steps
import Vlink.Headlink.View
import Vlink.Headlink.Upstream
import Vlink.Headlink.Presence
import Vlink.Headlink.Connects
import Vlink.Headlink.Book
import Vlink.Headlink.Addresses
import Vlink.Headlink.Admission
import Vlink.Headlink.Letters
import Vlink.Headlink.Dispatch
import Vlink.Transport.Tcp
import Vlink.Device.Outbox
import Vlink.Transport.Relay
import Vlink.Headlink.Replies
import Vlink.Client.Connect
import Vlink.Noise.Grammar
import Vlink.Noise.Built
import Vlink.Device.Gate
import Vlink.Device.Window
import Vlink.Lib.Framing
import Vlink.Derp.Codec
import Vlink.Frp.Codec
import Vlink.Frp.Stream
import Vlink.Frp.Exchange
import Vlink.Client.Reconnect
import Vlink.Transport.RelayRuns
import Vlink.Headlink.Broadcasts
import Vlink.Derp.Panics
import Vlink.Derp.Client
import Vlink.Headlink.Allocation
import Vlink.Transport.Udp
import Vlink.Transport.Upnp
import Vlink.Device.Timed
import Vlink.Device.Pacing
import Vlink.Device.Attempt
import Vlink.Device.Keepalive
import Vlink.Device.Networks
import Vlink.Transport.Links
import Vlink.Lib.Logged
import Vlink.Device.FilterRange
import Vlink.Headlink.Snowflake
import Vlink.Headlink.Pairs
import Vlink.Headlink.Config
import Vlink.Frp.ConnControl
import Vlink.Device.Quiet
import Vlink.Device.Progress
import Vlink.Device.Exchange
import Vlink.Device.Link
import Vlink.Device.Tunnel
import Vlink.Device.Delivery
import Vlink.Device.Ledger
import Vlink.Device.Integrity
import Vlink.Device.Answers
import Vlink.Client.Configure
import Vlink.Client.Overlay
import Vlink.Headlink.Isolation
import Vlink.Lib.Post
import Vlink.Derp.Hub
