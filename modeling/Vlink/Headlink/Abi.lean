import Mathlib.Data.Int.Notation
import Vlink.Lib.Ipv4

set_option autoImplicit false

/-!
# The messages between clients and the head server

`vlink-core/abi`: what a client sends to the head server (`ToServer`) and what the server sends to
a client (`ToClient`). The identifier of a message is a counter of 64 bits that starts at zero. It
takes `2 ^ 64` messages on one connection to exhaust it, so it is a natural number here, which does
not wrap around.

## Main definitions

* `Vlink.Headlink.ToServerData`, `ToServer` — requests.
* `Vlink.Headlink.ToClientData`, `ToClient` — replies, and messages the server sends on its own.
-/

namespace Vlink.Headlink

/-! ## Common messages -/

/-- `RequireReply`. -/
structure RequireReply where
  src : String
  proto : String
  server : String
deriving DecidableEq

/-- `ExtraEndpoint`. -/
structure ExtraEndpoint where
  proto : String
  endpoint : String
deriving DecidableEq

/-! ## To the server -/

/-- `ReqHandshake`. -/
structure ReqHandshake where
  version : UInt32
  pubKey : String
  token : Option String
  sign : String
deriving DecidableEq

/-- `PeerForward`. The only data that can be forwarded is a `RequireReply`. -/
structure PeerForward where
  targetPubKey : String
  data : Option RequireReply
deriving DecidableEq

/-- `PeerEnter`. -/
structure PeerEnter where
  ip : String
  endpointAddr : Option String
  port : UInt32
  extraEndpoints : List ExtraEndpoint
deriving DecidableEq

/-- `DevHandshakeComplete`. -/
structure DevHandshakeComplete where
  targetPubKey : String
  proto : String
deriving DecidableEq

/-- `ToServerData`. -/
inductive ToServerData where
  | handshake (data : ReqHandshake)
  | reqConfig
  | peerForward (data : PeerForward)
  | peerEnter (data : PeerEnter)
  | peerLeave
  | peerChange
  | peerMessage
  | peerReport
  | updateExtraEndpoint (data : ExtraEndpoint)
  | devHandshakeComplete (data : DevHandshakeComplete)
deriving DecidableEq

/-- `ToServer`. -/
structure ToServer where
  id : ℕ
  toServerData : Option ToServerData
deriving DecidableEq

/-! ## To a client -/

/-- `ToClientError`. -/
structure ToClientError where
  code : Int32
  msg : String
deriving DecidableEq

/-- `RespServerInfo`. -/
structure RespServerInfo where
  version : String
  key : String
  desc : Option String
deriving DecidableEq

/-- `RespHandshake`. -/
structure RespHandshake where
  success : Bool
  msg : Option String
deriving DecidableEq

/-- `ConType`. -/
inductive ConType where
  | udp
deriving DecidableEq

/-- `ConnectionMode`. -/
inductive ConnectionMode where
  | active
  | passive
  | bidirectional
  | none
deriving DecidableEq

/-- `BcPeerEnter`. -/
structure BcPeerEnter where
  pubKey : String
  ip : String
  endpointAddr : Option String
  port : UInt32
  lastConType : Option ConType
  mode : ConnectionMode
  isOnline : Bool
deriving DecidableEq

/-- `BcPeerLevel`. -/
structure BcPeerLevel where
  pubKey : String
deriving DecidableEq

/-- `BcUpdateExtraEndpoint`. -/
structure BcUpdateExtraEndpoint where
  pubKey : String
  proto : String
  endpoint : String
deriving DecidableEq

/-- `ExtraTransport`. -/
structure ExtraTransport where
  proto : String
  params : String
deriving DecidableEq

/-- `PeerExtraTransport`. -/
structure PeerExtraTransport where
  targetPubKey : String
  proto : String
  endpoint : String
  index : Int32
deriving DecidableEq

/-- `RespConfig`. -/
structure RespConfig where
  networkId : ℤ
  address : Ipv4Addr
  mask : ℕ
  network : Ipv4Addr
  port : UInt32
  ipv6Addr : Option String
  peers : List BcPeerEnter
  extraTransports : List ExtraTransport
  peerExtraTransports : List PeerExtraTransport
deriving DecidableEq

/-- `ToClientData`. -/
inductive ToClientData where
  | error (data : ToClientError)
  | respServerInfo (data : RespServerInfo)
  | respHandshake (data : RespHandshake)
  | respConfig (data : RespConfig)
  | peerEnter (data : BcPeerEnter)
  | peerLeave (data : BcPeerLevel)
  | requireReply (data : RequireReply)
  | updateExtraEndpoint (data : BcUpdateExtraEndpoint)
deriving DecidableEq

/-- `ToClient`. The server always fills in the data. -/
structure ToClient where
  id : ℕ
  toClientData : ToClientData
deriving DecidableEq

end Vlink.Headlink
