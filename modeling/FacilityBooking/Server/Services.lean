import FacilityBooking.Server.Models

/-!
# Requests, the request history, monitors and the facilities by name

`Operation`, `RequestMessage` and the classes of `Server/services`. The clock a datagram is handled at and the random UUID that
handling it may draw come with the datagram.
-/

namespace FacilityBooking

/-- `Operation`. -/
inductive Operation where
  | NONE | READ | WRITE | UPDATE | DELETE | MONITOR | ECHO | RATING
  deriving DecidableEq, Repr

namespace Operation

def values : List Operation := [.NONE, .READ, .WRITE, .UPDATE, .DELETE, .MONITOR, .ECHO, .RATING]

def getOpCode : Operation → BitVec 32
  | .NONE => -1
  | .READ => 0
  | .WRITE => 1
  | .UPDATE => 2
  | .DELETE => 3
  | .MONITOR => 4
  | .ECHO => 5
  | .RATING => 6

def fromInt (opCode : BitVec 32) : Operation :=
  (values.find? (fun op => decide (op.getOpCode = opCode))).getD .NONE

end Operation

/-- `RequestMessage`. -/
structure RequestMessage where
  requestType : BitVec 32
  requestID : BitVec 32
  data : Option Text
  deriving DecidableEq, Repr

namespace RequestMessage

def getOperation (m : RequestMessage) : Operation := Operation.fromInt m.requestType

/-- `message.toString()`. -/
def toText (m : RequestMessage) : Text :=
  "RequestMessage: ".toList ++ decimal m.requestType.toInt ++ ' ' :: decimal m.requestID.toInt ++ ' ' :: orNull m.data

end RequestMessage

/-- `InetAddress`: the bytes of the address, which `equals` compares, and the text of `getHostAddress`. The address of a received
packet has no host name. -/
structure InetAddress where
  address : Bytes
  hostAddress : Text
  deriving DecidableEq, Repr

/-- `address.toString()`. -/
def InetAddress.toText (a : InetAddress) : Text := '/' :: a.hostAddress

/-- A datagram: the sender's address and port (the receiver's, for one the server sends), and its bytes. -/
structure Datagram where
  address : InetAddress
  port : Nat
  bytes : Bytes
  deriving DecidableEq, Repr

/-- `address.toString() + ":" + port`, the user a datagram comes from. -/
def Datagram.userInfo (d : Datagram) : Text := d.address.toText ++ ':' :: decimal d.port

/-- A datagram as the server receives it, with what `System.currentTimeMillis()` returns while it is handled and what
`UUID.randomUUID()` returns if it is called. -/
structure Event extends Datagram where
  now : BitVec 64
  uuid : UUID
  deriving DecidableEq

/-! ## The request history -/

/-- `RequestInfo`. -/
structure RequestInfo where
  requestMessage : RequestMessage
  clientAddress : InetAddress
  clientPort : Nat
  responseMessage : RequestMessage
  deriving DecidableEq, Repr

/-- What the history tells requests apart by: the request ID, the sender's address and its port. -/
structure RequestKey where
  requestID : BitVec 32
  address : Bytes
  port : Nat
  deriving DecidableEq

def RequestInfo.key (r : RequestInfo) : RequestKey := ⟨r.requestMessage.requestID, r.clientAddress.address, r.clientPort⟩

/-- `requestHistory.containsRequest(requestInfo)`, for a request of that ID from that address and port. -/
def containsRequest (requestHistory : List RequestInfo) (requestID : BitVec 32) (clientAddress : InetAddress)
    (clientPort : Nat) : Option RequestInfo :=
  requestHistory.find? (fun r => decide (r.requestMessage.requestID = requestID) &&
    (decide (r.clientAddress.address = clientAddress.address) && decide (r.clientPort = clientPort)))

/-! ## Monitors -/

/-- `Monitor`. -/
structure Monitor where
  resourceName : Text
  requestID : BitVec 32
  clientAddress : InetAddress
  clientPort : Nat
  createdTime : BitVec 64
  monitorInterval : BitVec 32
  deriving DecidableEq, Repr

/-- `monitor.ifExpired()`: the product is an `int`, the difference a `long`. -/
def Monitor.ifExpired (m : Monitor) (currentTime : BitVec 64) : Bool :=
  ((m.monitorInterval * 1000).signExtend 64).slt (currentTime - m.createdTime)

/-- `removeExpiredMonitors`: what is left. -/
def removeExpiredMonitors (monitors : List Monitor) (currentTime : BitVec 64) : List Monitor :=
  monitors.filter (fun m => !m.ifExpired currentTime)

/-- `notifyAll`: the datagrams that are given to `socket.send`, one to each monitor of the facility. One that the socket refuses, as it does
those over the size that UDP has, is logged and not sent, which is no other than one that the network drops. -/
def notifyAll (monitors : List Monitor) (facilityName message : Text) : List Datagram :=
  let notificationMessage : RequestMessage := ⟨Operation.READ.getOpCode, 0, some message⟩
  (monitors.filter (fun m => decide (m.resourceName = facilityName))).map
    (fun m => ⟨m.clientAddress, m.clientPort, getBytes notificationMessage.toText⟩)

/-! ## The facilities -/

/-- `facilityFactory.getFacility(name)`. -/
def getFacility (facilities : List Facility) (name : Text) : Option Facility :=
  facilities.find? (fun f => decide (f.name = name))

/-- The facilities after the one that `getFacility(name)` returns has changed. -/
def modifyFacility (facilities : List Facility) (name : Text) (change : Facility → Facility) : List Facility :=
  match facilities with
  | [] => []
  | f :: rest => if f.name = name then change f :: rest else f :: modifyFacility rest name change

end FacilityBooking
