import FacilityBooking.Client.Wire
import FacilityBooking.Lib.Retry

/-!
# The client's request loop

`sendRequest`, `receiveResponse` and `sendWithRetry` of the class `Client`. The loop of `sendWithRetry` takes turns with the network,
so it is a machine that stands before a `sendRequest` or before a `receiveResponse`; what the socket does comes from outside. A
send that fails ends the client, like a client that does nothing any more. What is printed is left out.
-/

namespace FacilityBooking.Cpp

namespace Constants

def MAX_RETRIES : Nat := 5

def BUFFER_SIZE : Nat := 1024

def STATUS_SUCCESS : Bytes := literal "status:SUCCESS"

def STATUS_ERROR : Bytes := literal "status:ERROR"

end Constants

/-- What `sendWithRetry` returns: the data of a response, or a text of its own. -/
inductive Returned where
  | response (data : Bytes)
  | failed
  deriving DecidableEq

/-- The string returned. -/
def Returned.text : Returned → Bytes
  | .response data => data
  | .failed => Constants.STATUS_ERROR ++ literal "\nmessage:Request failed after " ++ getBytes (decimal Constants.MAX_RETRIES) ++
      literal " attempts."

/-- Where a client stands: between two calls of `sendWithRetry`, or in an attempt, before its request is sent or before its
response is received. The behaviour is undefined once a null pointer is dereferenced. -/
inductive Phase where
  | idle
  | sending (request : RequestMessage) (attempt : Nat)
  | receiving (request : RequestMessage) (attempt : Nat)
  | undefined
  deriving DecidableEq

/-- A `Client`, with the requests it has made and what `sendWithRetry` has returned for them, in order. -/
structure Client where
  requestID : BitVec 32
  phase : Phase
  requests : List RequestMessage
  returned : List (RequestMessage × Returned)
  deriving DecidableEq

/-- `receiveResponse`, given what `receiveDataFrom` receives, if it does not time out: the response, the empty one for another
attempt; none when the pointer dereferenced is null. -/
def receiveResponse (received : Option Bytes) (expectedRequestID : BitVec 32) : Option Bytes :=
  match received with
  | none => some []
  | some bytes =>
    match JavaDeserializer.deserialize (bytes.take Constants.BUFFER_SIZE) with
    | .error _ => some []
    | .ok none => none
    | .ok (some responseMessage) =>
      if responseMessage.requestID ≠ expectedRequestID then some [] else some responseMessage.data

namespace Client

/-- The constructor. -/
def new : Client := ⟨0, .idle, [], []⟩

/-- An operation: a message with the client's request ID is made and given to `sendWithRetry`. -/
def call (c : Client) (requestType : BitVec 32) (data : Bytes) : Client :=
  { c with
    phase := .sending ⟨requestType, c.requestID, data⟩ 0
    requests := c.requests ++ [⟨requestType, c.requestID, data⟩] }

/-- `sendRequest(request, attempt > 0)`; what is sent is the message serialized. -/
def sendRequest (c : Client) (request : RequestMessage) (attempt : Nat) : Client :=
  { c with
    requestID := if attempt > 0 then c.requestID else c.requestID + 1
    phase := .receiving request attempt }

/-- The rest of an attempt, `receiveResponse` and what follows it. -/
def receive (c : Client) (request : RequestMessage) (attempt : Nat) (received : Option Bytes) : Client :=
  match receiveResponse received request.requestID with
  | none => { c with phase := .undefined }
  | some response =>
    if response ≠ [] then { c with phase := .idle, returned := c.returned ++ [(request, .response response)] }
    else if attempt + 1 < Constants.MAX_RETRIES then { c with phase := .sending request (attempt + 1) }
    else { c with phase := .idle, returned := c.returned ++ [(request, .failed)] }

end Client

/-! ## The loop as a function of the socket -/

/-- What ends the loop of `sendWithRetry`: a response that is not empty, or a null pointer dereferenced. -/
def conclusive (request : RequestMessage) (received : Option Bytes) : Option (Option Bytes) :=
  match receiveResponse received request.requestID with
  | none => some none
  | some response => if response ≠ [] then some (some response) else none

/-- The body of the loop, where `exchange` is what the socket does: it sends the request and receives, or times out. -/
def attempt {σ : Type*} (exchange : RequestMessage → σ → Option Bytes × σ) (request : RequestMessage) (socket : σ) :
    Option (Option Bytes) × σ :=
  (conclusive request (exchange request socket).1, (exchange request socket).2)

/-- What is returned after the loop. -/
def concluded : Option (Option Bytes) → Option Returned
  | some (some data) => some (.response data)
  | some none => none
  | none => some .failed

/-- `sendWithRetry`: nothing is returned when the behaviour is undefined. -/
def sendWithRetry {σ : Type*} (exchange : RequestMessage → σ → Option Bytes × σ) (request : RequestMessage) (socket : σ) :
    Option Returned × σ :=
  let (result, socket) := Retry.run (attempt exchange request) Constants.MAX_RETRIES socket
  (concluded result, socket)

/-- `RequestMessage::ECHO`. -/
def RequestMessage.ECHO : BitVec 32 := 5

/-- `echoMessage`, given the client's request ID. -/
def echoMessage {σ : Type*} (exchange : RequestMessage → σ → Option Bytes × σ) (requestID : BitVec 32) (messageData : Bytes)
    (socket : σ) : Option Returned × σ :=
  sendWithRetry exchange ⟨RequestMessage.ECHO, requestID, messageData⟩ socket

end FacilityBooking.Cpp
