import FacilityBooking.System

/-!
# Sessions

Clients come and go before a server that stays: a session is a new `Client`, and `bind(0)` puts its socket where no open session
receives, though an earlier one may have received there. The server sees datagrams; of which operation each is a request, and which
state it found, is written down beside it.
-/

namespace FacilityBooking

/-- The longest datagram that `sendto` sends. -/
def datagramLimit : Nat := 65507

/-- An operation: the session that makes it, and the number of operations that the session has made before. -/
structure Call (ι : Type) where
  session : ι
  number : Nat

/-- A request on its way to the server, and the operation it is made for. -/
structure Letter (ι : Type) where
  call : Call ι
  request : Cpp.RequestMessage

/-- A letter that the server has received: the state it found, and what arrived. -/
structure Reception (ι : Type) where
  letter : Letter ι
  server : ServerState
  event : Event

/-- A session is opened once and closed once. -/
inductive Stage where
  | unopened
  | opened
  | closed
  deriving DecidableEq

/-- The clients, the server and the network, how far each session is, the letters sent, and those received, in order. -/
structure Sessions (ι : Type) where
  system : System ι
  stage : ι → Stage
  letters : List (Letter ι)
  receptions : List (Reception ι)

/-- The datagram that a request is sent in. -/
def Letter.datagram {ι : Type} (endpoint : ι → Endpoint) (letter : Letter ι) : Datagram :=
  ⟨(endpoint letter.call.session).address, (endpoint letter.call.session).port, Cpp.JavaSerializer.serialize (some letter.request)⟩

/-- A datagram as `main` receives it: what its buffer does not hold is lost. -/
def Datagram.received (d : Datagram) (now : BitVec 64) (uuid : UUID) : Event :=
  ⟨⟨d.address, d.port, d.bytes.take bufferLength⟩, now, uuid⟩

namespace Sessions

variable {ι : Type}

/-- No session yet, and a server after `init()` that checks its history. -/
def init : Sessions ι := ⟨.init true, fun _ => .unopened, [], []⟩

/-- A letter is sent. -/
def post (endpoint : ι → Endpoint) (S : Sessions ι) (letter : Letter ι) : Sessions ι :=
  { S with
    system := S.system.post (letter.datagram endpoint)
    letters := S.letters ++ [letter] }

/-- A letter arrives. -/
def serve (Γ : Jvm) (S : Sessions ι) (letter : Letter ι) (e : Event) : Sessions ι :=
  { S with
    system := S.system.serve Γ e
    receptions := S.receptions ++ [⟨letter, S.system.server, e⟩] }

variable [DecidableEq ι]

/-- How far a session is, changed. -/
def withStage (S : Sessions ι) (i : ι) (stage : Stage) : Sessions ι := { S with stage := Function.update S.stage i stage }

/-- The client of a session replaced. -/
def withClient (S : Sessions ι) (i : ι) (c : Cpp.Client) : Sessions ι := { S with system := S.system.withClient i c }

/-- What can happen next. A session may be closed at any moment, and does nothing more; one whose request is too long for a datagram
can only be closed. -/
inductive Step (Γ : Jvm) (endpoint : ι → Endpoint) (S : Sessions ι) : Sessions ι → Prop
  | opens (i : ι) (hstage : S.stage i = .unopened) (hfree : ∀ j, S.stage j = .opened →
      ¬((endpoint j).address.address = (endpoint i).address.address ∧ (endpoint j).port = (endpoint i).port)) :
    Step Γ endpoint S (S.withStage i .opened)
  | closes (i : ι) (hstage : S.stage i = .opened) : Step Γ endpoint S (S.withStage i .closed)
  | call (i : ι) (requestType : BitVec 32) (data : Bytes) (hstage : S.stage i = .opened)
    (hphase : (S.system.clients i).phase = .idle) :
    Step Γ endpoint S (S.withClient i ((S.system.clients i).call requestType data))
  | send (i : ι) (request : Cpp.RequestMessage) (attempt : Nat) (hstage : S.stage i = .opened)
    (hphase : (S.system.clients i).phase = .sending request attempt)
    (hsize : (Cpp.JavaSerializer.serialize (some request)).length ≤ datagramLimit) :
    Step Γ endpoint S ((S.withClient i ((S.system.clients i).sendRequest request attempt)).post endpoint
      ⟨⟨i, (S.system.clients i).requests.length - 1⟩, request⟩)
  | serve (letter : Letter ι) (hletter : letter ∈ S.letters) (now : BitVec 64) (uuid : UUID) (hrunning : S.system.running = true) :
    Step Γ endpoint S (S.serve Γ letter ((letter.datagram endpoint).received now uuid))
  | receive (i : ι) (request : Cpp.RequestMessage) (attempt : Nat) (d : Datagram) (hstage : S.stage i = .opened)
    (hphase : (S.system.clients i).phase = .receiving request attempt) (hd : d ∈ S.system.replies)
    (haddress : d.address.address = (endpoint i).address.address) (hport : d.port = (endpoint i).port) :
    Step Γ endpoint S (S.withClient i ((S.system.clients i).receive request attempt (some d.bytes)))
  | timeout (i : ι) (request : Cpp.RequestMessage) (attempt : Nat) (hstage : S.stage i = .opened)
    (hphase : (S.system.clients i).phase = .receiving request attempt) :
    Step Γ endpoint S (S.withClient i ((S.system.clients i).receive request attempt none))

/-- The sessions that any interleaving of steps leads to. -/
abbrev Reachable (Γ : Jvm) (endpoint : ι → Endpoint) : Sessions ι → Prop := Relation.ReflTransGen (Step Γ endpoint) init

end Sessions

end FacilityBooking
