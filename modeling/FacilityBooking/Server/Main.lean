import FacilityBooking.Server.Server

/-!
# `main`

What `main` of the server takes from its arguments, and its receive loop with the switch that makes it drop every other datagram.
Opening the socket, and what ends the loop but an exception of `handleRequest`, are left out.
-/

namespace FacilityBooking

/-- `Boolean.parseBoolean`. -/
def parseBoolean (s : Text) : Bool := decide (s.map Char.toLower = "true".toList)

/-- The static variables of `Server`, with the two that only `main` reads. -/
structure Main where
  DROP_REQUEST : Bool
  DROP : Bool
  server : ServerState

/-- What is left of a datagram: the variables, whether the loop still runs, and what is sent. -/
structure Round where
  main : Main
  running : Bool
  sent : List Datagram

namespace Main

/-- The variables when the loop begins. -/
def start (args : List Text) : Main where
  DROP_REQUEST := if args.length > 1 then (args[1]?.map parseBoolean).getD false else false
  DROP := false
  server := .init (decide ((args[0]?.getD "default".toList) ≠ "at-least-once".toList))

/-- A round of the loop: the datagram is dropped, or handled and answered. -/
def round (Γ : Jvm) (main : Main) (e : Event) : Round :=
  let main := { main with DROP := if main.DROP_REQUEST then !main.DROP else main.DROP }
  if main.DROP then ⟨main, true, []⟩
  else
    let outcome := handleRequest Γ main.server e
    { main := { main with server := outcome.state }
      running := outcome.result.isOk
      sent := outcome.sent ++
        match outcome.result with
        | .ok responseMessage => reply Γ e responseMessage
        | .error _ => [] }

/-- The loop over the datagrams that arrive. -/
def loop (Γ : Jvm) : Main → List Event → Round
  | main, [] => ⟨main, true, []⟩
  | main, e :: es =>
    let first := main.round Γ e
    if first.running then
      let rest := loop Γ first.main es
      { rest with sent := first.sent ++ rest.sent }
    else first

end Main

end FacilityBooking
