/-
# Assay.Container.Holdings -- who answers for which client

A holder is a place that may hold a client and answers for the release of its
container: it releases what it holds before it holds something else, and when it
goes.  `Holdings` are named holders over a table of clients.  A client is held by
its place in the table, so that it can be told who holds it and what became of it.
-/
import Assay.Container.Client

namespace Assay.Container

set_option autoImplicit false

open Bytes

/-- Named holders over a table of clients. -/
structure Holdings where
  clients : List Client
  /-- The place of the client that each holder holds; none where it holds nothing. -/
  holders : KeyMap (Option Nat)

/-- What can be done with holders.  A holder that is named for the first time comes
into being without a client. -/
inductive Handover where
  /-- Let a holder take on a new client. -/
  | acquire (holder : Bytes) (client : Client)
  /-- Hand what `source` holds to `target`. -/
  | move (target source : Bytes)
  /-- Hand what `source` holds to `target` by way of a holder without a name. -/
  | moveThrough (target source : Bytes)
  /-- Release what a holder holds; it goes on holding it. -/
  | release (holder : Bytes)
  /-- Let a holder go. -/
  | drop (holder : Bytes)

namespace Holdings

def empty : Holdings :=
  ⟨[], ∅⟩

/-- The place of the client that a holder holds. -/
def held? (holdings : Holdings) (holder : Bytes) : Option Nat :=
  (holdings.holders.get? holder).getD none

/-- The client that a holder holds. -/
def client? (holdings : Holdings) (holder : Bytes) : Option Client :=
  (holdings.held? holder).bind fun place => holdings.clients[place]?

/-- Let a holder hold the client at a place, or nothing. -/
def hold (holdings : Holdings) (holder : Bytes) (place : Option Nat) : Holdings :=
  { holdings with holders := holdings.holders.insert holder place }

/-- Release what a holder holds. -/
def releaseHeld (programs : Programs) (holdings : Holdings) (holder : Bytes) : Act Holdings := do
  match holdings.held? holder with
  | none => return holdings
  | some place =>
      match holdings.clients[place]? with
      | none => return holdings
      | some client =>
          return { holdings with clients := holdings.clients.set place (← client.release programs) }

/-- Let a holder hold the client at a place, or nothing, after releasing what it held. -/
def replace (programs : Programs) (holdings : Holdings) (holder : Bytes) (place : Option Nat) :
    Act Holdings := do
  return (← holdings.releaseHeld programs holder).hold holder place

/-- Do one thing with holders.  Moving to oneself changes nothing. -/
def step (programs : Programs) (holdings : Holdings) : Handover → Act Holdings
  | .acquire holder client =>
      replace programs { holdings with clients := holdings.clients ++ [client] } holder
        (some holdings.clients.length)
  | .move target source =>
      if target = source then return holdings.hold target (holdings.held? target)
      else
        let place := holdings.held? source
        (holdings.hold source none).replace programs target place
  | .moveThrough target source =>
      let place := holdings.held? source
      (holdings.hold source none).replace programs target place
  | .release holder => do
      let holdings ← holdings.releaseHeld programs holder
      return holdings.hold holder (holdings.held? holder)
  | .drop holder => do
      let holdings ← holdings.releaseHeld programs holder
      return { holdings with holders := holdings.holders.erase holder }

/-- Do several things in order. -/
def run (programs : Programs) : Holdings → List Handover → Act Holdings
  | holdings, [] => return holdings
  | holdings, handover :: rest => do run programs (← holdings.step programs handover) rest

end Holdings

end Assay.Container
