import CodeAtlas.Graph.Database

/-! # Connecting to the graph database

A connection counts once it was tried out. One that fails is closed before the next is made, unless
the user interrupts the trial.
-/

namespace CodeAtlas.Graph

variable {α : Type}

def attempt (c : Connection) : Action α Unit := do
  Action.note (.connecting c)
  let reply ← Action.connectionReply
  Action.note (.verified reply)
  match reply with
  | none => return
  | some .interrupted => throw .interrupted
  | some why => do
    Action.note .disconnected
    throw why

/-- Connects to the database within a number of attempts. A failure of the database, or of the
network, is that there is no connection. -/
def connectWithin (tries : Nat) (c : Connection) : Action α Unit :=
  tryCatch (persistently (attempt c) tries) fun why =>
    if why.isOfDatabase || why.isOfSystem then throw (.noConnection c.uri tries) else throw why

def connect (c : Connection) : Action α Unit := connectWithin attempts c

def reach (tries : Nat) (resolved : Result Connection) : Action α Unit := do
  connectWithin tries (← Action.ofResult resolved)

def disconnect : Action α Unit := Action.note .disconnected

end CodeAtlas.Graph
