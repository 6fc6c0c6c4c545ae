import CodeAtlas.Config.Connection
import CodeAtlas.Graph.Statement

/-! # Working with the graph database

Work on the database is a computation that may fail. It depends on how the database replies to
each request, and it leaves a history of what was done. A failure of the database that may pass is
met by trying again.
-/

namespace CodeAtlas.Graph

variable {α : Type} {β : Type}

inductive Event (α : Type) where
  /-- A connection is made. -/
  | connecting (target : Connection)
  /-- The connection is tried out; a failure is given. -/
  | verified (reply : Option Failure)
  | disconnected
  /-- A session is opened, on the named database if there is a name. -/
  | opened (database : Option String)
  | closed
  | ran (statement : Statement α)
  /-- The database fails instead of doing what it is asked for. -/
  | refused (why : Failure)

/-- How the database replies to the requests of each kind that are to come, where nothing stands
for success, and what was done so far. It does all that is asked for beyond the listed replies. -/
structure Database (α : Type) where
  onConnection : List (Option Failure)
  onStatement : List (Option Failure)
  onTransaction : List (Option Failure)
  history : List (Event α)

/-- The database, where nothing was done yet. -/
def Database.fresh (onConnection onStatement onTransaction : List (Option Failure)) :
    Database α :=
  ⟨onConnection, onStatement, onTransaction, []⟩

/-- Work on the database. What was done before a failure stays in the history. -/
abbrev Action (α : Type) := ExceptT Failure (StateM (Database α))

namespace Action

def outcome (x : Action α β) (db : Database α) : Result β × Database α := x.run.run db

def ofResult (r : Result β) : Action α β := ExceptT.mk (pure r)

def note (e : Event α) : Action α Unit :=
  modify fun db => { db with history := db.history ++ [e] }

def connectionReply : Action α (Option Failure) :=
  modifyGet fun db => (db.onConnection.head?.join, { db with onConnection := db.onConnection.tail })

def statementReply : Action α (Option Failure) :=
  modifyGet fun db => (db.onStatement.head?.join, { db with onStatement := db.onStatement.tail })

def transactionReply : Action α (Option Failure) :=
  modifyGet fun db =>
    (db.onTransaction.head?.join, { db with onTransaction := db.onTransaction.tail })

/-- Enters something into the history after the work, whether it fails or not. -/
def followedBy (x : Action α β) (last : Event α) : Action α β :=
  ExceptT.mk do
    let r ← x.run
    modify fun db => { db with history := db.history ++ [last] }
    return r

def inSession (database : Option String) (x : Action α β) : Action α β := do
  note (.opened database)
  followedBy x .closed

def heed (reply : Option Failure) : Action α Unit :=
  match reply with
  | none => return
  | some why => do
    note (.refused why)
    throw why

def execute (s : Statement α) : Action α Unit := do
  heed (← statementReply)
  note (.ran s)

/-- Runs statements as one transaction: all of them, or none. -/
def transaction (statements : List (Statement α)) : Action α Unit := do
  heed (← transactionReply)
  statements.forM fun s => note (.ran s)

/-- Work that is done again, up to a number of times, after a failure that may pass. -/
def retrying : (again : Nat) → Action α β → Action α β
  | 0, x => x
  | again + 1, x =>
    tryCatch x fun why => if why.mayPass then retrying again x else throw why

end Action

/-- How often work on the database is tried, if nothing else is set. -/
def attempts : Nat := 3

/-- Work that is tried a number of times, but once at least. -/
def persistently (x : Action α β) (tries : Nat := attempts) : Action α β :=
  Action.retrying (tries - 1) x

end CodeAtlas.Graph
