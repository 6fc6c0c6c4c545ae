/-! # The context of log records

Every log record carries the identifier of the run and the phase that the run is in. Phases nest;
on leaving a phase the run is in the one that it was in before.
-/

namespace CodeAtlas.Log

/-- What a record shows while there is no run or no phase. -/
def unset : String := "-"

def recordFormat : String :=
  "%(asctime)s | %(levelname)s | run_id=%(run_id)s | phase=%(phase)s | " ++
    "%(threadName)s | %(name)s | %(message)s"

def informational : Int := 20

def warning : Int := 30

/-- What writes records out: how many filters add the context, and the form of a record if it was
chosen. -/
structure Handler where
  contextFilters : Nat
  format : Option String
  deriving DecidableEq, Repr

def Handler.plain : Handler := ⟨0, none⟩

/-- Makes the handler add the context, unless it does already. -/
def Handler.withContext (h : Handler) : Handler :=
  if h.contextFilters = 0 then { h with contextFilters := 1 } else h

structure Context where
  runId : String
  /-- The phases that the run is in, the innermost one first. -/
  phases : List String
  handlers : List Handler
  level : Int
  /-- The level of records of the graph database, which is never below that of warnings. -/
  databaseLevel : Int
  deriving DecidableEq, Repr

namespace Context

def initial (handlers : Nat) : Context :=
  ⟨unset, [], .replicate handlers .plain, warning, warning⟩

def phase (c : Context) : String := c.phases.headD unset

def record (c : Context) : String × String := (c.runId, c.phase)

def setRunId (c : Context) (given : Option String) (fresh : String) : Context :=
  match given with
  | some id => { c with runId := if id.isEmpty then fresh else id }
  | none => { c with runId := fresh }

def enter (c : Context) (phase : String) : Context := { c with phases := phase :: c.phases }

def leave (c : Context) : Context := { c with phases := c.phases.tail }

/-- Sets the level and the form of records, and makes every handler add the context. A handler is
added if there is none. -/
def configure (c : Context) (level : Int) : Context :=
  let handlers := if c.handlers.isEmpty then [.plain] else c.handlers
  { c with
    handlers := handlers.map fun h => { h.withContext with format := some recordFormat }
    level := level
    databaseLevel := max level warning }

end Context

end CodeAtlas.Log
