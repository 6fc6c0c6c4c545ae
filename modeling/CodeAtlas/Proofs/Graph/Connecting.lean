import CodeAtlas.Graph.Connect
import CodeAtlas.Proofs.Graph.Accounting

/-! # Connections that are made and closed

Connecting makes one connection for each reply that it takes. Every one but the last is closed
before the next is made; the last one stays open where it is good, and also where the user
interrupts its trial.
-/

namespace CodeAtlas.Graph

open CodeAtlas.Graph.Action

variable {α : Type}

def Event.link? : Event α → Option Bool
  | .connecting _ => some true
  | .disconnected => some false
  | _ => none

def Database.links (db : Database α) : List Bool := db.history.filterMap Event.link?

/-- So many connections, each of them closed before the next is made. -/
def closings (n : ℕ) : List Bool := (List.replicate n [true, false]).flatten

theorem closings_succ (n : ℕ) : closings (n + 1) = closings n ++ [true, false] := by
  simp [closings, List.replicate_succ']

theorem closings_append_ne (m n : ℕ) : closings m ++ [true] ≠ closings n := by
  intro h
  have hlength := congrArg List.length h
  simp [closings] at hlength
  omega

def trialEvents (target : Connection) : Option Failure → List (Event α)
  | none => [.connecting target, .verified none]
  | some .interrupted => [.connecting target, .verified (some .interrupted)]
  | some why => [.connecting target, .verified (some why), .disconnected]

def trialLinks : Option Failure → List Bool
  | none | some .interrupted => [true]
  | some _ => [true, false]

theorem filterMap_trialEvents (target : Connection) (reply : Option Failure) :
    (trialEvents target reply : List (Event α)).filterMap Event.link? = trialLinks reply := by
  unfold trialEvents
  split
  · rfl
  · rfl
  · next why hwhy => cases why <;> first | rfl | exact absurd rfl hwhy

theorem trialLinks_of_ne {why : Failure} (h : why ≠ .interrupted) :
    trialLinks (some why) = [true, false] := by
  cases why <;> first | rfl | exact absurd rfl h

def Database.tried (target : Connection) (db : Database α) (replies : List (Option Failure)) :
    Database α :=
  { db with
    onConnection := db.onConnection.drop replies.length
    history := db.history ++ replies.flatMap (trialEvents target) }

theorem Database.tried_append (target : Connection) (db : Database α)
    (rs rs' : List (Option Failure)) :
    db.tried target (rs ++ rs') = (db.tried target rs).tried target rs' := by
  simp [Database.tried]

theorem Database.links_tried (target : Connection) (db : Database α)
    (replies : List (Option Failure)) :
    (db.tried target replies).links = db.links ++ replies.flatMap trialLinks := by
  simp only [Database.links, Database.tried, List.filterMap_append, List.filterMap_flatMap,
    filterMap_trialEvents]

theorem foldl_tried (target : Connection) (db : Database α) (replies : List (Option Failure)) :
    replies.foldl (fun db reply => db.tried target [reply]) db = db.tried target replies :=
  foldl_singleton (by simp [Database.tried]) (Database.tried_append target) replies db

theorem isAttempt_attempt (target : Connection) : IsAttempt (attempt target : Action α Unit)
    (·.onConnection) fun db reply => db.tried target [reply] where
  outcome db := by
    have hreply (db : Database α) : (connectionReply : Action α _).outcome db =
        (.ok db.onConnection.head?.join, { db with onConnection := db.onConnection.tail }) := rfl
    simp only [attempt, outcome_bind, outcome_note, hreply]
    cases db.onConnection.head?.join with
    | none => simp [answer, Database.tried, trialEvents]
    | some why => cases why <;> simp [answer, Database.tried, trialEvents, outcome_bind]
  script db reply := by simp [Database.tried]

structure IsConnecting (tries : ℕ) (target : Connection) (db : Database α)
    (retried : List Failure) (reply : Option Failure) (out : Result Unit × Database α) : Prop where
  persistent : IsPersistent tries retried reply
  script : upcoming db.onConnection (retried.length + 1) = retried.map some ++ [reply]
  connected : out.1 = .ok () ↔ reply = none
  /-- A failure of the database, or of the system, is that there is no connection. -/
  failed : ∀ why ∈ reply, out.1 = .error
    (if why.isOfDatabase || why.isOfSystem then .noConnection target.uri tries else why)
  links : out.2.links = db.links ++ closings retried.length ++ trialLinks reply
  onStatement : out.2.onStatement = db.onStatement

theorem flatMap_trialLinks {retried : List Failure} (h : ∀ why ∈ retried, why.mayPass = true) :
    (retried.map some).flatMap trialLinks = closings retried.length := by
  induction retried with
  | nil => rfl
  | cons why retried ih =>
    obtain ⟨hwhy, hretried⟩ := List.forall_mem_cons.mp h
    have hne : why ≠ .interrupted := by
      rintro rfl
      cases hwhy
    rw [List.map_cons, List.flatMap_cons, trialLinks_of_ne hne, ih hretried]
    rfl

theorem exists_isConnecting {tries : ℕ} (htries : 0 < tries) (target : Connection)
    (db : Database α) : ∃ retried reply,
      IsConnecting tries target db retried reply ((connectWithin tries target).outcome db) := by
  obtain ⟨retried, reply, hpersistent, hscript, hout⟩ :=
    (isAttempt_attempt target).exists_outcome_persistently htries db
  rw [foldl_tried] at hout
  have hlinks : (db.tried target (retried.map some ++ [reply])).links =
      db.links ++ closings retried.length ++ trialLinks reply := by
    rw [Database.links_tried, List.flatMap_append, flatMap_trialLinks hpersistent.mayPass,
      List.flatMap_singleton, List.append_assoc]
  rw [connectWithin, outcome_tryCatch, hout]
  refine ⟨retried, reply, ?_⟩
  cases reply with
  | none => exact ⟨hpersistent, hscript, by simp [answer], nofun, hlinks, rfl⟩
  | some why =>
    simp only [answer]
    split
    · next hof =>
      refine ⟨hpersistent, hscript, by simp, ?_, hlinks, rfl⟩
      rintro _ ⟨⟩
      rw [if_pos hof]
      rfl
    · next hof =>
      refine ⟨hpersistent, hscript, by simp, ?_, hlinks, rfl⟩
      rintro _ ⟨⟩
      rw [if_neg hof]
      rfl

theorem outcome_execute (s : Statement α) (db : Database α) : (execute s).outcome db =
    (answer db.onStatement.head?.join,
      { db with
        onStatement := db.onStatement.tail
        history := db.history ++ [match db.onStatement.head?.join with
          | none => .ran s
          | some why => .refused why] }) := by
  have hreply : (statementReply : Action α _).outcome db =
      (.ok db.onStatement.head?.join, { db with onStatement := db.onStatement.tail }) := rfl
  rw [execute, outcome_bind, hreply]
  cases db.onStatement.head?.join with
  | none => simp [heed, answer]
  | some why => simp [heed, outcome_bind, answer]

theorem outcome_forM_execute (ss : List (Statement α)) (db : Database α) :
    ((forM ss execute).outcome db).2.links = db.links ∧
      (((forM ss execute).outcome db).1 = .ok () ↔
        ∀ reply ∈ upcoming db.onStatement ss.length, reply = none) := by
  induction ss generalizing db with
  | nil => simp [upcoming]
  | cons s ss ih =>
    rw [List.forM_cons, outcome_bind, outcome_execute, List.length_cons, upcoming]
    cases hreply : db.onStatement.head?.join with
    | none =>
      obtain ⟨hlinks, hok⟩ := ih { db with
        onStatement := db.onStatement.tail, history := db.history ++ [.ran s] }
      refine ⟨hlinks.trans ?_, hok.trans ?_⟩
      · simp [Database.links, Event.link?]
      · simp
    | some why => simp [answer, Database.links, Event.link?]

theorem outcome_prepare (database : Option String) (db : Database α) :
    ((prepare database).outcome db).2.links = db.links ∧
      (((prepare database).outcome db).1 = .ok () ↔
        ∀ reply ∈ upcoming db.onStatement (Statement.preparation (α := α)).length,
          reply = none) := by
  rw [prepare, inSession, outcome_bind, outcome_note]
  simp only [outcome_followedBy]
  obtain ⟨hlinks, hok⟩ := outcome_forM_execute Statement.preparation
    { db with history := db.history ++ [.opened database] }
  refine ⟨?_, hok⟩
  have hopened : ({ db with history := db.history ++ [.opened database] } : Database α).links =
      db.links := by simp [Database.links, Event.link?]
  rw [hopened] at hlinks
  rw [← hlinks]
  simp [Database.links, Event.link?]

/-- Storing a file result makes no connection and closes none. -/
theorem Account.links_events (a : Account) (database : Option String) :
    (a.events database).filterMap Event.link? = [] := by
  rw [Account.events, List.filterMap_flatMap, List.flatMap_eq_nil_iff]
  rintro (_ | why) _
  · refine List.filterMap_eq_nil_iff.mpr ?_
    simp only [attemptEvents, List.mem_cons, List.mem_append, List.mem_map, List.not_mem_nil,
      or_false]
    rintro e (rfl | ⟨s, -, rfl⟩ | rfl) <;> rfl
  · rfl

end CodeAtlas.Graph
