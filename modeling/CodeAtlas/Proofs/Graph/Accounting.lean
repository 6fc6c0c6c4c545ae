import CodeAtlas.Proofs.Graph.Attempts
import CodeAtlas.Proofs.Graph.Subgraph

/-! # Accounts of what was stored

Storing file results is accounted for result by result: how often it was tried, what the database
replied, and what was done in the session of each attempt. The counts of a run are those over its
accounts.
-/

namespace CodeAtlas.Graph

open CodeAtlas.Graph.Action

section Sessions

variable {α : Type} (database : Option String) (ss : List (Statement α))

def attemptEvents : Option Failure → List (Event α)
  | none => .opened database :: (ss.map .ran ++ [.closed])
  | some why => [.opened database, .refused why, .closed]

def Database.after (db : Database α) (replies : List (Option Failure)) : Database α :=
  { db with
    onTransaction := db.onTransaction.drop replies.length
    history := db.history ++ replies.flatMap (attemptEvents database ss) }

variable (db : Database α)

theorem Database.after_append (rs rs' : List (Option Failure)) :
    db.after database ss (rs ++ rs') = (db.after database ss rs).after database ss rs' := by
  simp [Database.after]

theorem outcome_session : (inSession database (transaction ss)).outcome db =
    (answer db.onTransaction.head?.join,
      db.after database ss [db.onTransaction.head?.join]) := by
  have hreply (db : Database α) : (transactionReply : Action α _).outcome db =
      (.ok db.onTransaction.head?.join, { db with onTransaction := db.onTransaction.tail }) := rfl
  rw [inSession, outcome_bind, outcome_note]
  simp only [outcome_followedBy, transaction, outcome_bind, hreply]
  cases db.onTransaction.head?.join with
  | none => simp [heed, outcome_forM_note, answer, Database.after, attemptEvents]
  | some why => simp [heed, outcome_bind, answer, Database.after, attemptEvents]

theorem isAttempt_session : IsAttempt (inSession database (transaction ss)) (·.onTransaction)
    fun db reply => db.after database ss [reply] where
  outcome := outcome_session database ss
  script db reply := by simp [Database.after]

theorem foldl_after (replies : List (Option Failure)) :
    replies.foldl (fun db reply => db.after database ss [reply]) db =
      db.after database ss replies :=
  foldl_singleton (by simp [Database.after]) (Database.after_append database ss) replies db

end Sessions

structure Account where
  result : FileResult String
  /-- The failures that were met by trying again. -/
  retried : List Failure
  /-- The reply to the last attempt. -/
  reply : Option Failure

namespace Account

def replies (a : Account) : List (Option Failure) := a.retried.map some ++ [a.reply]

def isWritten (a : Account) : Bool := a.reply.isNone

def payload (a : Account) : Payload String := payloadOf a.result

def events (database : Option String) (a : Account) : List (Event String) :=
  a.replies.flatMap (attemptEvents database a.payload.statements)

def settle (s : IngestionStats) (a : Account) : Result IngestionStats :=
  match a.reply with
  | none => .ok (s.record a.result a.payload)
  | some why => if why.isOfDatabase then .ok s.recordError else .error why

end Account

/-- Some results are accounted for one after the other: all of them, unless storing one has failed
with something other than a failure of the database. -/
structure IsRun (database : Option String) (tries : ℕ) (s : IngestionStats)
    (rs : List (FileResult String)) (db : Database String) (accounts : List Account)
    (out : Result IngestionStats × Database String) : Prop where
  results : accounts.map (·.result) <+: rs
  persistent : ∀ a ∈ accounts, IsPersistent tries a.retried a.reply
  /-- Every attempt takes the next reply of the database. -/
  script : upcoming db.onTransaction (accounts.flatMap (·.replies)).length =
    accounts.flatMap (·.replies)
  /-- Nothing is done but the attempts, each in a session that is closed again. -/
  history : out.2.history = db.history ++ accounts.flatMap (·.events database)
  ending :
    (∃ t, out.1 = .ok t ∧ accounts.map (·.result) = rs ∧ accounts.foldlM Account.settle s = .ok t) ∨
    ∃ why, out.1 = .error why ∧ ∃ before last t, accounts = before ++ [last] ∧
      before.foldlM Account.settle s = .ok t ∧ last.settle t = .error why

section Run

variable (database : Option String) {tries : ℕ} (htries : 0 < tries)

include htries

omit htries in
theorem ingestOrCount_max (s : IngestionStats) (r : FileResult String) :
    ingestOrCount database s r (max tries 1) = ingestOrCount database s r tries := by
  cases tries with
  | zero => rfl
  | succ n => rw [Nat.max_eq_left (Nat.succ_pos n)]

theorem exists_outcome_ingestOrCount (s : IngestionStats) (r : FileResult String)
    (db : Database String) : ∃ a : Account, a.result = r ∧
      IsPersistent tries a.retried a.reply ∧
      upcoming db.onTransaction a.replies.length = a.replies ∧
      (ingestOrCount database s r tries).outcome db =
        (a.settle s, db.after database a.payload.statements a.replies) := by
  obtain ⟨retried, reply, hpersistent, hscript, hout⟩ :=
    (isAttempt_session database (payloadOf r).statements).exists_outcome_persistently htries db
  rw [foldl_after] at hout
  refine ⟨⟨r, retried, reply⟩, rfl, hpersistent, ?_, ?_⟩
  · simpa [Account.replies] using hscript
  · have hpayload : (ofResult (Payload.ofResult r) : Action String _).outcome db =
        (.ok (payloadOf r), db) := by rw [Payload.ofResult_text]; rfl
    rw [ingestOrCount, outcome_tryCatch, ingest, outcome_bind, hpayload]
    simp only [outcome_bind, commit, hout]
    cases reply with
    | none => rfl
    | some why =>
      simp only [answer, Account.settle]
      split <;> rfl

theorem exists_outcome_foldlM (s : IngestionStats) (rs : List (FileResult String))
    (db : Database String) : ∃ accounts : List Account,
      IsRun database tries s rs db accounts
        ((rs.foldlM (fun s r => ingestOrCount database s r tries) s).outcome db) := by
  induction rs generalizing s db with
  | nil =>
    exact ⟨[], ⟨List.nil_prefix, nofun, rfl, (List.append_nil _).symm, .inl ⟨s, rfl, rfl, rfl⟩⟩⟩
  | cons r rs ih =>
    obtain ⟨a, rfl, hpersistent, hscript, hout⟩ :=
      exists_outcome_ingestOrCount database htries s r db
    rw [List.foldlM_cons, outcome_bind, hout]
    -- A result that is not settled ends the run, and the later ones have no account.
    cases hsettle : a.settle s with
    | error why =>
      refine ⟨[a], ⟨rs, rfl⟩, by simpa using hpersistent, by simpa using hscript, ?_, ?_⟩
      · simp [Database.after, Account.events]
      · exact .inr ⟨why, rfl, [], a, s, rfl, rfl, hsettle⟩
    | ok t =>
      obtain ⟨accounts, hresults, hpersistent', hscript', hhistory, hend⟩ :=
        ih t (db.after database a.payload.statements a.replies)
      refine ⟨a :: accounts, ?_, ?_, ?_, ?_, ?_⟩
      · exact List.cons_prefix_cons.mpr ⟨rfl, hresults⟩
      · rintro b hb
        rcases List.mem_cons.mp hb with rfl | hb
        · exact hpersistent
        · exact hpersistent' b hb
      · rw [List.flatMap_cons, List.length_append, upcoming_add, hscript]
        exact congrArg (a.replies ++ ·) hscript'
      · refine hhistory.trans ?_
        simp [Database.after, Account.events]
      · rcases hend with ⟨u, hu, hall, hfold⟩ | ⟨why, hwhy, before, last, u, rfl, hfold, hlast⟩
        · refine .inl ⟨u, hu, by rw [List.map_cons, hall], ?_⟩
          rw [List.foldlM_cons, hsettle, ok_bind, hfold]
        · refine .inr ⟨why, hwhy, a :: before, last, u, rfl, ?_, hlast⟩
          rw [List.foldlM_cons, hsettle, ok_bind, hfold]

end Run

def tally (accounts : List Account) : IngestionStats where
  files := accounts.countP fun a => a.isWritten && a.result.extraction?.isSome
  errorFiles := accounts.countP fun a => a.isWritten && a.result.extraction?.isNone
  nodes := ((accounts.filter (·.isWritten)).map (·.payload.nodeCount)).sum
  relationships := ((accounts.filter (·.isWritten)).map (·.payload.relationshipCount)).sum
  writeErrors := accounts.countP fun a => !a.isWritten

theorem of_settle_eq_ok {s t : IngestionStats} {a : Account} (h : a.settle s = .ok t) :
    (a.reply = none ∧ t = s.record a.result a.payload) ∨
      ∃ why, a.reply = some why ∧ why.isOfDatabase = true ∧ t = s.recordError := by
  unfold Account.settle at h
  split at h
  · next hreply => exact .inl ⟨hreply, (Except.ok.inj h).symm⟩
  · next why hreply =>
    split at h
    · next hof => exact .inr ⟨why, hreply, hof, (Except.ok.inj h).symm⟩
    · cases h

theorem of_settle_eq_error {s : IngestionStats} {a : Account} {why : Failure}
    (h : a.settle s = .error why) : a.reply = some why ∧ why.isOfDatabase = false := by
  unfold Account.settle at h
  split at h
  · cases h
  · next why' hreply =>
    split at h
    · cases h
    · next hof =>
      obtain rfl : why' = why := Except.error.inj h
      exact ⟨hreply, by simpa using hof⟩

theorem tally_of_settled {accounts : List Account} {t : IngestionStats}
    (h : accounts.foldlM Account.settle .empty = .ok t) : t = tally accounts := by
  induction accounts using List.reverseRecOn generalizing t with
  | nil => exact (Except.ok.inj h).symm
  | append_singleton before a ih =>
    rw [List.foldlM_append, bind_eq_ok_iff] at h
    obtain ⟨u, hu, ha⟩ := h
    rw [List.foldlM_cons, bind_eq_ok_iff] at ha
    obtain ⟨u', ha, hnil⟩ := ha
    obtain rfl : u' = t := Except.ok.inj hnil
    rw [ih hu] at ha
    rcases of_settle_eq_ok ha with ⟨hreply, rfl⟩ | ⟨why, hreply, -, rfl⟩
    · have hwritten : a.isWritten = true := by rw [Account.isWritten, hreply]; rfl
      cases hr : a.result <;>
        simp [tally, IngestionStats.record, hwritten, hr, FileResult.extraction?]
    · have hwritten : a.isWritten = false := by rw [Account.isWritten, hreply]; rfl
      simp [tally, IngestionStats.recordError, hwritten]

theorem total_tally (accounts : List Account) :
    (tally accounts).files + (tally accounts).errorFiles + (tally accounts).writeErrors =
      accounts.length := by
  simp only [tally]
  induction accounts with
  | nil => rfl
  | cons a accounts ih =>
    cases hwritten : a.isWritten <;> cases hr : a.result <;>
      simp [hwritten, hr, FileResult.extraction?, ← ih] <;> omega

theorem isOfDatabase_of_settled {accounts : List Account} {s t : IngestionStats}
    (h : accounts.foldlM Account.settle s = .ok t) {a : Account} (ha : a ∈ accounts)
    {why : Failure} (hwhy : a.reply = some why) : why.isOfDatabase = true := by
  induction accounts generalizing s with
  | nil => simp at ha
  | cons b accounts ih =>
    rw [List.foldlM_cons, bind_eq_ok_iff] at h
    obtain ⟨u, hb, h⟩ := h
    rcases List.mem_cons.mp ha with rfl | ha
    · rcases of_settle_eq_ok hb with ⟨hreply, -⟩ | ⟨why', hreply, hof, -⟩
      · simp [hreply] at hwhy
      · obtain rfl : why' = why := by simpa [hreply] using hwhy
        exact hof
    · exact ih h ha

theorem statements_events (database : Option String) (a : Account) :
    (a.events database).filterMap Event.statement? =
      if a.isWritten then a.payload.statements else [] := by
  have hrefused (why : Failure) : (attemptEvents database a.payload.statements
      (some why)).filterMap Event.statement? = [] := rfl
  have hran : (attemptEvents database a.payload.statements none).filterMap Event.statement? =
      a.payload.statements := by
    have hsome : (Event.statement? ∘ Event.ran : Statement String → _) = some := rfl
    rw [attemptEvents, List.filterMap_cons_none rfl, List.filterMap_append, List.filterMap_map,
      hsome, List.filterMap_some]
    exact List.append_nil _
  have hretried : (a.retried.map some).flatMap (fun reply =>
      (attemptEvents database a.payload.statements reply).filterMap Event.statement?) = [] := by
    refine List.flatMap_eq_nil_iff.mpr fun reply hreply => ?_
    obtain ⟨why, -, rfl⟩ := List.mem_map.mp hreply
    exact hrefused why
  rw [Account.events, List.filterMap_flatMap, Account.replies, List.flatMap_append, hretried,
    List.nil_append, List.flatMap_singleton, Account.isWritten]
  cases a.reply with
  | none => exact hran
  | some why => exact hrefused why

/-- What the accounts of a run over some results say of the run. -/
structure IsAccounted (database : Option String) (tries : ℕ) (rs : List (FileResult String))
    (db : Database String) (accounts : List Account)
    (out : Result IngestionStats × Database String) : Prop
    extends IsRun database tries .empty rs db accounts out where
  payload : ∀ a ∈ accounts, Payload.ofResult a.result = .ok a.payload
  /-- The statements of a result are run once if it is stored, and never if it is not. -/
  statements : ∀ a ∈ accounts, (a.events database).filterMap Event.statement? =
    if a.isWritten then a.payload.statements else []
  counted : ∀ stats, out.1 = .ok stats → accounts.map (·.result) = rs ∧ stats = tally accounts ∧
    stats.files + stats.errorFiles + stats.writeErrors = rs.length
  /-- The failure that ends a run is the last reply, and not one of the database. -/
  raised : ∀ why, out.1 = .error why → why.isOfDatabase = false ∧
    ∃ last ∈ accounts.getLast?, last.reply = some why
  tolerated : ∀ a ∈ accounts, ∀ why ∈ a.reply, why.isOfDatabase = true ∨ out.1 = .error why
  /-- Failures of the database do not end a run. -/
  survives : (∀ why, some why ∈ db.onTransaction → why.isOfDatabase = true) →
    ∃ stats, out.1 = .ok stats

theorem IsRun.isAccounted {database : Option String} {tries : ℕ} {rs : List (FileResult String)}
    {db : Database String} {accounts : List Account}
    {out : Result IngestionStats × Database String}
    (h : IsRun database tries .empty rs db accounts out) :
    IsAccounted database tries rs db accounts out := by
  have hpayload : ∀ a ∈ accounts, Payload.ofResult a.result = .ok a.payload :=
    fun a _ => Payload.ofResult_text a.result
  have hstatements : ∀ a ∈ accounts, (a.events database).filterMap Event.statement? =
      if a.isWritten then a.payload.statements else [] :=
    fun a _ => statements_events database a
  rcases h.ending with ⟨t, ht, hall, hfold⟩ | ⟨why, hwhy, before, last, t, rfl, hfold, hlast⟩
  · obtain rfl := tally_of_settled hfold
    refine ⟨h, hpayload, hstatements, ?_, ?_, ?_, ?_⟩
    · intro stats hstats
      obtain rfl := Except.ok.inj (ht.symm.trans hstats)
      refine ⟨hall, rfl, ?_⟩
      rw [total_tally, ← hall, List.length_map]
    · intro why hwhy
      cases ht.symm.trans hwhy
    · intro a ha why hwhy
      exact .inl (isOfDatabase_of_settled hfold ha hwhy)
    · exact fun _ => ⟨_, ht⟩
  · obtain ⟨hreply, hof⟩ := of_settle_eq_error hlast
    refine ⟨h, hpayload, hstatements, ?_, ?_, ?_, ?_⟩
    · intro stats hstats
      cases hwhy.symm.trans hstats
    · intro why' hwhy'
      obtain rfl := Except.error.inj (hwhy.symm.trans hwhy')
      exact ⟨hof, last, by simp, hreply⟩
    · intro a ha why' hwhy'
      rcases List.mem_append.mp ha with ha | ha
      · exact .inl (isOfDatabase_of_settled hfold ha hwhy')
      · obtain rfl := List.mem_singleton.mp ha
        obtain rfl : why = why' := by simpa [hreply] using hwhy'
        exact .inr hwhy
    · intro honly
      -- The failure is among the replies, which are those of the database.
      have hmem : some why ∈ (before ++ [last]).flatMap (·.replies) :=
        List.mem_flatMap.mpr ⟨last, by simp, by simp [Account.replies, hreply]⟩
      rw [← h.script] at hmem
      rw [honly why (mem_of_mem_upcoming hmem)] at hof
      cases hof

/-- Storing some results is accounted for result by result. Every attempt has a session of its own,
in which the statements of the result are run if the database does what it is asked for, and none
if it fails; what is counted are the results that were stored and those that were not. -/
theorem ingestAll_accounts (database : Option String) {tries : ℕ} (htries : 0 < tries)
    (rs : List (FileResult String)) (db : Database String) :
    ∃ accounts, IsAccounted database tries rs db accounts
      ((ingestAll database rs tries).outcome db) := by
  obtain ⟨accounts, hrun⟩ := exists_outcome_foldlM database htries .empty rs db
  exact ⟨accounts, hrun.isAccounted⟩

/-- A database that recovers from the first failure, then wears out the tries, then refuses a
result for good, and stores the last one. -/
def flakyDatabase : Database String :=
  .fresh [] [] [some (.raised .transient "deadlock"), none, some (.raised .unavailable "down"),
    some (.raised .sessionExpired "expired"), some (.raised .client "constraint"), none]

def failedFiles : List (FileResult String) :=
  [.failed "/srv/A.java" "", .failed "/srv/B.java" "", .failed "/srv/C.java" "",
    .failed "/srv/D.java" ""]

theorem ingestAll_accounts_flaky : ∃ accounts,
    IsAccounted none 2 failedFiles flakyDatabase accounts
      ((ingestAll none failedFiles 2).outcome flakyDatabase) ∧
    tally accounts = ⟨0, 2, 2, 0, 2⟩ := by
  obtain ⟨accounts, h⟩ := ingestAll_accounts none (Nat.zero_lt_two) failedFiles flakyDatabase
  have hout : ((ingestAll none failedFiles 2).outcome flakyDatabase).1 = .ok ⟨0, 2, 2, 0, 2⟩ := rfl
  exact ⟨accounts, h, (h.counted _ hout).2.1.symm⟩

end CodeAtlas.Graph
