import CodeAtlas.Java.Grammar
import CodeAtlas.Proofs.Graph.Connecting
import CodeAtlas.Proofs.Run.Steps

/-! # The connections of a run

A run connects to the graph at most once, and closes the connection whatever comes of the
extraction. Between the two the database is made ready; where that fails the connection stays open.
-/

namespace CodeAtlas.Run

open CodeAtlas.Graph (Event IsConnecting IsPersistent Statement closings upcoming)

namespace Step

variable {β γ δ : Type} {f : State → δ}

/-- A step does not change something of the state, whether it fails or not. -/
def Keeps (f : State → δ) (x : Step β) : Prop := ∀ s, f (x.run.run s).2 = f s

theorem Keeps.bind {x : Step β} {g : β → Step γ} (hx : Keeps f x) (hg : ∀ y, Keeps f (g y)) :
    Keeps f (x >>= g) := by
  intro s
  have hs := hx s
  rw [run_bind]
  rcases hout : x.run.run s with ⟨why | y, s₁⟩ <;> rw [hout] at hs
  · exact hs
  · exact (hg y s₁).trans hs

theorem keeps_pure (y : β) : Keeps f (pure y) := fun _ => rfl

theorem keeps_throw (why : Failure) : Keeps f (throw why : Step β) := fun _ => rfl

theorem keeps_get : Keeps f (get : Step State) := fun _ => rfl

theorem keeps_get_bind {g : State → Step β} (h : ∀ s, f ((g s).run.run s).2 = f s) :
    Keeps f (get >>= g) := h

theorem keeps_ofResult (r : Result β) : Keeps f (ofResult r) := fun _ => rfl

theorem keeps_modify {g : State → State} (h : ∀ s, f (g s) = f s) :
    Keeps f (modify g : Step PUnit) := h

theorem run_modify_bind {g : State → State} {x : PUnit → Step β} (h : ∀ u, Keeps f (x u))
    (s : State) : f (((modify g : Step PUnit) >>= x).run.run s).2 = f (g s) := h _ _

theorem keeps_ofWarned (w : Warned β) : Keeps (·.database) (ofWarned w) := by
  refine Keeps.bind (keeps_modify fun s => ?_) fun _ => keeps_ofResult _
  rfl

theorem keeps_change (g : Files → Result Files) : Keeps (·.database) (change g) :=
  keeps_get.bind fun _ => (keeps_ofResult _).bind fun _ => keeps_modify fun _ => rfl

theorem Keeps.comp {x : Step β} (h : Keeps f x) {ε : Type} (g : δ → ε) : Keeps (g ∘ f) x :=
  fun s => congrArg g (h s)

theorem run_ofAction (x : Graph.Action String β) (s : State) : (ofAction x).run.run s =
    ((x.outcome s.database).1, { s with database := (x.outcome s.database).2 }) := rfl

/-- A relation holds between the database before a step and after it, whether it fails or not. -/
def Leaves (R : Graph.Database String → Graph.Database String → Prop) (x : Step β) : Prop :=
  ∀ s, R s.database (x.run.run s).2.database

variable {R : Graph.Database String → Graph.Database String → Prop} {x : Step β}
  {g : β → Step γ}

theorem Leaves.keeps_bind (hrefl : ∀ db, R db db) (hx : Keeps (·.database) x)
    (hg : ∀ y, Leaves R (g y)) : Leaves R (x >>= g) := by
  intro s
  have hs := hx s
  rw [run_bind]
  rcases hout : x.run.run s with ⟨why | y, s₁⟩ <;> rw [hout] at hs <;> dsimp only at hs ⊢
  · rw [hs]
    exact hrefl _
  · rw [← hs]
    exact hg y s₁

theorem Leaves.bind_keeps (hx : Leaves R x) (hg : ∀ y, Keeps (·.database) (g y)) :
    Leaves R (x >>= g) := by
  intro s
  have hs := hx s
  rw [run_bind]
  rcases hout : x.run.run s with ⟨why | y, s₁⟩ <;> rw [hout] at hs
  · exact hs
  · have hkept : ((g y).run.run s₁).2.database = s₁.database := hg y s₁
    dsimp only
    rw [hkept]
    exact hs

end Step

namespace Progress

variable (tries : ℕ) (signals : Interrupts) (p : Progress)

theorem links_store (r : FileResult String) :
    (p.store tries r).database.links = p.database.links := by
  rw [store]
  split
  · rfl
  · next s _ =>
    obtain ⟨a, -, -, -, hout⟩ :=
      Graph.exists_outcome_ingestOrCount none (Nat.le_max_right tries 1) s r p.database
    rw [Graph.ingestOrCount_max] at hout
    have hlinks : (p.database.after none a.payload.statements a.replies).links =
        p.database.links := by
      have hevents := a.links_events none
      rw [Graph.Account.events] at hevents
      simp only [Graph.Database.links, Graph.Database.after, List.filterMap_append, hevents,
        List.append_nil]
    rw [hout]
    cases a.settle s <;> exact hlinks

theorem database_ask : (p.ask signals).database = p.database := by
  rw [ask]
  split <;> rfl

theorem links_take (x : Yielded) :
    (p.take tries signals x).database.links = p.database.links := by
  rw [take]
  split
  · rw [database_ask, links_store]
  · rfl

theorem links_consume (results : List Yielded) :
    (Batch.consume isStopped (take tries signals) p results).database.links =
      p.database.links := by
  induction results generalizing p with
  | nil => rfl
  | cons x results ih =>
    rw [Batch.consume]
    split
    · rfl
    · rw [ih, links_take]

end Progress

theorem links_extract (tries : ℕ) (signals : Interrupts) (stored : Bool)
    (db : Graph.Database String) (workers : ℤ) (results : List Yielded) :
    (extract tries signals stored db workers results).database.links = db.links := by
  have hstart : ((Progress.initial stored db).ask signals).database.links = db.links :=
    congrArg Graph.Database.links (Progress.database_ask signals (Progress.initial stored db))
  rw [extract]
  split
  · exact hstart
  · split
    · rw [Progress.links_consume, hstart]
    · exact hstart

section Run

variable {c : Circumstances} {a : Command.Arguments} {v : Vocabulary} {workers : ℤ}
  {ts : List Target}

variable (c a v workers ts) in
theorem keeps_extractTo : Step.Keeps (·.database.links) (extractTo c a v workers ts) := by
  have hchange (g : Files → Result Files) : Step.Keeps (·.database.links) (Step.change g) :=
    (Step.keeps_change g).comp Graph.Database.links
  refine (hchange _).bind fun _ => (hchange _).bind fun _ => ?_
  refine Step.keeps_get_bind fun s => ?_
  refine Eq.trans (Step.run_modify_bind (f := (·.database.links)) (fun _ => ?_) s) ?_
  · refine (hchange _).bind fun _ => ?_
    split
    · exact Step.keeps_throw _
    · exact Step.keeps_pure _
  · exact links_extract ..

def closingAfter {β : Type} (x : Step β) : Step β := do
  let y ← tryCatch x fun why => do
    Step.ofAction Graph.disconnect
    throw why
  Step.ofAction Graph.disconnect
  return y

theorem leaves_closingAfter {β : Type} {x : Step β} (h : Step.Keeps (·.database.links) x) :
    Step.Leaves (fun db db' => db'.links = db.links ++ [false]) (closingAfter x) := by
  intro s
  have hs : (x.run.run s).2.database.links = s.database.links := h s
  have hdisconnect (s : State) : (Step.ofAction Graph.disconnect).run.run s =
      (.ok (), { s with database :=
        { s.database with history := s.database.history ++ [.disconnected] } }) := rfl
  have hlinks (db : Graph.Database String) :
      ({ db with history := db.history ++ [.disconnected] } : Graph.Database String).links =
        db.links ++ [false] := by simp [Graph.Database.links, Event.link?]
  rw [closingAfter, Step.run_bind, Step.run_tryCatch]
  rcases hout : x.run.run s with ⟨why | y, s₁⟩ <;> rw [hout] at hs <;> dsimp only at hs ⊢
  · rw [Step.run_bind, hdisconnect]
    exact (hlinks _).trans (by rw [hs])
  · rw [Step.run_bind, hdisconnect]
    exact (hlinks _).trans (by rw [hs])

/-- A connection that was made for a run stays open. -/
def StaysOpen (db : Graph.Database String) : Option Failure → Prop
  | none => ∃ why, some why ∈
    upcoming db.onStatement (Statement.preparation : List (Statement String)).length
  | some why => why = .interrupted

/-- What a run makes and closes: nothing, or connections that are all closed, or connections of
which the last stays open. -/
structure HasConnected (tries : ℕ) (db db' : Graph.Database String) (retried : List Failure)
    (reply : Option Failure) : Prop where
  persistent : IsPersistent tries retried reply
  script : upcoming db.onConnection (retried.length + 1) = retried.map some ++ [reply]
  links : db'.links = db.links ∨
    db'.links = db.links ++ closings (retried.length + 1) ∧ ¬ StaysOpen db reply ∨
    db'.links = db.links ++ (closings retried.length ++ [true]) ∧ StaysOpen db reply

variable {tries : ℕ} (htries : 0 < tries) (hconnect : c.connect = Graph.reach tries)

theorem not_staysOpen_none_iff {db : Graph.Database String} : ¬ StaysOpen db none ↔
    ∀ reply ∈ upcoming db.onStatement (Statement.preparation : List (Statement String)).length,
      reply = none := by
  simp only [StaysOpen, not_exists]
  constructor
  · intro h reply hreply
    exact Option.eq_none_iff_forall_ne_some.mpr fun why hwhy => h why (hwhy ▸ hreply)
  · intro h why hwhy
    cases h _ hwhy

theorem outcome_reach (tries : ℕ) (target : Connection) (db : Graph.Database String) :
    (Graph.reach tries (.ok target)).outcome db =
      (Graph.connectWithin tries target : Graph.Action String Unit).outcome db := rfl

/-- A failure to connect leaves a connection open only where its trial is interrupted. -/
theorem hasConnected_of_failed {target : Connection} {db : Graph.Database String}
    {retried : List Failure} {why : Failure} {out : Result Unit × Graph.Database String}
    (h : IsConnecting tries target db retried (some why) out) :
    HasConnected tries db out.2 retried (some why) := by
  have hlinks := h.links
  rw [List.append_assoc] at hlinks
  refine ⟨h.persistent, h.script, .inr ?_⟩
  by_cases hwhy : why = .interrupted
  · subst hwhy
    exact .inr ⟨hlinks, rfl⟩
  · rw [Graph.trialLinks_of_ne hwhy, ← Graph.closings_succ] at hlinks
    exact .inl ⟨hlinks, hwhy⟩

include htries

/-- A run that ends before it connects makes nothing. -/
theorem exists_hasConnected_self (db : Graph.Database String) :
    ∃ retried reply, HasConnected tries db db retried reply := by
  obtain ⟨retried, reply, h⟩ := Graph.exists_isConnecting htries ⟨"", "", "", ""⟩ db
  exact ⟨retried, reply, h.persistent, h.script, .inl rfl⟩

include hconnect

/-- Connecting fails, and leaves what the run then leaves; or it gives an open connection to a
database that was made ready. -/
theorem run_connectGraph (s : State) : ∃ retried reply out s',
    (connectGraph c).run.run s = (out, s') ∧
    (HasConnected tries s.database s'.database retried reply ∧ (∃ why, out = .error why) ∨
      IsPersistent tries retried reply ∧
        upcoming s.database.onConnection (retried.length + 1) = retried.map some ++ [reply] ∧
        out = .ok () ∧ ¬ StaysOpen s.database reply ∧
        s'.database.links = s.database.links ++ (closings retried.length ++ [true])) := by
  have hrun : (connectGraph c).run.run s =
      (Step.ofAction (c.connect (Connection.resolve c.reader c.environment s.files
        compositionPath none).outcome.1) >>= fun _ => Step.ofAction (Graph.prepare none)).run.run
        { s with warnings := s.warnings ++ (Connection.resolve c.reader c.environment s.files
            compositionPath none).outcome.2 } := rfl
  rw [hrun, Step.run_bind, Step.run_ofAction, hconnect]
  cases (Connection.resolve c.reader c.environment s.files compositionPath none).outcome.1 with
  | error why =>
    -- No connection is tried where its settings are refused.
    obtain ⟨retried, reply, h⟩ := exists_hasConnected_self htries s.database
    exact ⟨retried, reply, .error why, _, rfl, .inl ⟨h, why, rfl⟩⟩
  | ok target =>
    obtain ⟨retried, reply, h⟩ := Graph.exists_isConnecting htries target s.database
    rw [outcome_reach]
    rcases hout : (Graph.connectWithin tries target).outcome s.database with ⟨r, db₁⟩
    rw [hout] at h
    refine ⟨retried, reply, ?_⟩
    cases reply with
    | some why =>
      obtain rfl := h.failed why rfl
      exact ⟨_, _, rfl, .inl ⟨hasConnected_of_failed h, _, rfl⟩⟩
    | none =>
      obtain rfl := h.connected.mpr rfl
      have hlinks : db₁.links = s.database.links ++ closings retried.length ++ [true] := h.links
      have hstatement : db₁.onStatement = s.database.onStatement := h.onStatement
      dsimp only
      rw [Step.run_ofAction]
      obtain ⟨hkept, hready⟩ := Graph.outcome_prepare none db₁
      rw [hstatement, ← not_staysOpen_none_iff] at hready
      have hopen : ((Graph.prepare none).outcome db₁).2.links =
          s.database.links ++ (closings retried.length ++ [true]) := by
        rw [hkept, hlinks, List.append_assoc]
      refine ⟨_, _, rfl, ?_⟩
      cases hout : ((Graph.prepare none).outcome db₁).1 with
      | ok y => exact .inr ⟨h.persistent, h.script, rfl, hready.mp hout, hopen⟩
      | error why =>
        have hstays : StaysOpen s.database none := by
          by_contra hcloses
          cases hout.symm.trans (hready.mpr hcloses)
        exact .inl ⟨⟨h.persistent, h.script, .inr (.inr ⟨hopen, hstays⟩)⟩, why, rfl⟩

variable (c v workers ts) in
omit htries hconnect in
theorem exists_work_eq (hingest : a.ingest = true) : ∃ x : Step Work,
    work c a v workers ts = (connectGraph c >>= fun _ => x) ∧
    Step.Leaves (fun db db' => db'.links = db.links ++ [false]) x := by
  refine ⟨closingAfter (extractTo c a v workers ts) >>= fun p =>
    pure (Work.mk p.stats p.ingestion p.cancelled), ?_, ?_⟩
  · simp only [work, hingest, if_true, closingAfter, bind_assoc, pure_bind]
  · exact (leaves_closingAfter (keeps_extractTo c a v workers ts)).bind_keeps
      fun _ => Step.keeps_pure _

theorem run_work (hingest : a.ingest = true) (s : State) : ∃ retried reply,
    HasConnected tries s.database ((work c a v workers ts).run.run s).2.database retried reply ∧
    ∀ w, ((work c a v workers ts).run.run s).1 = .ok w →
      ((work c a v workers ts).run.run s).2.database.links =
        s.database.links ++ closings (retried.length + 1) := by
  obtain ⟨retried, reply, out, s₁, hrun, hcases⟩ := run_connectGraph htries hconnect s
  obtain ⟨x, hwork, hclosed⟩ := exists_work_eq c v workers ts hingest
  refine ⟨retried, reply, ?_⟩
  rw [hwork, Step.run_bind, hrun]
  rcases hcases with ⟨hconnected, why, rfl⟩ | ⟨hpersistent, hscript, rfl, hcloses, hopen⟩
  · exact ⟨hconnected, nofun⟩
  · have hlinks : (x.run.run s₁).2.database.links =
        s.database.links ++ closings (retried.length + 1) := by
      have hlast := hclosed s₁
      rw [hlast, hopen, Graph.closings_succ]
      simp
    exact ⟨⟨hpersistent, hscript, .inr (.inl ⟨hlinks, hcloses⟩)⟩, fun _ _ => hlinks⟩

theorem leaves_run (hingest : a.ingest = true) :
    Step.Leaves (fun db db' => ∃ retried reply, HasConnected tries db db' retried reply)
      (run c a) := by
  have hrefl := exists_hasConnected_self htries
  refine .keeps_bind hrefl Step.keeps_get fun _ => ?_
  refine .keeps_bind hrefl (Step.keeps_ofResult _) fun _ => ?_
  refine .keeps_bind hrefl (Step.keeps_ofWarned _) fun _ => ?_
  refine .keeps_bind hrefl (Step.keeps_ofWarned _) fun _ => ?_
  refine .keeps_bind hrefl (Step.keeps_ofResult _) fun ts => ?_
  dsimp only
  split
  · exact .bind_keeps (fun s => hrefl s.database) fun _ => Step.keeps_pure _
  · refine .bind_keeps (.bind_keeps (fun s => ?_) fun _ => Step.keeps_pure _)
      fun _ => Step.keeps_pure _
    obtain ⟨retried, reply, h, -⟩ := run_work htries hconnect hingest s
    exact ⟨retried, reply, h⟩

/-- Connecting within a number of tries closes every connection but the one that it gives. The
connection of a run is closed in the end, whatever comes of the run, unless its trial was
interrupted or the database could not be made ready; a run that has worked on its sources has closed
it. -/
theorem connections_of_run (hingest : a.ingest = true) :
    (∀ (target : Connection) (db : Graph.Database String), ∃ retried reply,
      IsConnecting tries target db retried reply
        ((Graph.connectWithin tries target).outcome db)) ∧
    ∀ s : State,
      (∃ retried reply,
        HasConnected tries s.database ((run c a).run.run s).2.database retried reply) ∧
      ∀ report s', (run c a).run.run s = (.ok report, s') → report.work ≠ none →
        ∃ n, 0 < n ∧ n ≤ tries ∧ s'.database.links = s.database.links ++ closings n := by
  refine ⟨fun target db => Graph.exists_isConnecting htries target db, fun s =>
    ⟨leaves_run htries hconnect hingest s, fun report s' hrun hworked => ?_⟩⟩
  obtain ⟨v, workers, ts, s₁, -, -, -, hdatabase, ⟨-, hnone⟩ | ⟨-, w, hw, -⟩⟩ := worked_of_run hrun
  · exact absurd hnone hworked
  · obtain ⟨retried, reply, hconnected, hclosed⟩ := run_work htries hconnect hingest s₁
    rw [hw] at hconnected hclosed
    rw [← hdatabase]
    exact ⟨retried.length + 1, Nat.succ_pos _, hconnected.persistent.length_lt, hclosed w rfl⟩

end Run

/-- The circumstances of a run whose database is named in the environment. -/
def sampleCircumstances : Circumstances where
  environment := ⟨[("NEO4J_URI", "bolt://db:7687"), ("NEO4J_AUTH", "neo4j/secret")]⟩
  parser := Java.tree
  reader := Yaml.read
  runId := "run"
  now := ""
  workers := 8
  tries := Graph.attempts
  interrupts := .none
  strays _ := []
  arrival := id
  connect := Graph.reach Graph.attempts

def sampleArguments : Command.Arguments :=
  { Command.Arguments.initial ⟨[]⟩ with file := some "/A.java", ingest := true }

def sampleState (onConnection onStatement : List (Option Failure)) : State :=
  ⟨⟨"/", .directory [("A.java", .file ⟨#[]⟩)]⟩, .fresh onConnection onStatement [], []⟩

/-- Two trials fail, and the third one is good. -/
theorem sampleState_connections : 0 < Graph.attempts ∧
    sampleCircumstances.connect = Graph.reach Graph.attempts ∧ sampleArguments.ingest = true ∧
    ∃ retried reply, HasConnected Graph.attempts
      (sampleState (.replicate 2 (some (.raised .unavailable "down"))) []).database
      ((run sampleCircumstances sampleArguments).run.run
        (sampleState (.replicate 2 (some (.raised .unavailable "down"))) [])).2.database
      retried reply :=
  ⟨by decide, rfl, rfl, ((connections_of_run (by decide) rfl rfl).2 _).1⟩

/-- Where the database refuses the first statement that makes it ready, the run fails and leaves its
connection open. -/
theorem sampleState_staysOpen :
    ((run sampleCircumstances sampleArguments).run.run
      (sampleState [] [some (.raised .client "refused")])).1.isOk = false ∧
    ((run sampleCircumstances sampleArguments).run.run
      (sampleState [] [some (.raised .client "refused")])).2.database.links = [true] ∧
    ∀ n, ((run sampleCircumstances sampleArguments).run.run
      (sampleState [] [some (.raised .client "refused")])).2.database.links ≠ closings n := by
  have hlinks : ((run sampleCircumstances sampleArguments).run.run
      (sampleState [] [some (.raised .client "refused")])).2.database.links = [true] := by
    decide +kernel
  refine ⟨by decide +kernel, hlinks, fun n => ?_⟩
  rw [hlinks]
  exact Graph.closings_append_ne 0 n

end CodeAtlas.Run
