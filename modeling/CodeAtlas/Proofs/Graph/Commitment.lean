import CodeAtlas.Graph.History

/-! # All or nothing

Work that is one transaction has run all of its statements where it succeeds, and none where it
fails, however often it was tried.
-/

namespace CodeAtlas.Graph

namespace Action

variable {α β γ : Type}

section Outcomes

variable (x : Action α β) (db : Database α)

theorem outcome_bind (f : β → Action α γ) : (x >>= f).outcome db =
    match x.outcome db with
    | (.ok b, db') => (f b).outcome db'
    | (.error why, db') => (.error why, db') := by
  unfold outcome ExceptT.run StateT.run
  simp only [bind, ExceptT.bind, ExceptT.mk, StateT.bind]
  rcases x db with ⟨_ | b, db'⟩ <;> rfl

theorem outcome_tryCatch (f : Failure → Action α β) : (tryCatch x f).outcome db =
    match x.outcome db with
    | (.ok b, db') => (.ok b, db')
    | (.error why, db') => (f why).outcome db' := by
  unfold outcome ExceptT.run StateT.run
  simp only [tryCatch, tryCatchThe, MonadExceptOf.tryCatch, ExceptT.tryCatch, ExceptT.mk, bind,
    StateT.bind]
  rcases x db with ⟨_ | b, db'⟩ <;> rfl

@[simp] theorem outcome_note (e : Event α) :
    (note e).outcome db = (.ok (), { db with history := db.history ++ [e] }) := rfl

@[simp] theorem outcome_pure (b : β) : (pure b : Action α β).outcome db = (.ok b, db) := rfl

@[simp] theorem outcome_throw (why : Failure) :
    (throw why : Action α β).outcome db = (.error why, db) := rfl

@[simp] theorem outcome_followedBy (last : Event α) : (followedBy x last).outcome db =
    ((x.outcome db).1,
      { (x.outcome db).2 with history := (x.outcome db).2.history ++ [last] }) := rfl

end Outcomes

def RunsAllOrNone (ss : List (Statement α)) (x : Action α β) : Prop :=
  ∀ db, (x.outcome db).2.statements = db.statements ++
    match (x.outcome db).1 with
    | .ok _ => ss
    | .error _ => []

theorem statements_concat {e : Event α} (he : e.statement? = none) (db : Database α) :
    ({ db with history := db.history ++ [e] } : Database α).statements = db.statements := by
  simp [Database.statements, he]

theorem outcome_forM_note (ss : List (Statement α)) (db : Database α) :
    (forM ss fun s => note (.ran s)).outcome db =
      (.ok (), { db with history := db.history ++ ss.map .ran }) := by
  induction ss generalizing db with
  | nil => simp
  | cons s ss ih =>
    rw [List.forM_cons, outcome_bind, outcome_note]
    simp [ih]

theorem runsAllOrNone_transaction (ss : List (Statement α)) :
    RunsAllOrNone ss (transaction ss) := by
  intro db
  rw [transaction, outcome_bind]
  have hreply : (transactionReply : Action α _).outcome db =
      (.ok db.onTransaction.head?.join, { db with onTransaction := db.onTransaction.tail }) := rfl
  rw [hreply]
  cases db.onTransaction.head?.join with
  | none =>
    simp only [heed, outcome_bind, outcome_pure, List.forM_eq_forM, outcome_forM_note]
    simp [Database.statements, List.filterMap_map, Function.comp_def, Event.statement?]
  | some why =>
    simp only [heed, outcome_bind, outcome_note, outcome_throw, List.append_nil]
    exact statements_concat rfl _

theorem RunsAllOrNone.inSession {ss : List (Statement α)} {x : Action α β}
    (h : RunsAllOrNone ss x) (database : Option String) :
    RunsAllOrNone ss (inSession database x) := by
  intro db
  rw [Action.inSession, outcome_bind, outcome_note]
  simp only [outcome_followedBy]
  rw [statements_concat rfl, h, statements_concat rfl]

theorem RunsAllOrNone.retrying {ss : List (Statement α)} {x : Action α β}
    (h : RunsAllOrNone ss x) (again : Nat) : RunsAllOrNone ss (retrying again x) := by
  induction again with
  | zero => exact h
  | succ again ih =>
    intro db
    have hx := h db
    rw [Action.retrying, outcome_tryCatch]
    rcases hout : x.outcome db with ⟨why | b, db'⟩ <;> rw [hout] at hx
    · simp only [List.append_nil] at hx ⊢
      cases why.mayPass with
      | true =>
        rw [← hx]
        exact ih db'
      | false => simpa using hx
    · exact hx

theorem RunsAllOrNone.bind_pure {ss : List (Statement α)} {x : Action α β}
    (h : RunsAllOrNone ss x) (f : β → γ) : RunsAllOrNone ss (x >>= fun b => pure (f b)) := by
  intro db
  have hx := h db
  rw [outcome_bind]
  rcases hout : x.outcome db with ⟨why | b, db'⟩ <;> rw [hout] at hx <;> exact hx

end Action

end CodeAtlas.Graph
