import CodeAtlas.Proofs.Graph.Commitment
import Mathlib.Data.Nat.Notation

/-! # Work that is tried again

The database replies by a script. Work that takes one reply in each attempt is tried again after
the failures that may pass, as long as that is allowed, and comes to what the last reply says.
-/

namespace CodeAtlas.Graph

open CodeAtlas.Graph.Action

/-- The next replies of a script, which goes on with successes when it has come to its end. -/
def upcoming : List (Option Failure) → ℕ → List (Option Failure)
  | _, 0 => []
  | script, k + 1 => script.head?.join :: upcoming script.tail k

theorem upcoming_add (script : List (Option Failure)) (m n : ℕ) :
    upcoming script (m + n) = upcoming script m ++ upcoming (script.drop m) n := by
  induction m generalizing script with
  | zero => simp [upcoming]
  | succ m ih =>
    rw [Nat.succ_add, upcoming, upcoming, ih, List.cons_append, List.drop_tail]

theorem mem_of_mem_upcoming {script : List (Option Failure)} {k : ℕ} {why : Failure}
    (h : some why ∈ upcoming script k) : some why ∈ script := by
  induction k generalizing script with
  | zero => simp [upcoming] at h
  | succ k ih =>
    rw [upcoming, List.mem_cons] at h
    cases script with
    | nil =>
      rcases h with h | h
      · simp at h
      · exact absurd (ih h) List.not_mem_nil
    | cons reply script =>
      rcases h with h | h
      · simp only [List.head?_cons, Option.join_some] at h
        exact List.mem_cons.mpr (.inl h)
      · exact List.mem_cons_of_mem _ (ih h)

def answer : Option Failure → Result Unit
  | none => .ok ()
  | some why => .error why

/-- Only failures that may pass are met by trying again, and those as long as it is allowed. -/
structure IsPersistent (tries : ℕ) (retried : List Failure) (reply : Option Failure) : Prop where
  length_lt : retried.length < tries
  mayPass : ∀ why ∈ retried, why.mayPass = true
  exhausted : ∀ why ∈ reply, why.mayPass = true → retried.length + 1 = tries

section Attempts

variable {α : Type} {x : Action α Unit} {script : Database α → List (Option Failure)}
  {after : Database α → Option Failure → Database α}

/-- Work that takes the next reply of a script, and comes to what it says. -/
structure IsAttempt (x : Action α Unit) (script : Database α → List (Option Failure))
    (after : Database α → Option Failure → Database α) : Prop where
  outcome : ∀ db, x.outcome db =
    (answer (script db).head?.join, after db (script db).head?.join)
  script : ∀ db reply, script (after db reply) = (script db).tail

theorem IsPersistent.cons {tries : ℕ} {retried : List Failure} {reply : Option Failure}
    (h : IsPersistent tries retried reply) {why : Failure} (hpass : why.mayPass = true) :
    IsPersistent (tries + 1) (why :: retried) reply where
  length_lt := Nat.succ_lt_succ h.length_lt
  mayPass := List.forall_mem_cons.mpr ⟨hpass, h.mayPass⟩
  exhausted why' hwhy hpass' := congrArg (· + 1) (h.exhausted why' hwhy hpass')

theorem IsAttempt.exists_outcome_retrying (h : IsAttempt x script after) (again : ℕ)
    (db : Database α) : ∃ retried reply, IsPersistent (again + 1) retried reply ∧
      upcoming (script db) (retried.length + 1) = retried.map some ++ [reply] ∧
      (retrying again x).outcome db =
        (answer reply, (retried.map some ++ [reply]).foldl after db) := by
  induction again generalizing db with
  | zero =>
    exact ⟨[], (script db).head?.join, ⟨Nat.zero_lt_one, by simp, fun _ _ _ => rfl⟩, rfl,
      h.outcome db⟩
  | succ again ih =>
    rw [retrying, outcome_tryCatch, h.outcome]
    cases hreply : (script db).head?.join with
    | none =>
      refine ⟨[], none, ⟨Nat.zero_lt_succ _, by simp, by simp⟩, ?_, rfl⟩
      rw [← hreply]
      rfl
    | some why =>
      cases hpass : why.mayPass with
      | false =>
        refine ⟨[], some why, ⟨Nat.zero_lt_succ _, by simp, ?_⟩, ?_, ?_⟩
        · rintro why' ⟨⟩ hpass'
          simp [hpass] at hpass'
        · rw [← hreply]
          rfl
        · simp [answer, hpass]
      | true =>
        obtain ⟨retried, reply, hpersistent, hscript, hout⟩ := ih (after db (some why))
        refine ⟨why :: retried, reply, hpersistent.cons hpass, ?_, ?_⟩
        · rw [h.script] at hscript
          rw [List.length_cons, upcoming, hreply, hscript]
          rfl
        · simp only [answer, hpass, if_true, hout]
          rfl

/-- What comes of work that is tried a number of times. -/
theorem IsAttempt.exists_outcome_persistently (h : IsAttempt x script after) {tries : ℕ}
    (htries : 0 < tries) (db : Database α) : ∃ retried reply, IsPersistent tries retried reply ∧
      upcoming (script db) (retried.length + 1) = retried.map some ++ [reply] ∧
      (persistently x tries).outcome db =
        (answer reply, (retried.map some ++ [reply]).foldl after db) := by
  have hout := h.exists_outcome_retrying (tries - 1) db
  rwa [Nat.sub_add_cancel htries] at hout

end Attempts

theorem foldl_singleton {β γ : Type} {after : β → List γ → β} (hnil : ∀ b, after b [] = b)
    (happend : ∀ b xs ys, after b (xs ++ ys) = after (after b xs) ys) (xs : List γ) (b : β) :
    xs.foldl (fun b x => after b [x]) b = after b xs := by
  induction xs generalizing b with
  | nil => exact (hnil b).symm
  | cons x xs ih => rw [List.foldl_cons, ih, ← happend, List.singleton_append]

end CodeAtlas.Graph
