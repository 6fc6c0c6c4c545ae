import CodeAtlas.Proofs.Files.Writing
import CodeAtlas.Run.Pipeline

/-! # What a run has done

A run that reports has found its sources, and has extracted them into its output file if there were
any. What the steps of a run leave behind is read off its last state.
-/

namespace CodeAtlas.Run

namespace Step

variable {β γ : Type} {s s' : State}

theorem run_bind (x : Step β) (f : β → Step γ) (s : State) : (x >>= f).run.run s =
    match x.run.run s with
    | (.ok y, s₁) => (f y).run.run s₁
    | (.error why, s₁) => (.error why, s₁) := by
  unfold ExceptT.run StateT.run
  simp only [bind, ExceptT.bind, ExceptT.mk, StateT.bind]
  rcases x s with ⟨_ | y, s₁⟩ <;> rfl

theorem of_bind {x : Step β} {f : β → Step γ} {z : γ} (h : (x >>= f).run.run s = (.ok z, s')) :
    ∃ y s₁, x.run.run s = (.ok y, s₁) ∧ (f y).run.run s₁ = (.ok z, s') := by
  rw [run_bind] at h
  rcases hx : x.run.run s with ⟨why | y, s₁⟩ <;> rw [hx] at h
  · cases h
  · exact ⟨y, s₁, rfl, h⟩

theorem of_get {t : State} (h : (get : Step State).run.run s = (.ok t, s')) : t = s ∧ s' = s := by
  cases h
  exact ⟨rfl, rfl⟩

theorem of_pure {x y : β} (h : (pure x : Step β).run.run s = (.ok y, s')) : x = y ∧ s' = s := by
  cases h
  exact ⟨rfl, rfl⟩

theorem of_modify {f : State → State} {y : PUnit}
    (h : (modify f : Step PUnit).run.run s = (.ok y, s')) : s' = f s := by
  cases h
  rfl

theorem of_ofResult {r : Result β} {y : β} (h : (ofResult r).run.run s = (.ok y, s')) :
    r = .ok y ∧ s' = s := by
  cases h
  exact ⟨rfl, rfl⟩

theorem of_ofWarned {w : Warned β} {y : β} (h : (ofWarned w).run.run s = (.ok y, s')) :
    s'.files = s.files ∧ s'.database = s.database := by
  obtain ⟨_, s₁, hmodify, hresult⟩ := of_bind h
  obtain rfl := of_modify hmodify
  obtain ⟨-, rfl⟩ := of_ofResult hresult
  exact ⟨rfl, rfl⟩

theorem of_ofAction {x : Graph.Action String β} {y : β}
    (h : (ofAction x).run.run s = (.ok y, s')) : s'.files = s.files := by
  obtain ⟨t, s₁, hget, hrest⟩ := of_bind h
  obtain ⟨rfl, rfl⟩ := of_get hget
  obtain ⟨_, s₂, hmodify, hresult⟩ := of_bind hrest
  obtain rfl := of_modify hmodify
  obtain ⟨-, rfl⟩ := of_ofResult hresult
  rfl

theorem of_change {f : Files → Result Files} {y : Unit}
    (h : (change f).run.run s = (.ok y, s')) : f s.files = .ok s'.files := by
  obtain ⟨t, s₁, hget, hrest⟩ := of_bind h
  obtain ⟨rfl, rfl⟩ := of_get hget
  obtain ⟨fs, s₂, hresult, hmodify⟩ := of_bind hrest
  obtain ⟨hfs, rfl⟩ := of_ofResult hresult
  obtain rfl := of_modify hmodify
  exact hfs

theorem run_tryCatch (x : Step β) (f : Failure → Step β) (s : State) :
    (tryCatch x f).run.run s = match x.run.run s with
      | (.ok y, s₁) => (.ok y, s₁)
      | (.error why, s₁) => (f why).run.run s₁ := by
  unfold ExceptT.run StateT.run
  simp only [tryCatch, tryCatchThe, MonadExceptOf.tryCatch, ExceptT.tryCatch, ExceptT.mk, bind,
    StateT.bind]
  rcases x s with ⟨_ | y, s₁⟩ <;> rfl

theorem of_tryCatch {x : Step β} {f : Failure → Step β} {y : β}
    (hf : ∀ why s y s', (f why).run.run s ≠ (.ok y, s'))
    (h : (tryCatch x f).run.run s = (.ok y, s')) : x.run.run s = (.ok y, s') := by
  rw [run_tryCatch] at h
  rcases hx : x.run.run s with ⟨why | y, s₁⟩ <;> rw [hx] at h
  · exact absurd h (hf why s₁ y s')
  · exact h

end Step

section Run

variable {c : Circumstances} {a : Command.Arguments} {v : Vocabulary} {workers : Int}
  {ts : List Target} {s s' : State}

/-- Some sources were extracted and their lines written. The files may have changed before that,
but not the directory that paths are seen from. -/
structure HasExtracted (c : Circumstances) (a : Command.Arguments) (ts : List Target)
    (s s' : State) (p : Progress) : Prop where
  extraction : ∃ fs v db workers, fs.home = s.files.home ∧
    p = extract c.tries c.interrupts a.ingest db workers
      (c.arrival (ts.map (Target.yielded c.parser fs v a.tolerant)))
  failure : p.failure = none
  output : s'.files.read a.outputFile = .ok p.text.toUTF8

def written (path text : String) (fs : Files) : Result Files :=
  match fs.write path text.toUTF8 with
  | .ok fs => .ok fs
  | .error fault => .error (.path path fault)

theorem write_of_written {path text : String} {fs fs' : Files}
    (h : written path text fs = .ok fs') : fs.write path text.toUTF8 = .ok fs' := by
  unfold written at h
  split at h
  · next hfs =>
    rw [hfs, Except.ok.inj h]
  · cases h

theorem of_extractTo {p : Progress}
    (h : (extractTo c a v workers ts).run.run s = (.ok p, s')) :
    HasExtracted c a ts s s' p := by
  have hwrite (text : String) {s s' : State} {y : Unit}
      (h : (Step.change (written a.outputFile text)).run.run s = (.ok y, s')) :
      s.files.write a.outputFile text.toUTF8 = .ok s'.files := write_of_written (Step.of_change h)
  obtain ⟨_, s₁, hensure, h₁⟩ := Step.of_bind h
  obtain ⟨_, s₂, hempty, h₂⟩ := Step.of_bind h₁
  obtain ⟨t, s₃, hget, h₃⟩ := Step.of_bind h₂
  obtain ⟨rfl, rfl⟩ := Step.of_get hget
  obtain ⟨_, s₄, hmodify, h₄⟩ := Step.of_bind h₃
  obtain rfl := Step.of_modify hmodify
  obtain ⟨_, s₅, htext, h₅⟩ := Step.of_bind h₄
  have hhome : s₃.files.home = s.files.home := by
    rw [Files.home_of_write (hwrite "" hempty),
      Files.home_of_ensureDirectory (Step.of_change hensure)]
  split at h₅
  · cases h₅
  · next hfailure =>
    obtain ⟨rfl, rfl⟩ := Step.of_pure h₅
    exact ⟨⟨s₃.files, v, s₃.database, workers, hhome, rfl⟩, hfailure,
      Files.read_of_write (hwrite _ htext)⟩

theorem of_connectGraph {y : Unit} (h : (connectGraph c).run.run s = (.ok y, s')) :
    s'.files = s.files := by
  obtain ⟨t, s₁, hget, h₁⟩ := Step.of_bind h
  obtain ⟨rfl, rfl⟩ := Step.of_get hget
  obtain ⟨_, s₂, hmodify, h₂⟩ := Step.of_bind h₁
  obtain rfl := Step.of_modify hmodify
  obtain ⟨_, s₃, hconnect, hprepare⟩ := Step.of_bind h₂
  rw [Step.of_ofAction hprepare, Step.of_ofAction hconnect]

theorem of_extractTo_closing {close : Step Unit} {w : Work}
    (hclose : ∀ s y s', close.run.run s = (.ok y, s') → s'.files = s.files)
    (h : (do
      let p ← tryCatch (extractTo c a v workers ts) fun why => do
        close
        throw why
      close
      return Work.mk p.stats p.ingestion p.cancelled : Step Work).run.run s = (.ok w, s')) :
    ∃ p, HasExtracted c a ts s s' p ∧ w = ⟨p.stats, p.ingestion, p.cancelled⟩ := by
  obtain ⟨p, s₁, hextract, h₁⟩ := Step.of_bind h
  obtain ⟨y, s₂, hclosed, h₂⟩ := Step.of_bind h₁
  obtain ⟨rfl, rfl⟩ := Step.of_pure h₂
  have hextracted := Step.of_tryCatch (fun why s y s' hhandler => ?_) hextract
  · obtain ⟨hextraction, hfailure, houtput⟩ := of_extractTo hextracted
    exact ⟨p, ⟨hextraction, hfailure, by rw [hclose _ _ _ hclosed, houtput]⟩, rfl⟩
  · obtain ⟨_, s₃, -, hthrow⟩ := Step.of_bind hhandler
    cases hthrow

theorem HasExtracted.of_files_eq {s₀ : State} {p : Progress} (h : HasExtracted c a ts s s' p)
    (hfiles : s.files = s₀.files) : HasExtracted c a ts s₀ s' p := by
  obtain ⟨hextraction, hfailure, houtput⟩ := h
  exact ⟨hfiles ▸ hextraction, hfailure, houtput⟩

theorem of_work {w : Work} (h : (work c a v workers ts).run.run s = (.ok w, s')) :
    ∃ p, HasExtracted c a ts s s' p ∧ w = ⟨p.stats, p.ingestion, p.cancelled⟩ := by
  rw [work] at h
  split at h
  · obtain ⟨_, s₁, hconnect, h₁⟩ := Step.of_bind h
    obtain ⟨p, hp, hw⟩ := of_extractTo_closing (fun _ _ _ hclose => Step.of_ofAction hclose) h₁
    exact ⟨p, hp.of_files_eq (of_connectGraph hconnect), hw⟩
  · refine of_extractTo_closing (fun _ _ _ hclose => ?_) h
    rw [(Step.of_pure hclose).2]

theorem worked_of_run {report : Report} (h : (run c a).run.run s = (.ok report, s')) :
    ∃ v workers ts s₁, targets c s.files a = .ok ts ∧ report.discovered = ts.length ∧
      s₁.files = s.files ∧ s₁.database = s.database ∧
      (ts = [] ∧ report.work = none ∨ ts ≠ [] ∧ ∃ w,
        (work c a v workers ts).run.run s₁ = (.ok w, s') ∧ report.work = some w) := by
  obtain ⟨t, s₁, hget, h₁⟩ := Step.of_bind h
  obtain ⟨rfl, rfl⟩ := Step.of_get hget
  obtain ⟨target, s₂, htarget, h₂⟩ := Step.of_bind h₁
  obtain ⟨-, rfl⟩ := Step.of_ofResult htarget
  obtain ⟨v, s₃, hv, h₃⟩ := Step.of_bind h₂
  obtain ⟨workers, s₄, hworkers, h₄⟩ := Step.of_bind h₃
  obtain ⟨ts, s₅, hts, h₅⟩ := Step.of_bind h₄
  obtain ⟨htargets, rfl⟩ := Step.of_ofResult hts
  obtain ⟨hfiles, hdatabase⟩ := Step.of_ofWarned hv
  obtain ⟨hfiles', hdatabase'⟩ := Step.of_ofWarned hworkers
  refine ⟨v, workers, ts, s₅, htargets, ?_⟩
  cases ts with
  | nil =>
    obtain ⟨rfl, rfl⟩ := Step.of_pure h₅
    exact ⟨rfl, hfiles'.trans hfiles, hdatabase'.trans hdatabase, .inl ⟨rfl, rfl⟩⟩
  | cons t ts =>
    obtain ⟨w?, s₆, hwork, h₆⟩ := Step.of_bind h₅
    obtain ⟨rfl, rfl⟩ := Step.of_pure h₆
    obtain ⟨w, s₇, hw, hsome⟩ := Step.of_bind hwork
    obtain ⟨rfl, rfl⟩ := Step.of_pure hsome
    exact ⟨rfl, hfiles'.trans hfiles, hdatabase'.trans hdatabase,
      .inr ⟨List.cons_ne_nil _ _, w, hw, rfl⟩⟩

theorem of_run {report : Report} (h : (run c a).run.run s = (.ok report, s')) :
    ∃ ts, targets c s.files a = .ok ts ∧ report.discovered = ts.length ∧
      (ts = [] ∧ report.work = none ∨ ts ≠ [] ∧ ∃ p, HasExtracted c a ts s s' p ∧
        report.work = some ⟨p.stats, p.ingestion, p.cancelled⟩) := by
  obtain ⟨v, workers, ts, s₁, htargets, hdiscovered, hfiles, -, hcases⟩ := worked_of_run h
  refine ⟨ts, htargets, hdiscovered, hcases.imp_right ?_⟩
  rintro ⟨hne, w, hw, hreport⟩
  obtain ⟨p, hp, rfl⟩ := of_work hw
  exact ⟨hne, p, hp.of_files_eq hfiles, hreport⟩

end Run

end CodeAtlas.Run
