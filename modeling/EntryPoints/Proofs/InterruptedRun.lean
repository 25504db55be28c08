import EntryPoints.Proofs.PureAnswers

/-!
# Runs that may be interrupted

A search may be stopped at every checkpoint, and its observer may break it off
at every item.  The caller cache survives all of this, so what has to hold of
it must hold at every such point.

`Run.Keeps` says of a part of a search that it leaves a sound cache behind when
it finds one, however it ends.  The two kinds of result that such parts have,
an answer that may be replaced by a failure and a collection that a failure may
cut short, are then known up to the failures that stop them.
-/

namespace EntryPoints

variable {σ ρ α β γ : Type}

theorem settles_pure (a : α) : Settles (pure a : Lookup σ α) a := fun _ => rfl

theorem Settles.bind {question : Lookup σ α} {a : α} {next : α → Lookup σ β} {b : β}
    (hquestion : Settles question a) (hnext : Settles (next a) b) :
    Settles (question >>= next) b := by
  intro s
  change ((ExceptT.bindCont next (question s).1) (question s).2).1 = .ok b
  rw [hquestion s]
  exact hnext (question s).2

/-- An answer as described, unless a failure that stops a run replaces it. -/
def AnswerOrStop (stops : Failure → Prop) (Answer : α → Prop) : Except Failure α → Prop
  | .ok a => Answer a
  | .error failure => stops failure

/-- The whole collection, unless a failure that stops a run cuts it short. -/
def WholeOrStop (stops : Failure → Prop) (whole : β) : β × Option Failure → Prop
  | (collected, none) => collected = whole
  | (_, some failure) => stops failure

namespace Run

theorem bind_apply (action : Run σ ρ α) (next : α → Run σ ρ β) (s : RunState σ ρ) :
    (action >>= next) s =
      match action s with
      | (.ok a, t) => next a t
      | (.error failure, t) => (.error failure, t) := by
  simp only [bind, ExceptT.bind, ExceptT.mk, StateT.bind]
  cases action s with
  | mk result t => cases result <;> rfl

theorem get_apply (s : RunState σ ρ) : (get : Run σ ρ (RunState σ ρ)) s = (.ok s, s) := rfl

/-- Started on a sound cache, the action leaves a sound cache and a result as described. -/
def Keeps (Sound : CallerCache → Prop) (action : StateM (RunState σ ρ) γ)
    (Result : γ → Prop) : Prop :=
  ∀ s, Sound s.cache → Sound (action s).2.cache ∧ Result (action s).1

/-- The action answers as described or is stopped. -/
def Yields (Sound : CallerCache → Prop) (stops : Failure → Prop)
    (action : Run σ ρ α) (Answer : α → Prop) : Prop :=
  Keeps Sound (action : StateM (RunState σ ρ) (Except Failure α)) (AnswerOrStop stops Answer)

abbrev Gives (Sound : CallerCache → Prop) (stops : Failure → Prop)
    (action : Run σ ρ α) (a : α) : Prop :=
  Yields Sound stops action (· = a)

abbrev Gathers (Sound : CallerCache → Prop) (stops : Failure → Prop)
    (action : StateM (RunState σ ρ) (β × Option Failure)) (whole : β) : Prop :=
  Keeps Sound action (WholeOrStop stops whole)

variable {Sound : CallerCache → Prop} {stops : Failure → Prop}

theorem keeps_pure {Result : γ → Prop} {c : γ} (hc : Result c) :
    Keeps Sound (pure c : StateM (RunState σ ρ) γ) Result :=
  fun _ hs => ⟨hs, hc⟩

theorem Keeps.bind {action : StateM (RunState σ ρ) γ} {Result : γ → Prop}
    {f : γ → StateM (RunState σ ρ) β} {Final : β → Prop}
    (haction : Keeps Sound action Result)
    (hnext : ∀ c, Result c → Keeps Sound (f c) Final) :
    Keeps Sound (action >>= f) Final := by
  intro s hs
  obtain ⟨hsound, hresult⟩ := haction s hs
  exact hnext (action s).1 hresult (action s).2 hsound

theorem Yields.apply {action : Run σ ρ α} {Answer : α → Prop}
    (haction : Yields Sound stops action Answer) {s : RunState σ ρ} (hs : Sound s.cache) :
    Sound (action s).2.cache ∧ AnswerOrStop stops Answer (action s).1 :=
  haction s hs

theorem yields_pure {Answer : α → Prop} {a : α} (ha : Answer a) :
    Yields Sound stops (pure a : Run σ ρ α) Answer :=
  keeps_pure ha

theorem gives_pure (a : α) : Gives Sound stops (pure a : Run σ ρ α) a :=
  yields_pure rfl

theorem yields_throw {Answer : α → Prop} {failure : Failure} (hstops : stops failure) :
    Yields Sound stops (throw failure : Run σ ρ α) Answer :=
  keeps_pure (c := Except.error failure) hstops

theorem Yields.bind {action : Run σ ρ α} {A : α → Prop} {next : α → Run σ ρ β}
    {Final : β → Prop} (haction : Yields Sound stops action A)
    (hnext : ∀ a, A a → Yields Sound stops (next a) Final) :
    Yields Sound stops (action >>= next) Final := by
  refine Keeps.bind (f := ExceptT.bindCont next) haction ?_
  intro result hresult
  cases result with
  | ok a => exact hnext a hresult
  | error failure => exact keeps_pure (c := Except.error failure) hresult

theorem Gives.bind {action : Run σ ρ α} {a : α} {next : α → Run σ ρ β} {Final : β → Prop}
    (haction : Gives Sound stops action a)
    (hnext : Yields Sound stops (next a) Final) :
    Yields Sound stops (action >>= next) Final := by
  refine Yields.bind haction ?_
  rintro _ rfl
  exact hnext

theorem Keeps.bindLift {action : StateM (RunState σ ρ) γ} {Result : γ → Prop}
    {next : γ → Run σ ρ β} {Final : β → Prop} (haction : Keeps Sound action Result)
    (hnext : ∀ c, Result c → Yields Sound stops (next c) Final) :
    Yields Sound stops (ExceptT.lift action >>= next) Final := by
  intro s hs
  obtain ⟨hsound, hresult⟩ := haction s hs
  exact hnext (action s).1 hresult (action s).2 hsound

theorem yields_modify {change : RunState σ ρ → RunState σ ρ}
    (hchange : ∀ s, Sound s.cache → Sound (change s).cache) :
    Yields Sound stops (modify change : Run σ ρ PUnit) (fun _ => True) :=
  fun s hs => ⟨hchange s hs, trivial⟩

theorem Yields.mono {action : Run σ ρ α} {Answer : α → Prop} {ends : Failure → Prop}
    (haction : Yields Sound stops action Answer)
    (hends : ∀ failure, stops failure → ends failure) :
    Yields Sound ends action Answer := by
  intro s hs
  obtain ⟨hsound, hresult⟩ := haction s hs
  refine ⟨hsound, ?_⟩
  cases hended : (action s).1 with
  | ok a => simpa [hended, AnswerOrStop] using hresult
  | error failure =>
      rw [hended] at hresult
      exact hends failure hresult

theorem Gives.eq_ok {action : Run σ ρ α} {a : α}
    (haction : Gives Sound (fun _ => False) action a) {s : RunState σ ρ} (hs : Sound s.cache) :
    (action s).1 = .ok a := by
  have hresult := (haction.apply hs).2
  cases hended : (action s).1 with
  | ok value =>
      rw [hended] at hresult
      rw [show value = a from hresult]
  | error failure =>
      rw [hended] at hresult
      exact hresult.elim

theorem Gives.keeps {action : Run σ ρ α} {a : α}
    (haction : Gives Sound (fun _ => False) action a) :
    Keeps Sound (action.run : StateM (RunState σ ρ) (Except Failure α)) (· = .ok a) :=
  fun s hs => ⟨(haction s hs).1, haction.eq_ok hs⟩

theorem gives_lookup {question : Lookup σ α} {a : α} (hquestion : Settles question a) :
    Gives Sound stops (Run.lookup question : Run σ ρ α) a := by
  intro s hs
  refine ⟨hs, ?_⟩
  change AnswerOrStop stops (· = a) (question s.base).1
  rw [hquestion s.base]
  rfl

theorem keeps_withBase {question : StateM σ α} (Answer : α → Prop)
    (hquestion : ∀ s, Answer (question s).1) :
    Keeps Sound (Run.withBase question : StateM (RunState σ ρ) α) Answer :=
  fun s hs => ⟨hs, hquestion s.base⟩

theorem yields_askBase {question : StateM σ α} (Answer : α → Prop)
    (hquestion : ∀ s, Answer (question s).1) :
    Yields Sound stops (Run.askBase question : Run σ ρ α) Answer :=
  fun s hs => ⟨hs, hquestion s.base⟩

theorem yields_askWatch {question : StateM ρ α} (Answer : α → Prop)
    (hquestion : ∀ w, Answer (question w).1) :
    Yields Sound stops (Run.askWatch question : Run σ ρ α) Answer :=
  fun s hs => ⟨hs, hquestion s.watch⟩

/-- There is nothing to recover from in an action that only cancellations stop. -/
theorem Gives.recover {action : Run σ ρ α} {a answer : α}
    (hcancel : ∀ failure, stops failure → failure.isCancellation = true)
    (haction : Gives Sound stops action a) :
    Gives Sound stops (Run.recover answer action) a := by
  unfold Run.recover
  simp only [tryCatch, tryCatchThe, MonadExceptOf.tryCatch, ExceptT.tryCatch, ExceptT.mk]
  refine Keeps.bind haction ?_
  intro result hresult
  cases result with
  | ok value => exact keeps_pure (c := Except.ok value) hresult
  | error failure =>
      simp only [hcancel failure hresult, if_true]
      exact yields_throw hresult

/-- A checkpoint lets a run go on unless somebody asks it to stop. -/
theorem gives_checkpoint {base : KnowledgeBase σ} {watcher : Watcher ρ}
    (howner : ∀ w, (watcher.isCancelled w).1 = true → stops .cancelledByOwner)
    (hbase : ∀ s, (base.cancellationRequested s).1 = true →
      stops .cancelledByKnowledgeBase) :
    Gives Sound stops (Run.checkpoint base watcher) () := by
  unfold Run.checkpoint
  refine Yields.bind (yields_askWatch (fun cancelled => cancelled = true → _) howner) ?_
  intro cancelled howner
  cases cancelled with
  | true =>
      exact Yields.bind (A := fun _ => False) (yields_throw (howner rfl))
        (fun _ hfalse => hfalse.elim)
  | false =>
      refine Yields.bind
        (yields_askBase (fun requested => requested = true → _) hbase) ?_
      intro requested hbase
      cases requested with
      | false => exact gives_pure ()
      | true => exact yields_throw (hbase rfl)

end Run

end EntryPoints
