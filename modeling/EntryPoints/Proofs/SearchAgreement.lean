import EntryPoints.Proofs.SearchReplay

/-!
# Searches that agree

Two knowledge bases may differ and still give the same to a search.  For this they have
to agree on the methods that the search can meet: on what stands in for them, on their
callers, and on whether lambdas implement them.

Keys play no part in this.  Where two methods share a key, a search may find the callers
of the one in the cache when it asks for those of the other; it finds them there in both
knowledge bases.  Hence the two searches go on in step, and what they have in common at
every point is the cache.

A knowledge base agrees with itself on every set of methods that no step leaves, so that a
search finds only methods of the set.
-/

namespace EntryPoints

variable {σ τ ρ υ α β : Type}

/-! ## Runs in step -/

namespace Run

/-- On the cache `c` the action answers `a` and leaves the cache `d` behind. -/
def Leads (c : CallerCache) (action : Run σ ρ α) (a : α) (d : CallerCache) : Prop :=
  ∀ s, s.cache = c → (action s).1 = .ok a ∧ (action s).2.cache = d

/-- On every sound cache the two actions give the same answer, which is as described, and
leave the same cache, which is sound. -/
def Agree (Sound : CallerCache → Prop) (first : Run σ ρ α) (second : Run τ υ α)
    (Answer : α → Prop) : Prop :=
  ∀ c, Sound c → ∃ a d, Leads c first a d ∧ Leads c second a d ∧ Sound d ∧ Answer a

variable {Sound : CallerCache → Prop} {c d e : CallerCache}

theorem leads_pure (a : α) : Leads c (pure a : Run σ ρ α) a c := fun _ hs => ⟨rfl, hs⟩

theorem Leads.bind {action : Run σ ρ α} {next : α → Run σ ρ β} {a : α} {b : β}
    (haction : Leads c action a d) (hnext : Leads d (next a) b e) :
    Leads c (action >>= next) b e := by
  intro s hs
  obtain ⟨hanswer, hcache⟩ := haction s hs
  rw [bind_apply]
  cases hrun : action s with
  | mk result t =>
      rw [hrun] at hanswer hcache
      simp only at hanswer
      rw [hanswer]
      exact hnext t hcache

/-- An action that gives one answer whatever the cache leaves the cache as it is. -/
theorem leads_of_gives {action : Run σ ρ α} {a : α}
    (haction : Gives (· = c) (fun _ => False) action a) : Leads c action a c :=
  fun _ hs => ⟨haction.eq_ok hs, (haction.apply hs).1⟩

/-- A collection that nothing cuts short is whole. -/
theorem leads_of_gathers {γ : Type} {action : StateM (RunState σ ρ) (γ × Option Failure)}
    {whole : γ} (haction : Gathers (· = c) (fun _ => False) action whole) :
    Leads c (ExceptT.lift action) (whole, none) c := by
  intro s hs
  obtain ⟨hcache, hresult⟩ := haction s hs
  refine ⟨?_, hcache⟩
  change Except.ok (action s).1 = _
  cases hended : (action s).1 with
  | mk collected failure =>
      rw [hended] at hresult
      cases failure with
      | none => rw [show collected = whole from hresult]
      | some failure => exact hresult.elim

theorem leads_put (key : String) (callers : List Method) :
    Leads c (modify fun s => { s with cache := s.cache.put key callers } : Run σ ρ PUnit) ⟨⟩
      (c.put key callers) := by
  intro s hs
  refine ⟨rfl, ?_⟩
  rw [← hs]
  rfl

theorem leads_trim :
    Leads c (modify fun s => { s with cache := s.cache.trim } : Run σ ρ PUnit) ⟨⟩ c.trim := by
  intro s hs
  refine ⟨rfl, ?_⟩
  rw [← hs]
  rfl

theorem agree_of_gives {first : Run σ ρ α} {second : Run τ υ α} {Answer : α → Prop} {a : α}
    (hfirst : ∀ c, Gives (· = c) (fun _ => False) first a)
    (hsecond : ∀ c, Gives (· = c) (fun _ => False) second a) (ha : Answer a) :
    Agree Sound first second Answer :=
  fun c hc => ⟨a, c, leads_of_gives (hfirst c), leads_of_gives (hsecond c), hc, ha⟩

theorem agree_pure {Answer : α → Prop} {a : α} (ha : Answer a) :
    Agree Sound (pure a : Run σ ρ α) (pure a : Run τ υ α) Answer :=
  fun c hc => ⟨a, c, leads_pure a, leads_pure a, hc, ha⟩

theorem Agree.bind {first : Run σ ρ α} {second : Run τ υ α} {Answer : α → Prop}
    {f : α → Run σ ρ β} {g : α → Run τ υ β} {Final : β → Prop}
    (h : Agree Sound first second Answer)
    (hnext : ∀ a, Answer a → Agree Sound (f a) (g a) Final) :
    Agree Sound (first >>= f) (second >>= g) Final := by
  intro c hc
  obtain ⟨a, d, hfirst, hsecond, hd, ha⟩ := h c hc
  obtain ⟨b, e, hf, hg, he, hb⟩ := hnext a ha d hd
  exact ⟨b, e, hfirst.bind hf, hsecond.bind hg, he, hb⟩

end Run

/-! ## Records that agree -/

/-- Two records of answers agree on the known methods, and no step of the first leads out of
them. -/
structure Answers.AgreeOn (first second : Answers) (names : List String)
    (known : Method → Prop) : Prop where
  substitutes : ∀ m, known m → second.substitutes names m = first.substitutes names m
  callers : ∀ m, known m → first.substitutes names m = none →
    second.callers m = first.callers m
  isFunctional : ∀ m, known m → second.isFunctional names m = first.isFunctional names m
  closed : ∀ m, known m → ∀ above ∈ first.next names m, known above

theorem Answers.AgreeOn.refl {answers : Answers} {names : List String} {known : Method → Prop}
    (hclosed : ∀ m, known m → ∀ above ∈ answers.next names m, known above) :
    answers.AgreeOn answers names known where
  substitutes _ _ := rfl
  callers _ _ _ := rfl
  isFunctional _ _ := rfl
  closed := hclosed

/-- The cache holds known methods only. -/
def CallerCache.Holds (known : Method → Prop) (cache : CallerCache) : Prop :=
  ∀ key callers, cache.get? key = some callers → ∀ m ∈ callers, known m

theorem CallerCache.Holds.put {known : Method → Prop} {cache : CallerCache}
    (hcache : cache.Holds known) {key : String} {callers : List Method}
    (hcallers : ∀ m ∈ callers, known m) : (cache.put key callers).Holds known := by
  intro k found hfound
  rw [get?_put] at hfound
  split at hfound
  · cases hfound
    exact hcallers
  · exact hcache k found hfound

theorem CallerCache.Holds.trim {known : Method → Prop} {cache : CallerCache}
    (hcache : cache.Holds known) : cache.trim.Holds known := by
  intro key callers hentry
  rw [get?_trim] at hentry
  split at hentry
  · cases hentry
  · exact hcache key callers hentry

/-! ## Searches in step -/

/-- Everything that was found is known. -/
def Tally.Finds (known : Method → Prop) (tally : Tally) : Prop :=
  ∀ m ∈ tally.found.toList, known m

theorem Tally.Finds.insert {known : Method → Prop} {tally : Tally} (htally : tally.Finds known) {m : Method}
    (hm : known m) : ∀ n ∈ (tally.found.insert m).toList, known n := by
  intro n hn
  rw [MethodSet.toList_insert] at hn
  split at hn
  · exact htally n hn
  · rcases List.mem_append.mp hn with hold | hnew
    · exact htally n hold
    · rw [List.mem_singleton.mp hnew]
      exact hm

namespace Search

/-- A search that follows a record of answers and that nothing disturbs. -/
structure Free (setting : Setting σ ρ) (watcher : Watcher ρ) (answers : Answers)
    (names : List String) : Prop where
  follows : setting.Follows answers names
  checkpoint : ∀ Sound, Run.Gives Sound (fun _ => False) setting.checkpoint ()
  reports : ∀ progress w, (watcher.report progress w).1 = none

section Parts

variable {setting : Setting σ ρ} {watcher : Watcher ρ} {answers : Answers}
  {names : List String} {Sound : CallerCache → Prop}

theorem Free.gives_takeUp (h : Free setting watcher answers names) (queued : Nat)
    (tally : Tally) :
    Run.Gives Sound (fun _ => False) (takeUp setting watcher queued tally) tally.takeUp := by
  unfold takeUp
  refine Run.Gives.bind (h.checkpoint Sound) ?_
  refine Run.Yields.bind (Run.yields_askWatch (· = none) (h.reports _)) ?_
  rintro _ rfl
  exact Run.gives_pure _

theorem Free.leads_collect (h : Free setting watcher answers names) (c : CallerCache)
    (m : Method) :
    Run.Leads c (setting.collect m none) (answers.callers m)
      (c.put m.key (answers.callers m)) := by
  have hgather := gathers_gather h.follows (h.checkpoint (· = c)) m
  unfold Setting.collect
  apply (Run.leads_of_gives (h.checkpoint (· = c))).bind
  apply (Run.leads_of_gathers hgather).bind
  simp only [MethodSet.toList_foldl_insert_empty]
  exact (Run.leads_put m.key (answers.callers m)).bind (Run.leads_pure _)

end Parts

variable {first : Setting σ ρ} {second : Setting τ υ} {watch : Watcher ρ} {other : Watcher υ}
  {A B : Answers} {names : List String} {known : Method → Prop}

theorem agree_callersOf (hfirst : Free first watch A names) (hsecond : Free second other B names)
    {m : Method} (hcallers : B.callers m = A.callers m)
    (hknown : ∀ caller ∈ A.callers m, known caller) :
    Run.Agree (CallerCache.Holds known) (first.callersOf m) (second.callersOf m)
      fun callers => ∀ caller ∈ callers, known caller := by
  intro c hc
  cases hentry : c.get? m.key with
  | some callers =>
      refine ⟨callers, c, ?_, ?_, hc, hc m.key callers hentry⟩
      · intro s hs
        rw [first.callersOf_of_cached none (hs ▸ hentry)]
        exact ⟨rfl, hs⟩
      · intro s hs
        rw [second.callersOf_of_cached none (hs ▸ hentry)]
        exact ⟨rfl, hs⟩
  | none =>
      refine ⟨A.callers m, c.put m.key (A.callers m), ?_, ?_, hc.put hknown, hknown⟩
      · intro s hs
        rw [first.callersOf_of_uncached none (hs ▸ hentry)]
        exact hfirst.leads_collect c m s hs
      · intro s hs
        rw [second.callersOf_of_uncached none (hs ▸ hentry), ← hcallers]
        exact hsecond.leads_collect c m s hs

theorem agree_expand (hfirst : Free first watch A names) (hsecond : Free second other B names)
    (hagree : A.AgreeOn B names known) {m : Method} (hm : known m) :
    Run.Agree (CallerCache.Holds known) (expand first m) (expand second m)
      fun step => ∀ above ∈ step.1, known above := by
  have hclosed := hagree.closed m hm
  unfold Answers.next at hclosed
  unfold expand
  have hsubstitutes : Run.Agree (CallerCache.Holds known) (first.substitutes m)
      (second.substitutes m) (· = A.substitutes names m) := by
    refine Run.agree_of_gives (fun c => ?_) (fun c => ?_) rfl
    · exact gives_substitutes hfirst.follows (hfirst.checkpoint _) (fun _ h => h.elim) m
    · rw [← hagree.substitutes m hm]
      exact gives_substitutes hsecond.follows (hsecond.checkpoint _) (fun _ h => h.elim) m
  have hfunctional : Run.Agree (CallerCache.Holds known) (first.isFunctional m)
      (second.isFunctional m) fun _ => True := by
    refine Run.agree_of_gives (a := A.isFunctional names m) (fun c => ?_) (fun c => ?_) trivial
    · exact gives_isFunctional hfirst.follows (fun _ h => h.elim) m
    · rw [← hagree.isFunctional m hm]
      exact gives_isFunctional hsecond.follows (fun _ h => h.elim) m
  apply hsubstitutes.bind
  rintro _ rfl
  -- The methods above branch as the search does: what stands in for `m`, or else its callers.
  cases hstand : A.substitutes names m with
  | some methods =>
      rw [hstand] at hclosed
      exact Run.agree_pure hclosed
  | none =>
      rw [hstand] at hclosed
      apply (agree_callersOf hfirst hsecond (hagree.callers m hm hstand) hclosed).bind
      intro callers hcallers
      cases callers with
      | nil =>
          apply hfunctional.bind
          intro functional _
          exact Run.agree_pure (by simp)
      | cons caller callers => exact Run.agree_pure hcallers

theorem agree_visit (hfirst : Free first watch A names) (hsecond : Free second other B names)
    (hagree : A.AgreeOn B names known) {m : Method} (hm : known m) {tally : Tally}
    (htally : tally.Finds known) :
    Run.Agree (CallerCache.Holds known) (visit first m tally) (visit second m tally)
      fun step => (∀ above ∈ step.1, known above) ∧ step.2.Finds known := by
  unfold visit
  split
  · exact Run.agree_pure ⟨by simp, htally⟩
  · apply (agree_expand hfirst hsecond hagree hm).bind
    intro step hstep
    refine Run.agree_pure ⟨hstep, ?_⟩
    cases step.2 with
    | true => exact htally.insert hm
    | false => exact htally

theorem agree_sweep (hfirst : Free first watch A names) (hsecond : Free second other B names)
    (hagree : A.AgreeOn B names known) {level : List Method} (hlevel : ∀ m ∈ level, known m)
    {next : Array Method} (hnext : ∀ m ∈ next.toList, known m) {tally : Tally}
    (htally : tally.Finds known) :
    Run.Agree (CallerCache.Holds known) (sweep first watch level next tally)
      (sweep second other level next tally)
      fun swept => (∀ m ∈ swept.1.toList, known m) ∧ swept.2.Finds known := by
  induction level generalizing next tally with
  | nil => exact Run.agree_pure ⟨hnext, htally⟩
  | cons m level ih =>
      have htaken : tally.takeUp.Finds known := htally
      unfold sweep
      apply (Run.agree_of_gives (fun c => hfirst.gives_takeUp _ tally)
        (fun c => hsecond.gives_takeUp _ tally) htaken).bind
      intro taken hfinds
      apply (agree_visit hfirst hsecond hagree (hlevel m (by simp)) hfinds).bind
      intro step hstep
      apply ih
      · exact fun n hn => hlevel n (List.mem_cons_of_mem m hn)
      · intro n hn
        simp only [Array.toList_appendList, List.mem_append] at hn
        rcases hn with hold | hnew
        · exact hnext n hold
        · exact hstep.1 n hnew
      · exact hstep.2

theorem agree_cutOff (hfirst : Free first watch A names) (hsecond : Free second other B names)
    (level : List Method) {tally : Tally} (htally : tally.Finds known) :
    Run.Agree (CallerCache.Holds known) (cutOff first watch level tally)
      (cutOff second other level tally) (Tally.Finds known) := by
  induction level generalizing tally with
  | nil => exact Run.agree_pure htally
  | cons m level ih =>
      have htaken : tally.takeUp.Finds known := htally
      unfold cutOff
      apply (Run.agree_of_gives (fun c => hfirst.gives_takeUp _ tally)
        (fun c => hsecond.gives_takeUp _ tally) htaken).bind
      intro taken hfinds
      exact ih hfinds

theorem agree_explore (hfirst : Free first watch A names) (hsecond : Free second other B names)
    (hagree : A.AgreeOn B names known) (levels : Nat) {frontier : List Method}
    (hfrontier : ∀ m ∈ frontier, known m) {tally : Tally} (htally : tally.Finds known) :
    Run.Agree (CallerCache.Holds known) (explore first watch levels frontier tally)
      (explore second other levels frontier tally) (Tally.Finds known) := by
  induction levels generalizing frontier tally with
  | zero => exact agree_cutOff hfirst hsecond frontier htally
  | succ levels ih =>
      unfold explore
      have hempty : ∀ m ∈ (#[] : Array Method).toList, known m := by simp
      apply (agree_sweep hfirst hsecond hagree hfrontier hempty htally).bind
      rintro ⟨next, swept⟩ hswept
      simp only
      split
      · exact Run.agree_pure hswept.2
      · exact ih hswept.1 hswept.2

/-- Both searches succeed with one result, in which everything is known and has another key
than the start. -/
theorem agree_topCallers (hfirst : Free first watch A names) (hsecond : Free second other B names)
    (hagree : A.AgreeOn B names known) {start : Method} (hstart : known start)
    (maxDepth : Int) :
    Run.Agree (CallerCache.Holds known) (topCallers first watch start maxDepth)
      (topCallers second other start maxDepth)
      fun result => ∀ m ∈ result.topCallers, known m ∧ m.key ≠ start.key := by
  have hempty : ({} : Tally).Finds known := by
    intro m hm
    cases hm
  unfold topCallers
  apply (agree_explore hfirst hsecond hagree _ (by simpa using hstart) hempty).bind
  intro tally htally
  apply Run.agree_pure
  intro m hm
  simp only [Tally.toResult, MethodSet.toList_erase, List.mem_filter, decide_eq_true_eq] at hm
  exact ⟨htally m hm.1, hm.2⟩

end Search

section Searches

variable {A B : Answers} {base : KnowledgeBase σ} {otherBase : KnowledgeBase τ}
  {watch : Watcher ρ} {other : Watcher υ} {known : Method → Prop}

theorem Undisturbed.free (h : Undisturbed base watch) (finder : Finder) (hbase : base.Follows A) :
    Search.Free (finder.setting base A.productionScope (Run.checkpoint base watch)) watch A
      finder.functional where
  follows := finder.setting_follows hbase _
  checkpoint _ := h.gives_checkpoint
  reports := h.report

/-- Over knowledge bases that agree on the known methods, searches from a known method that
nothing disturbs give the same result, in which all methods are known. -/
theorem Finder.search_agree (finder : Finder) (hbase : base.Follows A)
    (hotherBase : otherBase.Follows B) (hwatch : Undisturbed base watch)
    (hother : Undisturbed otherBase other) (hagree : A.AgreeOn B finder.functional known)
    {start : Method} (hstart : known start) {s : RunState σ ρ} {t : RunState τ υ}
    (hcache : s.cache = t.cache) (hholds : s.cache.Holds known) :
    ∃ result, (finder.search (.ok base) watch start s).1 = .ok result ∧
      (finder.search (.ok otherBase) other start t).1 = .ok result ∧
      ∀ m ∈ result.topCallers, known m ∧ m.key ≠ start.key := by
  have hsearch : Run.Agree (CallerCache.Holds known) (finder.search (.ok base) watch start)
      (finder.search (.ok otherBase) other start)
      fun result => ∀ m ∈ result.topCallers, known m ∧ m.key ≠ start.key := by
    intro c hc
    have hfound := Search.agree_topCallers (hwatch.free finder hbase)
      (hother.free finder hotherBase) hagree hstart finder.maxDepth c.trim hc.trim
    obtain ⟨result, d, hfirst, hsecond, hd, hresult⟩ := hfound
    refine ⟨result, d, ?_, ?_, hd, hresult⟩
    · exact Run.leads_trim.bind ((Run.leads_pure base).bind
        ((Run.leads_of_gives (Run.gives_lookup hbase.productionScope)).bind hfirst))
    · exact Run.leads_trim.bind ((Run.leads_pure otherBase).bind
        ((Run.leads_of_gives (Run.gives_lookup hotherBase.productionScope)).bind hsecond))
  obtain ⟨result, d, hfirst, hsecond, -, hresult⟩ := hsearch s.cache hholds
  exact ⟨result, (hfirst s rfl).1, (hsecond t hcache.symm).1, hresult⟩

end Searches

end EntryPoints
