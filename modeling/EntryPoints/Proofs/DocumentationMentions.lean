import EntryPoints.Proofs.FactOrigins
import EntryPoints.Proofs.MatchingAnswers
import EntryPoints.Proofs.ProductionIndex
import EntryPoints.Proofs.SearchAgreement

/-!
# Methods that documentation comments mention

A documentation comment may mention methods by links.  The mentions are recorded among
the invocations of a file, each at the place of its comment, and they are resolved as
invocations are.  They add no callers: the place of a mention lies in a documentation
comment, and a call site there does not count.

So the files without their mentions answer alike.  Their indexes match, since an index
knows nothing of invocations, and the call sites that are gone counted for no method.
-/

namespace EntryPoints

open Java

/-! ## Mentions stand in comments -/

/-- A property of lists of facts that holds of what single nodes state and that is kept when
such lists are put together. -/
structure Fact.Composes (P : List Fact → Prop) : Prop where
  nil : P []
  append : ∀ facts more, P facts → P more → P (facts ++ more)
  type : ∀ decl, P [.type decl]
  method : ∀ decl, P [.method decl]
  factsAt : ∀ (place : Place) node, P (place.factsAt node)
  creationFacts : ∀ (place : Place) node, P (place.creationFacts node)

section Composition

variable {P : List Fact → Prop}

mutual

theorem Fact.Composes.survey (h : Fact.Composes P) (place : Place) (before : Option Node) :
    ∀ (node : Node) (numbering : Numbering), P (survey place before node numbering).1
  | ⟨kind, role, span, text, children⟩, numbering => by
    have hinside (inside : Place) (isRead : Node → Bool) (numbering : Numbering) :
        P (EntryPoints.surveyAll inside isRead none children numbering).1 :=
      Fact.Composes.surveyAll h inside isRead none children numbering
    have hbody (decl : TypeDecl) {facts : List Fact} (hfacts : P facts) : P (.type decl :: facts) :=
      h.append _ _ (h.type decl) hfacts
    unfold EntryPoints.survey
    simp only
    split
    · split
      · exact h.nil
      · exact hbody _ (hinside _ _ _)
    · split
      · exact hinside _ _ _
      · split
        · exact hinside _ _ _
        · exact h.append _ _ (h.factsAt _ _) (hinside _ _ _)
    · split
      · exact h.append _ _ (h.method _) (hinside _ _ _)
      · split
        · split
          · exact h.append _ _ (hinside _ _ _) (hbody _ (hinside _ _ _))
          · exact hinside _ _ _
        · split
          · have hcreation (facts : List Fact) (hfacts : P facts) (node : Node) :
                P (place.creationFacts node ++ facts) :=
              h.append _ _ (h.creationFacts _ _) hfacts
            split
            · exact h.append _ _ (hcreation _ (hinside _ _ _) _) (hbody _ (hinside _ _ _))
            · exact hcreation _ (hinside _ _ _) _
          · exact h.append _ _ (h.factsAt _ _) (hinside _ _ _)

theorem Fact.Composes.surveyAll (h : Fact.Composes P) (place : Place) (isRead : Node → Bool) :
    ∀ (before : Option Node) (nodes : List Node) (numbering : Numbering),
      P (surveyAll place isRead before nodes numbering).1
  | _, [], _ => h.nil
  | before, node :: rest, numbering => by
    have hnode : P (if isRead node then EntryPoints.survey place before node numbering
        else ([], numbering)).1 := by
      split
      · exact Fact.Composes.survey h place before node numbering
      · exact h.nil
    unfold EntryPoints.surveyAll
    exact h.append _ _ hnode (Fact.Composes.surveyAll h place isRead _ rest _)

end

end Composition

/-- Every mention stands at the place of a documentation comment. -/
def Commented (facts : List Fact) : Prop :=
  ∀ call, .invocation call ∈ facts → call.kind = .documentation →
    .docComment call.location ∈ facts

theorem commented_of_kinds {facts : List Fact}
    (hkinds : ∀ call, .invocation call ∈ facts → call.kind ≠ .documentation) : Commented facts :=
  fun call hcall hkind => absurd hkind (hkinds call hcall)

namespace Place

variable (place : Place) (node : Node)

theorem commented_commentFacts : Commented (place.commentFacts node) := by
  intro call hcall _
  unfold commentFacts at hcall ⊢
  split at hcall
  next hdoc =>
    rw [if_pos hdoc]
    rcases List.mem_cons.mp hcall with hcall | hcall
    · cases hcall
    · split at hcall
      · obtain ⟨reference, -, hmention⟩ := List.mem_map.mp hcall
        cases hmention
        exact List.mem_cons_self
      · cases hcall
  next => cases hcall

theorem commented_factsAt : Commented (place.factsAt node) := by
  intro call hcall hkind
  cases place.statedAt_factsAt node _ hcall with
  | call hnot => exact absurd hkind hnot
  | mention hcomment reference =>
      have hfacts : place.factsAt node = place.commentFacts node := by
        unfold factsAt
        rw [hcomment]
      rw [hfacts] at hcall ⊢
      exact place.commented_commentFacts node _ hcall hkind

theorem commented_creationFacts : Commented (place.creationFacts node) := by
  apply commented_of_kinds
  intro call hcall
  unfold creationFacts at hcall
  split at hcall
  · split at hcall
    · cases hcall
    · cases List.mem_singleton.mp hcall
      exact CallKind.noConfusion
  · cases hcall

end Place

theorem composes_commented : Fact.Composes Commented where
  nil := commented_of_kinds (by simp)
  append facts more hfacts hmore call hcall hkind := by
    rcases List.mem_append.mp hcall with hcall | hcall
    · exact List.mem_append_left _ (hfacts call hcall hkind)
    · exact List.mem_append_right _ (hmore call hcall hkind)
  type decl := commented_of_kinds (by simp)
  method decl := commented_of_kinds (by simp)
  factsAt place node := place.commented_factsAt node
  creationFacts place node := place.commented_creationFacts node

namespace FileFacts

theorem location_mem_docComments {source : SourceFile} {path : String} {tree : Java.Node}
    {call : Invocation} (hcall : call ∈ (ofTree source path tree).invocations)
    (hkind : call.kind = .documentation) :
    call.location ∈ (ofTree source path tree).docComments := by
  have hfact := invocation_mem_factsOf hcall
  have hcomment := composes_commented.survey _ none tree ∅ call hfact hkind
  exact List.mem_filterMap.mpr ⟨_, hcomment, rfl⟩

/-- The facts of a file without the methods that its comments mention. -/
def withoutMentions (file : FileFacts) : FileFacts :=
  { file with invocations := file.invocations.filter (·.kind ≠ .documentation) }

theorem keepsNames_withoutMentions : KeepsNames withoutMentions where
  package _ := rfl
  imports _ := rfl
  wildcardImports _ := rfl
  staticImports _ := rfl

end FileFacts

/-! ## Indexes without mentions -/

theorem Table.keys_ofList_map {κ α β : Type} [BEq κ] [Hashable κ] [EquivBEq κ] [LawfulHashable κ]
    (entries : List (κ × α)) (f : α → β) :
    (Table.ofList (entries.map fun e => (e.1, f e.2))).keys = (Table.ofList entries).keys := by
  induction entries using List.reverseRecOn with
  | nil => rfl
  | append_singleton entries entry ih =>
      have hcontains : (Table.ofList (entries.map fun e => (e.1, f e.2))).contains entry.1 =
          (Table.ofList entries).contains entry.1 := by
        rw [← contains_keys_ofList, ih, contains_keys_ofList]
      rw [List.map_append, List.map_singleton, ofList_concat, ofList_concat, keys_insert,
        keys_insert, hcontains, ih]

namespace CodeIndex

variable (files : List FileFacts)

theorem typeEntries_withoutMentions :
    typeEntries (files.map FileFacts.withoutMentions) =
      (typeEntries files).map (TypeEntry.inFile FileFacts.withoutMentions) := by
  unfold typeEntries
  rw [List.flatMap_map, List.map_flatMap]
  apply List.flatMap_congr
  intro file _
  rw [List.map_map]
  rfl

theorem type?_withoutMentions (k : String) :
    (ofFiles (files.map FileFacts.withoutMentions)).type? k =
      ((ofFiles files).type? k).map (TypeEntry.inFile FileFacts.withoutMentions) := by
  rw [type?_ofFiles, type?_ofFiles, typeEntries_withoutMentions, ← List.map_reverse,
    List.find?_map]
  rfl

theorem methodEntries_withoutMentions :
    methodEntries (typesOf (files.map FileFacts.withoutMentions))
        (files.map FileFacts.withoutMentions) =
      (methodEntries (typesOf files) files).map fun e =>
        (e.1, e.2.inFile FileFacts.withoutMentions) := by
  unfold methodEntries
  rw [List.flatMap_map, List.map_flatMap]
  apply List.flatMap_congr
  intro file _
  rw [List.map_filterMap]
  apply List.filterMap_congr
  intro decl _
  have htype := type?_withoutMentions files decl.owner
  change (typesOf (files.map FileFacts.withoutMentions)).get? decl.owner =
    ((typesOf files).get? decl.owner).map _ at htype
  rw [htype, Option.map_map, Option.map_map]
  rfl

theorem matches_withoutMentions :
    (ofFiles files).Matches FileFacts.withoutMentions
      (ofFiles (files.map FileFacts.withoutMentions)) where
  keepsNames := FileFacts.keepsNames_withoutMentions
  type? := type?_withoutMentions files
  qualified name := by
    rw [qualified_ofFiles, qualified_ofFiles, typeEntries_withoutMentions, List.filter_map,
      ← List.map_reverse, List.find?_map, Option.map_map]
    rfl
  simple name := by
    rw [simple_ofFiles, simple_ofFiles, typeEntries_withoutMentions, List.filter_map,
      List.filter_map, List.map_map]
    rfl
  declarations id := by
    rw [declarations_ofFiles, declarations_ofFiles, methodEntries_withoutMentions,
      ← List.map_reverse, List.find?_map, Option.map_map]
    rfl
  methodsDeclaredBy k := by
    rw [methodsDeclaredBy_ofFiles, methodsDeclaredBy_ofFiles, methodEntries_withoutMentions,
      List.filter_map, List.map_map]
    rfl
  methodsOfFile path := by
    rw [methodsOfFile_ofFiles, methodsOfFile_ofFiles, methodEntries_withoutMentions,
      List.filter_map, List.map_map]
    rfl
  entryOf m := by
    rw [Codebase.entryOf_ofFiles, Codebase.entryOf_ofFiles, methodEntries_withoutMentions,
      ← List.map_reverse, List.find?_map, Option.map_map, Option.map_map]
    rfl
  typeCount := by
    have hkeys := Table.keys_ofList_map
      ((typeEntries files).map fun entry => (entry.decl.binaryName, entry))
      (TypeEntry.inFile FileFacts.withoutMentions)
    rw [Table.size_eq_length_keys, Table.size_eq_length_keys]
    change (typesOf (files.map FileFacts.withoutMentions)).keys.length =
      (typesOf files).keys.length
    unfold typesOf
    rw [← hkeys, typeEntries_withoutMentions, List.map_map, List.map_map]
    rfl
  methodCount := by
    have hkeys := Table.keys_ofList_map (methodEntries (typesOf files) files)
      (MethodEntry.inFile FileFacts.withoutMentions)
    rw [Table.size_eq_length_keys, Table.size_eq_length_keys]
    change (Table.ofList (methodEntries (typesOf (files.map FileFacts.withoutMentions))
        (files.map FileFacts.withoutMentions))).keys.length =
      (Table.ofList (methodEntries (typesOf files) files)).keys.length
    rw [methodEntries_withoutMentions, hkeys]

end CodeIndex

/-! ## Snapshots without mentions -/

namespace Snapshot

variable {files : List FileFacts} {scope : Scope}

/-- The snapshot of the files without the mentions in their comments. -/
def withoutMentions (files : List FileFacts) (scope : Scope) : Snapshot :=
  .ofFiles (files.map FileFacts.withoutMentions) scope

theorem isInDocComment_withoutMentions (place : Location) :
    (withoutMentions files scope).isInDocComment place =
      (ofFiles files scope).isInDocComment place := by
  have hcomments : (withoutMentions files scope).docComments[place.file]? =
      (ofFiles files scope).docComments[place.file]? := by
    unfold withoutMentions
    rw [docComments_ofFiles, docComments_ofFiles, List.filter_map, ← List.map_reverse,
      List.find?_map, Option.map_map]
    rfl
  unfold isInDocComment
  rw [Std.HashMap.getD_eq_getD_getElem?, Std.HashMap.getD_eq_getD_getElem?, hcomments]

theorem alike_withoutMentions :
    (ofFiles files scope).answers.Alike (withoutMentions files scope).answers :=
  alike_answers (CodeIndex.matches_withoutMentions files) isInDocComment_withoutMentions rfl

/-- The place of a mention lies in a documentation comment of its file. -/
theorem isInDocComment_of_mention
    (hfiles : ∀ file ∈ files, ∃ source path tree, file = FileFacts.ofTree source path tree)
    (hpaths : (files.map (·.file)).Nodup) {file : FileFacts} (hfile : file ∈ files)
    {call : Invocation} (hcall : call ∈ file.invocations) (hkind : call.kind = .documentation) :
    (ofFiles files scope).isInDocComment call.location = true := by
  obtain ⟨source, path, tree, hfacts⟩ := hfiles file hfile
  have hplace : call.location.file = file.file := by
    rw [hfacts] at hcall ⊢
    exact ((FileFacts.isSelfContained_ofTree source path tree).invocations call hcall).1
  have hcomment : call.location ∈ file.docComments := by
    rw [hfacts] at hcall ⊢
    exact FileFacts.location_mem_docComments hcall hkind
  have hcomments : (ofFiles files scope).docComments[call.location.file]? =
      some file.docComments := by
    have hkept : file ∈ (files.filter fun file => !file.docComments.isEmpty).reverse := by
      have hnonempty : file.docComments ≠ [] := List.ne_nil_of_mem hcomment
      rw [List.mem_reverse, List.mem_filter]
      exact ⟨hfile, by simp [hnonempty]⟩
    rw [docComments_ofFiles, hplace]
    cases hfound : (files.filter fun file => !file.docComments.isEmpty).reverse.find?
        (·.file == file.file) with
    | none => exact absurd BEq.rfl (List.find?_eq_none.mp hfound file hkept)
    | some other =>
        have hother : other ∈ files :=
          (List.mem_filter.mp (List.mem_reverse.mp (List.mem_of_find?_eq_some hfound))).1
        have hpath : other.file = file.file := by simpa using List.find?_some hfound
        rw [List.inj_on_of_nodup_map hpaths hother hfile hpath]
        rfl
  unfold isInDocComment
  rw [Std.HashMap.getD_eq_getD_getElem?, hcomments, Option.getD_some, List.any_eq_true]
  exact ⟨call.location, hcomment, call.location.contains_refl⟩

/-- The calls that are left are those that no comment mentions. -/
theorem calls_withoutMentions (name : String) :
    (withoutMentions files scope).calls.getD name [] =
      ((ofFiles files scope).calls.getD name []).filter fun site =>
        site.call.kind ≠ .documentation := by
  have hresolved (file : FileFacts) :
      resolveCalls (CodeIndex.ofFiles (files.map FileFacts.withoutMentions)) file.withoutMentions =
        (resolveCalls (CodeIndex.ofFiles files) file).filter fun site =>
          site.call.kind ≠ .documentation := by
    unfold resolveCalls
    rw [List.filter_map]
    apply List.map_congr_left
    intro call _
    rw [(CodeIndex.matches_withoutMentions files).resolveCall file call]
  unfold withoutMentions
  rw [calls_getD, calls_getD, List.flatMap_map, List.filter_comm]
  congr 1
  rw [List.filter_flatMap]
  exact List.flatMap_congr fun file _ => hresolved file

theorem functional_withoutMentions :
    (withoutMentions files scope).functional = (ofFiles files scope).functional := by
  have hresolved (file : FileFacts) :
      resolveUses (CodeIndex.ofFiles (files.map FileFacts.withoutMentions)) file.withoutMentions =
        resolveUses (CodeIndex.ofFiles files) file := by
    apply List.map_congr_left
    intro use _
    rw [(CodeIndex.matches_withoutMentions files).resolveUse file use]
  change (files.map FileFacts.withoutMentions).flatMap _ = files.flatMap _
  rw [List.flatMap_map]
  exact List.flatMap_congr fun file _ => hresolved file

section Answers

variable (hfiles : ∀ file ∈ files, ∃ source path tree, file = FileFacts.ofTree source path tree)
  (hpaths : (files.map (·.file)).Nodup)

include hfiles hpaths

theorem isInDocComment_of_mem_calls {name : String} {site : IndexedCall}
    (hsite : site ∈ (ofFiles files scope).calls.getD name [])
    (hkind : site.call.kind = .documentation) :
    (ofFiles files scope).isInDocComment site.call.location = true := by
  rw [calls_getD] at hsite
  obtain ⟨file, hfile, hmem⟩ := List.mem_flatMap.mp (List.mem_filter.mp hsite).1
  obtain ⟨call, hcall, rfl⟩ := List.mem_map.mp hmem
  exact isInDocComment_of_mention hfiles hpaths hfile hcall hkind

/-- A mention counts for no method, so it is not missed. -/
theorem directCallers_withoutMentions (m : Method) (implementation : Option TypeSymbol) :
    (withoutMentions files scope).answers.directCallers m implementation =
      (ofFiles files scope).answers.directCallers m implementation := by
  have halike : (ofFiles files scope).answers.Alike (withoutMentions files scope).answers :=
    alike_withoutMentions
  have hmention (site : IndexedCall) (hsite : site ∈ (ofFiles files scope).calls.getD m.name [])
      (hkind : site.call.kind = .documentation) :
      (ofFiles files scope).answers.callerAt m.owner implementation (toCallSite site) = none := by
    have hcomment :
        (ofFiles files scope).answers.isInDocComment (toCallSite site).location = true :=
      isInDocComment_of_mem_calls hfiles hpaths hsite hkind
    unfold Answers.callerAt Answers.accepts
    rw [hcomment]
    rfl
  have hcallers : (withoutMentions files scope).answers.callerAt m.owner implementation =
      (ofFiles files scope).answers.callerAt m.owner implementation :=
    funext (halike.callerAt m.owner implementation)
  change ((withoutMentions files scope).callSites m scope).filterMap _ =
    ((ofFiles files scope).callSites m scope).filterMap _
  unfold callSites
  rw [hcallers, calls_withoutMentions, List.filterMap_map, List.filterMap_map,
    List.filterMap_filter, List.filterMap_filter, List.filterMap_filter]
  apply List.filterMap_congr
  intro site hsite
  by_cases hkind : site.call.kind = .documentation
  · simp [hkind, hmention site hsite hkind]
  · simp [hkind]

theorem callers_withoutMentions (m : Method) :
    (withoutMentions files scope).answers.callers m =
      (ofFiles files scope).answers.callers m := by
  have halike : (ofFiles files scope).answers.Alike (withoutMentions files scope).answers :=
    alike_withoutMentions
  unfold Answers.callers
  simp only [directCallers_withoutMentions hfiles hpaths, halike.overriddenRoots]

theorem agreeOn_withoutMentions (names : List String) :
    (ofFiles files scope).answers.AgreeOn (withoutMentions files scope).answers names
      fun _ => True := by
  have halike : (ofFiles files scope).answers.Alike (withoutMentions files scope).answers :=
    alike_withoutMentions
  have howners (m : Method) : (withoutMentions files scope).answers.lambdaOwners m =
      (ofFiles files scope).answers.lambdaOwners m := by
    have hexpressions (t : TypeSymbol) :
        (withoutMentions files scope).answers.functionalImplementations t scope =
          (ofFiles files scope).answers.functionalImplementations t scope := by
      change (withoutMentions files scope).functional.filter _ =
        (ofFiles files scope).functional.filter _
      rw [functional_withoutMentions]
    unfold Answers.lambdaOwners
    rw [funext halike.expressionOwner]
    exact congrArg _ (congrArg _ (hexpressions m.owner))
  constructor
  · intro m _
    unfold Answers.substitutes
    rw [halike.creatorOf, halike.isFunctional, howners]
  · intro m _ _
    exact callers_withoutMentions hfiles hpaths m
  · intro m _
    exact halike.isFunctional names m
  · intro m _ above _
    trivial

variable {σ τ ρ υ : Type}

/-- The files and the files without the methods that their documentation comments mention have
the same callers of every method, and every search has the same result. -/
theorem search_without_mentions (finder : Finder) {watcher : Watcher ρ} {other : Watcher υ}
    (hwatcher : Undisturbed ((ofFiles files scope).knowledgeBase : KnowledgeBase σ) watcher)
    (hother : Undisturbed ((withoutMentions files scope).knowledgeBase : KnowledgeBase τ) other)
    (m : Method) {s : RunState σ ρ} {t : RunState τ υ} (hcache : s.cache = t.cache) :
    (∃ callers,
      ((finder.setting (ofFiles files scope).knowledgeBase scope
        (Run.checkpoint (ofFiles files scope).knowledgeBase watcher)).callersOf m none s).1 =
          .ok callers ∧
      ((finder.setting (withoutMentions files scope).knowledgeBase scope
        (Run.checkpoint (withoutMentions files scope).knowledgeBase other)).callersOf m none t).1 =
          .ok callers) ∧
    ∃ result,
      (finder.search (.ok (ofFiles files scope).knowledgeBase) watcher m s).1 = .ok result ∧
      (finder.search (.ok (withoutMentions files scope).knowledgeBase) other m t).1 =
        .ok result := by
  have hagree : (ofFiles files scope).answers.AgreeOn (withoutMentions files scope).answers
      finder.functional fun _ => True :=
    agreeOn_withoutMentions hfiles hpaths finder.functional
  have hholds : s.cache.Holds fun _ => True := fun _ _ _ _ _ => trivial
  constructor
  · have hfirst := hwatcher.free finder (ofFiles files scope).follows_answers
    have hsecond := hother.free finder (withoutMentions files scope).follows_answers
    have hcallers : (withoutMentions files scope).answers.callers m =
        (ofFiles files scope).answers.callers m := callers_withoutMentions hfiles hpaths m
    obtain ⟨callers, d, hleads, hleadsOther, -, -⟩ :=
      Search.agree_callersOf hfirst hsecond hcallers (fun _ _ => trivial) s.cache hholds
    exact ⟨callers, (hleads s rfl).1, (hleadsOther t hcache.symm).1⟩
  · obtain ⟨result, hfirst, hsecond, -⟩ :=
      finder.search_agree (ofFiles files scope).follows_answers
        (withoutMentions files scope).follows_answers hwatcher hother hagree trivial hcache hholds
    exact ⟨result, hfirst, hsecond⟩

end Answers

/-- A comment in front of a method mentions the method. -/
theorem search_without_self_mention :
    let file := FileFacts.ofText "A.java" "class A{/** {@link #f} */void f(){}}" none
    let f := CodeIndex.methodOf (CodeIndex.symbolOf file.types.head!) file.methods.head!
    file.invocations.map (fun call => (call.kind, call.name)) = [(.documentation, f.name)] ∧
      ∃ result,
        ((default : Finder).search (.ok (ofFiles [file] default).knowledgeBase) Watcher.idle f
          (⟨(), (), {}⟩ : RunState Unit Unit)).1 = .ok result ∧
        ((default : Finder).search (.ok (withoutMentions [file] default).knowledgeBase)
          Watcher.idle f (⟨(), (), {}⟩ : RunState Unit Unit)).1 = .ok result := by
  intro file f
  have hmention : file.invocations.map (fun call => (call.kind, call.name)) =
      [(.documentation, f.name)] := by
    decide +kernel
  have hfiles : ∀ other ∈ [file], ∃ source path tree, other = FileFacts.ofTree source path tree := by
    intro other hother
    exact ⟨_, _, _, List.mem_singleton.mp hother⟩
  have hpaths : ([file].map (·.file)).Nodup := List.nodup_singleton _
  have hwatcher : Undisturbed ((ofFiles [file] default).knowledgeBase : KnowledgeBase Unit)
      (Watcher.idle : Watcher Unit) := undisturbed_idle fun _ => rfl
  have hother : Undisturbed ((withoutMentions [file] default).knowledgeBase : KnowledgeBase Unit)
      (Watcher.idle : Watcher Unit) := undisturbed_idle fun _ => rfl
  exact ⟨hmention, (search_without_mentions hfiles hpaths default hwatcher hother f rfl).2⟩

end Snapshot

end EntryPoints
