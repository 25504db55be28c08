import EntryPoints.Proofs.MethodKeys
import EntryPoints.Proofs.ProductionIndex
import EntryPoints.Proofs.SearchReordering
import Mathlib.Data.List.Find

/-!
# The order of files

An index lists types, methods and invocations in the order of its files.  Where files, types
and methods are told apart by their names, the order does not reach the answers.  A look-up by
a name finds the only entry of the name, and the methods of a type or of a file are all listed
by one file.  What is left is the order of the call sites and lambdas, and of the types of one
simple name, which must be the only one of its name to be found by it.

The id of a method names the type that declares it, and only one file declares the type.  So the
methods of one id are all listed by one file too.
-/

namespace EntryPoints

/-- Of a list in two orders, at most one member contributes something. -/
theorem flatMap_eq_of_perm {α β : Type} {f : α → List β} {as others : List α}
    (hperm : others.Perm as) (hnodup : as.Nodup)
    (hone : ∀ a ∈ as, ∀ b ∈ as, f a ≠ [] → f b ≠ [] → a = b) :
    others.flatMap f = as.flatMap f := by
  have hsplit (l : List α) : l.flatMap f = (l.filter fun a => !(f a).isEmpty).flatMap f := by
    induction l with
    | nil => rfl
    | cons a l ih =>
        rw [List.flatMap_cons, List.filter_cons, ih]
        cases hempty : f a with
        | nil => simp
        | cons b bs => simp [hempty]
  have hfilter : (others.filter fun a => !(f a).isEmpty) = as.filter fun a => !(f a).isEmpty := by
    have hkept := hperm.filter fun a => !(f a).isEmpty
    cases hkept' : as.filter fun a => !(f a).isEmpty with
    | nil =>
        rw [hkept'] at hkept
        exact List.perm_nil.mp hkept
    | cons a rest =>
        have hmem (b : α) (hb : b ∈ a :: rest) : b ∈ as ∧ f b ≠ [] := by
          rw [← hkept', List.mem_filter] at hb
          simpa using hb
        have hsingle : rest = [] := by
          cases rest with
          | nil => rfl
          | cons b rest =>
              have ha := hmem a (by simp)
              have hb := hmem b (by simp)
              have hdistinct := hnodup.filter fun a => !(f a).isEmpty
              rw [hkept', hone a ha.1 b hb.1 ha.2 hb.2] at hdistinct
              simp at hdistinct
        rw [hkept', hsingle] at hkept
        rw [hsingle]
        exact List.perm_singleton.mp hkept
  rw [hsplit others, hsplit as, hfilter]

/-- Of a list in two orders, at most one member is looked for. -/
theorem find?_reverse_of_perm {α : Type} {p : α → Bool} {as others : List α}
    (hperm : others.Perm as) (hone : ∀ a ∈ as, ∀ b ∈ as, p a = true → p b = true → a = b) :
    others.reverse.find? p = as.reverse.find? p := by
  have hreverse : others.reverse.Perm as.reverse :=
    (List.reverse_perm _).trans (hperm.trans (List.reverse_perm _).symm)
  refine List.find?_eq_find?_of_perm hreverse fun a ha b hb => ?_
  have hmem (c : α) (hc : c ∈ others.reverse) : c ∈ as := hperm.subset (List.mem_reverse.mp hc)
  exact hone a (hmem a ha.1) b (hmem b hb.1) ha.2 hb.2

theorem Table.size_ofList {κ α : Type} [BEq κ] [Hashable κ] [EquivBEq κ] [LawfulHashable κ]
    {entries : List (κ × α)} (hentries : entries.Pairwise fun a b => (a.1 == b.1) = false) :
    (Table.ofList entries).size = entries.length := by
  rw [size_eq_length_keys, keys_ofList hentries, List.length_map]

namespace CodeIndex

variable {files others : List FileFacts}

/-- Files that were read off trees, that are told apart by their paths, and whose types and
methods are told apart by their names.  The mark in front of the name of a method in its id does
not occur in the name. -/
structure AreDistinct (files : List FileFacts) : Prop where
  analyzed : ∀ file ∈ files, ∃ source path tree, file = FileFacts.ofTree source path tree
  methodNames : ∀ file ∈ files, ∀ decl ∈ file.methods, '#' ∉ decl.name.toList
  paths : (files.map (·.file)).Nodup
  binaryNames : ((typeEntries files).map (·.decl.binaryName)).Nodup
  qualifiedNames : (((typeEntries files).filter (·.decl.qualifiedName.isSome)).map
    (·.decl.qualifiedName)).Nodup
  methodKeys : ((methodEntries (typesOf files) files).map (·.1.key)).Nodup

/-- One of the files declares the method. -/
def Declares (files : List FileFacts) (m : Method) : Prop :=
  ∃ a ∈ methodEntries (typesOf files) files, a.1 = m

namespace AreDistinct

variable (h : AreDistinct files)

include h

theorem isSelfContained {file : FileFacts} (hfile : file ∈ files) : file.IsSelfContained := by
  obtain ⟨source, path, tree, rfl⟩ := h.analyzed file hfile
  exact FileFacts.isSelfContained_ofTree source path tree

/-- Only one file declares the type of a binary name. -/
theorem file_eq {file other : FileFacts} (hfile : file ∈ files) (hother : other ∈ files)
    {k : String} (hk : k ∈ file.types.map (·.binaryName))
    (hkOther : k ∈ other.types.map (·.binaryName)) : file = other := by
  obtain ⟨decl, hdecl, rfl⟩ := List.mem_map.mp hk
  obtain ⟨same, hsame, hname⟩ := List.mem_map.mp hkOther
  have hentry : ⟨symbolOf decl, decl, file⟩ ∈ typeEntries files :=
    mem_typeEntries.mpr ⟨hfile, hdecl, rfl⟩
  have hentryOther : ⟨symbolOf same, same, other⟩ ∈ typeEntries files :=
    mem_typeEntries.mpr ⟨hother, hsame, rfl⟩
  have heq := List.inj_on_of_nodup_map h.binaryNames hentry hentryOther hname.symm
  exact congrArg TypeEntry.file heq

theorem entry_eq_of_qualified {a b : TypeEntry}
    (ha : a ∈ typeEntries files ∧ isQualified a = true)
    (hb : b ∈ typeEntries files ∧ isQualified b = true)
    (hname : a.decl.qualifiedName.getD "" = b.decl.qualifiedName.getD "") : a = b := by
  have hsome (entry : TypeEntry) (hentry : isQualified entry = true) :
      entry.decl.qualifiedName = some (entry.decl.qualifiedName.getD "") := by
    unfold isQualified at hentry
    cases hnone : entry.decl.qualifiedName with
    | none => simp [hnone] at hentry
    | some name => rfl
  have hsame : a.decl.qualifiedName = b.decl.qualifiedName := by
    rw [hsome a ha.2, hsome b hb.2, hname]
  have hmem (entry : TypeEntry) (hentry : entry ∈ typeEntries files ∧ isQualified entry = true) :
      entry ∈ (typeEntries files).filter (·.decl.qualifiedName.isSome) := by
    rw [List.mem_filter, hsome entry hentry.2]
    exact ⟨hentry.1, rfl⟩
  exact List.inj_on_of_nodup_map h.qualifiedNames (hmem a ha) (hmem b hb) hsame

theorem eq_of_key {m n : Method} (hm : Declares files m) (hn : Declares files n)
    (hkey : m.key = n.key) : m = n := by
  obtain ⟨a, ha, rfl⟩ := hm
  obtain ⟨b, hb, rfl⟩ := hn
  rw [List.inj_on_of_nodup_map h.methodKeys ha hb hkey]

/-- The methods of one type are declared by one file. -/
theorem file_eq_of_owner {a b : Method × MethodEntry}
    (ha : a ∈ methodEntries (typesOf files) files) (hb : b ∈ methodEntries (typesOf files) files)
    (howner : a.2.decl.owner = b.2.decl.owner) : a.2.file = b.2.file := by
  obtain ⟨hfile, hdecl⟩ := file_of_mem_methodEntries ha
  obtain ⟨hother, hdeclOther⟩ := file_of_mem_methodEntries hb
  refine h.file_eq hfile hother ((h.isSelfContained hfile).methods _ hdecl).2 ?_
  rw [howner]
  exact ((h.isSelfContained hother).methods _ hdeclOther).2

omit h in
/-- The id of a method tells who declares it. -/
theorem owner_eq_of_id {decl other : MethodDecl} (hdecl : decl.HasIdOfItsOwn)
    (hother : other.HasIdOfItsOwn) (hname : '#' ∉ decl.name.toList)
    (hnameOther : '#' ∉ other.name.toList) (hid : decl.id = other.id) :
    decl.owner = other.owner := by
  obtain ⟨offset, hoffset⟩ := hdecl
  obtain ⟨position, hposition⟩ := hother
  rw [hoffset, hposition] at hid
  have hcut (d : MethodDecl) :
      (d.owner ++ "#" ++ d.name).toList = d.owner.toList ++ '#' :: d.name.toList := by
    simp
  have hfront := congrArg String.toList (eq_of_append_toString hid).1
  rw [hcut, hcut] at hfront
  exact String.toList_injective (eq_of_append_last hname hnameOther hfront).1

/-- The methods of one id are declared by one file. -/
theorem file_eq_of_id {a b : Method × MethodEntry}
    (ha : a ∈ methodEntries (typesOf files) files) (hb : b ∈ methodEntries (typesOf files) files)
    (hid : a.2.decl.id = b.2.decl.id) : a.2.file = b.2.file := by
  obtain ⟨hfile, hdecl⟩ := file_of_mem_methodEntries ha
  obtain ⟨hother, hdeclOther⟩ := file_of_mem_methodEntries hb
  exact h.file_eq_of_owner ha hb (owner_eq_of_id ((h.isSelfContained hfile).ids _ hdecl)
    ((h.isSelfContained hother).ids _ hdeclOther) (h.methodNames _ hfile _ hdecl)
    (h.methodNames _ hother _ hdeclOther) hid)

/-! ### The same files in another order -/

variable (hperm : others.Perm files)

omit h in
include hperm in
theorem typeEntries_perm : (typeEntries others).Perm (typeEntries files) :=
  hperm.flatMap_right _

include hperm

theorem type?_perm (k : String) : (ofFiles others).type? k = (ofFiles files).type? k := by
  rw [type?_ofFiles, type?_ofFiles]
  refine find?_reverse_of_perm (typeEntries_perm hperm) fun a ha b hb hak hbk => ?_
  rw [beq_iff_eq] at hak hbk
  exact List.inj_on_of_nodup_map h.binaryNames ha hb (hak.trans hbk.symm)

/-- The methods of files in another order are declared by the same types. -/
theorem methodEntries_eq : methodEntries (typesOf others) others =
    methodEntries (typesOf files) others := by
  have htypes : (typesOf others).get? = (typesOf files).get? := funext (h.type?_perm hperm)
  unfold methodEntries
  rw [htypes]

theorem methodEntries_perm : (methodEntries (typesOf others) others).Perm
    (methodEntries (typesOf files) files) := by
  rw [h.methodEntries_eq hperm]
  exact hperm.flatMap_right _

/-- The methods that one file declares keep their order. -/
theorem filter_methodEntries_perm (p : Method × MethodEntry → Bool)
    (hone : ∀ a ∈ methodEntries (typesOf files) files, ∀ b ∈ methodEntries (typesOf files) files,
      p a = true → p b = true → a.2.file = b.2.file) :
    (methodEntries (typesOf others) others).filter p =
      (methodEntries (typesOf files) files).filter p := by
  rw [h.methodEntries_eq hperm]
  unfold methodEntries
  rw [List.filter_flatMap, List.filter_flatMap]
  have hdeclares (file : FileFacts) (hfile : file ∈ files)
      (hsome : ((file.methods.filterMap fun decl => ((typesOf files).get? decl.owner).map
        fun owner => (methodOf owner.symbol decl, ⟨decl, file⟩)).filter p) ≠ []) :
      ∃ a ∈ methodEntries (typesOf files) files, p a = true ∧ a.2.file = file := by
    obtain ⟨a, ha⟩ := List.exists_mem_of_ne_nil _ hsome
    obtain ⟨hentry, hp⟩ := List.mem_filter.mp ha
    refine ⟨a, List.mem_flatMap.mpr ⟨file, hfile, hentry⟩, hp, ?_⟩
    obtain ⟨decl, -, hdecl⟩ := List.mem_filterMap.mp hentry
    obtain ⟨owner, -, rfl⟩ := Option.map_eq_some_iff.mp hdecl
    rfl
  refine flatMap_eq_of_perm hperm (List.Nodup.of_map _ h.paths) fun file hfile other hother => ?_
  intro hsome hsomeOther
  obtain ⟨a, ha, hpa, rfl⟩ := hdeclares file hfile hsome
  obtain ⟨b, hb, hpb, rfl⟩ := hdeclares other hother hsomeOther
  exact hone a ha b hb hpa hpb

theorem matches_perm : (ofFiles files).Matches id (ofFiles others) where
  keepsNames := FileFacts.keepsNames_id
  type? k := by
    rw [h.type?_perm hperm]
    cases (ofFiles files).type? k <;> rfl
  qualified name := by
    rw [qualified_ofFiles, qualified_ofFiles]
    refine congrArg _ (find?_reverse_of_perm ((typeEntries_perm hperm).filter _) ?_)
    intro a ha b hb haname hbname
    rw [beq_iff_eq] at haname hbname
    exact h.entry_eq_of_qualified (List.mem_filter.mp ha) (List.mem_filter.mp hb)
      (haname.trans hbname.symm)
  simple name := by
    rw [simple_ofFiles, simple_ofFiles]
    exact (((typeEntries_perm hperm).filter _).filter _).map _
  declarations id := by
    rw [declarations_ofFiles, declarations_ofFiles, ← List.head?_filter, ← List.head?_filter,
      List.filter_reverse, List.filter_reverse, h.filter_methodEntries_perm hperm]
    intro a ha b hb haid hbid
    rw [beq_iff_eq] at haid hbid
    exact h.file_eq_of_id ha hb (haid.trans hbid.symm)
  methodsDeclaredBy k := by
    rw [methodsDeclaredBy_ofFiles, methodsDeclaredBy_ofFiles, h.filter_methodEntries_perm hperm]
    intro a ha b hb hak hbk
    rw [beq_iff_eq] at hak hbk
    exact h.file_eq_of_owner ha hb (hak.trans hbk.symm)
  methodsOfFile path := by
    rw [methodsOfFile_ofFiles, methodsOfFile_ofFiles, h.filter_methodEntries_perm hperm]
    intro a ha b hb hpath hpathOther
    rw [beq_iff_eq] at hpath hpathOther
    exact List.inj_on_of_nodup_map h.paths (file_of_mem_methodEntries ha).1
      (file_of_mem_methodEntries hb).1 (hpath.trans hpathOther.symm)
  entryOf m := by
    rw [Codebase.entryOf_ofFiles, Codebase.entryOf_ofFiles]
    have hfound : (methodEntries (typesOf others) others).reverse.find? (·.1 == m) =
        (methodEntries (typesOf files) files).reverse.find? (·.1 == m) :=
      find?_reverse_of_perm (h.methodEntries_perm hperm) fun a ha b hb ham hbm =>
        List.inj_on_of_nodup_map h.methodKeys ha hb
          ((Method.key_eq_of_beq ham).trans (Method.key_eq_of_beq hbm).symm)
    rw [hfound, Option.map_map]
    rfl
  typeCount := by
    have hcount (fs : List FileFacts) (hnames : ((typeEntries fs).map (·.decl.binaryName)).Nodup) :
        (ofFiles fs).types.size = (typeEntries fs).length := by
      have hapart : ((typeEntries fs).map fun entry => (entry.decl.binaryName, entry)).Pairwise
          fun a b => (a.1 == b.1) = false :=
        List.pairwise_map.mpr ((List.pairwise_map.mp hnames).imp beq_false_of_ne)
      exact (Table.size_ofList hapart).trans (List.length_map _)
    rw [hcount files h.binaryNames, hcount others, (typeEntries_perm hperm).length_eq]
    exact ((typeEntries_perm hperm).map _).nodup_iff.mpr h.binaryNames
  methodCount := by
    have hcount (fs : List FileFacts)
        (hkeys : ((methodEntries (typesOf fs) fs).map (·.1.key)).Nodup) :
        (ofFiles fs).methods.size = (methodEntries (typesOf fs) fs).length := by
      refine Table.size_ofList ((List.pairwise_map.mp hkeys).imp fun hne => ?_)
      rw [Bool.eq_false_iff]
      exact fun hsame => hne (Method.key_eq_of_beq hsame)
    rw [hcount files h.methodKeys, hcount others, (h.methodEntries_perm hperm).length_eq]
    exact ((h.methodEntries_perm hperm).map _).nodup_iff.mpr h.methodKeys

end AreDistinct

end CodeIndex

/-! ## Snapshots -/

namespace Snapshot

open CodeIndex

variable {files others : List FileFacts} {scope : Scope} (h : AreDistinct files)
  (hperm : others.Perm files)

include h hperm

theorem isInDocComment_perm (place : Location) :
    (ofFiles others scope).isInDocComment place = (ofFiles files scope).isInDocComment place := by
  have hcomments : (ofFiles others scope).docComments[place.file]? =
      (ofFiles files scope).docComments[place.file]? := by
    rw [docComments_ofFiles, docComments_ofFiles]
    refine congrArg _ (find?_reverse_of_perm (hperm.filter _) fun a ha b hb hplace helse => ?_)
    rw [beq_iff_eq] at hplace helse
    exact List.inj_on_of_nodup_map h.paths (List.mem_of_mem_filter ha) (List.mem_of_mem_filter hb)
      (hplace.trans helse.symm)
  unfold isInDocComment
  rw [Std.HashMap.getD_eq_getD_getElem?, Std.HashMap.getD_eq_getD_getElem?, hcomments]

theorem calls_perm (name : String) : ((ofFiles others scope).calls.getD name []).Perm
    ((ofFiles files scope).calls.getD name []) := by
  have hresolved : resolveCalls (CodeIndex.ofFiles others) =
      resolveCalls (CodeIndex.ofFiles files) := by
    funext file
    apply List.map_congr_left
    intro call _
    exact congrArg (IndexedCall.mk call) ((h.matches_perm hperm).resolveCall file call)
  rw [calls_getD, calls_getD, hresolved]
  exact (hperm.flatMap_right _).filter _

theorem functional_perm :
    ((ofFiles others scope).functional).Perm (ofFiles files scope).functional := by
  have hresolved : resolveUses (CodeIndex.ofFiles others) =
      resolveUses (CodeIndex.ofFiles files) := by
    funext file
    apply List.map_congr_left
    intro use _
    exact congrArg (FunctionalExpression.mk use.kind use.location)
      ((h.matches_perm hperm).resolveUse file use)
  change (others.flatMap _).Perm (files.flatMap _)
  rw [hresolved]
  exact hperm.flatMap_right _

omit h hperm in
theorem declares_of_enclosingMethod {place : Location} {m : Method}
    (hm : (ofFiles files scope).enclosingMethod place = some m) : Declares files m := by
  have hmem := (of_narrowestAround hm).1
  change m ∈ (CodeIndex.ofFiles files).methodsOfFile place.file at hmem
  rw [methodsOfFile_ofFiles] at hmem
  obtain ⟨a, ha, rfl⟩ := List.mem_map.mp hmem
  exact ⟨a, List.mem_of_mem_filter ha, rfl⟩

omit hperm in
theorem enclosingMethod_inj {place elsewhere : Location} {m n : Method}
    (hm : (ofFiles files scope).enclosingMethod place = some m)
    (hn : (ofFiles files scope).enclosingMethod elsewhere = some n) (hkey : m.key = n.key) :
    m = n :=
  h.eq_of_key (declares_of_enclosingMethod hm) (declares_of_enclosingMethod hn) hkey

omit hperm in
/-- The methods that searches from declared methods meet are told apart. -/
theorem toldApart_reaches (names : List String) {starts : Method → Prop}
    (hstarts : ∀ start, starts start → Declares files start) :
    (ofFiles files scope).answers.ToldApart names fun m =>
      ∃ start, starts start ∧ (ofFiles files scope).answers.Reaches names start m := by
  have hdeclares (m : Method) (hm : ∃ start, starts start ∧
      (ofFiles files scope).answers.Reaches names start m) : Declares files m := by
    obtain ⟨start, hstart, hreaches⟩ := hm
    refine hreaches.induction (hstarts start hstart) fun n _ above habove => ?_
    obtain ⟨place, hplace⟩ := Answers.exists_place_of_mem_next habove
    exact declares_of_enclosingMethod hplace
  exact Answers.ToldApart.of_key_injective fun m n hm hn =>
    h.eq_of_key (hdeclares m hm) (hdeclares n hn)

theorem listsAlike_perm :
    (ofFiles files scope).answers.ListsAlike (ofFiles others scope).answers where
  alike := alike_answers (h.matches_perm hperm) (isInDocComment_perm h hperm) rfl
  callSites m _ := ((calls_perm h hperm m.name).filter _).map _
  functionalImplementations _ _ := (functional_perm h hperm).filter _
  apart _ _ _ _ := enclosingMethod_inj h

variable {σ τ ρ υ : Type}

/-- Files that are told apart by their names, in two orders: every method has the same callers,
and a search on an empty cache finds the same top callers, visits and takes up as many methods,
and cuts off the same ones. -/
theorem search_reordered (finder : Finder) {watcher : Watcher ρ} {other : Watcher υ}
    (hwatcher : Undisturbed ((ofFiles files scope).knowledgeBase : KnowledgeBase σ) watcher)
    (hother : Undisturbed ((ofFiles others scope).knowledgeBase : KnowledgeBase τ) other)
    (m : Method) {s : RunState σ ρ} {t : RunState τ υ} (hempty : ∀ key, s.cache.get? key = none)
    (hemptyOther : ∀ key, t.cache.get? key = none) :
    (∃ callers callersOther,
      ((finder.setting (ofFiles files scope).knowledgeBase scope
        (Run.checkpoint (ofFiles files scope).knowledgeBase watcher)).callersOf m none s).1 =
          .ok callers ∧
      ((finder.setting (ofFiles others scope).knowledgeBase scope
        (Run.checkpoint (ofFiles others scope).knowledgeBase other)).callersOf m none t).1 =
          .ok callersOther ∧
      callersOther.Perm callers) ∧
    ∃ result resultOther,
      (finder.search (.ok (ofFiles files scope).knowledgeBase) watcher m s).1 = .ok result ∧
      (finder.search (.ok (ofFiles others scope).knowledgeBase) other m t).1 = .ok resultOther ∧
      resultOther.topCallers.Perm result.topCallers ∧
      resultOther.visitedCount = result.visitedCount ∧
      resultOther.processedCount = result.processedCount ∧
      resultOther.truncated = result.truncated ∧
      resultOther.truncatedKeys.Perm result.truncatedKeys := by
  have hlists : (ofFiles files scope).answers.ListsAlike (ofFiles others scope).answers :=
    listsAlike_perm h hperm
  constructor
  · have hcallers := (hwatcher.parts_eq finder (ofFiles files scope).follows_answers m hempty).2.1
    have hcallersOther :=
      (hother.parts_eq finder (ofFiles others scope).follows_answers m hemptyOther).2.1
    exact ⟨_, _, hcallers, hcallersOther, hlists.callers m⟩
  · have hsearch :=
      hwatcher.search_on_empty_cache finder (ofFiles files scope).follows_answers m hempty
    have hsearchOther :=
      hother.search_on_empty_cache finder (ofFiles others scope).follows_answers m hemptyOther
    have hreorders : (ofFiles files scope).answers.Reorders (ofFiles others scope).answers
        finder.functional := hlists.reorders
    have hresult := hreorders.searchResult m finder.maxDepth
    exact ⟨_, _, hsearch, hsearchOther, hresult.topCallers, hresult.visitedCount,
      hresult.processedCount, hresult.truncated, hresult.truncatedKeys⟩

omit h hperm

/-- Two files in both orders, of which one calls a method of the other. -/
theorem search_in_two_orders :
    let called := FileFacts.ofText "A.java" "class A\x7bvoid f()\x7b\x7d\x7d" none
    let calling := FileFacts.ofText "B.java" "class B\x7bvoid g(A a)\x7ba.f();\x7d\x7d" none
    let f := methodOf (symbolOf called.types.head!) called.methods.head!
    AreDistinct [called, calling] ∧ [calling, called].Perm [called, calling] ∧
      ∃ result resultOther,
        ((default : Finder).search (.ok (ofFiles [called, calling] default).knowledgeBase)
          Watcher.idle f (⟨(), (), {}⟩ : RunState Unit Unit)).1 = .ok result ∧
        ((default : Finder).search (.ok (ofFiles [calling, called] default).knowledgeBase)
          Watcher.idle f (⟨(), (), {}⟩ : RunState Unit Unit)).1 = .ok resultOther ∧
        resultOther.topCallers.Perm result.topCallers ∧
        resultOther.visitedCount = result.visitedCount ∧
        resultOther.processedCount = result.processedCount ∧
        resultOther.truncated = result.truncated ∧
        resultOther.truncatedKeys.Perm result.truncatedKeys := by
  intro called calling f
  have hdistinct : AreDistinct [called, calling] := by
    refine ⟨fun file hfile => ?_, ?_, ?_, ?_, ?_, ?_⟩
    · simp only [List.mem_cons, List.not_mem_nil, or_false] at hfile
      rcases hfile with hfile | hfile <;> exact ⟨_, _, _, hfile⟩
    · decide +kernel
    · decide +kernel
    · decide +kernel
    · decide +kernel
    · rw [methodEntries_typesOf]
      decide +kernel
  have hperm : [calling, called].Perm [called, calling] := List.Perm.swap called calling []
  have hwatcher : Undisturbed ((ofFiles [called, calling] default).knowledgeBase :
      KnowledgeBase Unit) (Watcher.idle : Watcher Unit) := undisturbed_idle fun _ => rfl
  have hother : Undisturbed ((ofFiles [calling, called] default).knowledgeBase :
      KnowledgeBase Unit) (Watcher.idle : Watcher Unit) := undisturbed_idle fun _ => rfl
  exact ⟨hdistinct, hperm, (search_reordered hdistinct hperm default hwatcher hother f
    CallerCache.get?_new CallerCache.get?_new).2⟩

end Snapshot

end EntryPoints
