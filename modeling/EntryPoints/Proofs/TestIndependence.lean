import EntryPoints.Proofs.SearchExactness
import EntryPoints.Proofs.SharedAnswers

/-!
# Searches that tests do not influence

A search that excludes tests looks for callers and lambdas in production files only, but
names are resolved among the types of all files.  Where every name that production code
writes means the same without the tests, a search over all files gives the same result as
a search over the production files.

Otherwise it may not: a test can declare a type that comes before the one that production
code meant.
-/

namespace EntryPoints

variable {σ τ ρ υ : Type}

namespace Codebase

variable {code : Codebase}

theorem namelessApart : Snapshot.NamelessApart code.files code.scope := by
  intro nameless hmem _ hother
  obtain ⟨other, hotherMem, hname, hscope⟩ := hother
  rw [← eq_of_binaryName_eq hotherMem hmem hname]
  exact hscope

/-- A method that is declared in scope belongs to a production file. -/
theorem commonMethod_of_declaredIn {m : Method}
    (hm : Snapshot.DeclaredIn code.files code.scope m) : code.CommonMethod m := by
  have hself : ∀ file ∈ code.files, file.IsSelfContained := fun _ hfile => isSelfContained hfile
  obtain ⟨entry, hentry, hproduction⟩ := (Snapshot.declaredIn_iff hself).mp hm
  have hpart : (m, entry) ∈
      CodeIndex.methodEntries (CodeIndex.typesOf code.production) code.production := by
    rw [methodEntries_production]
    exact List.mem_filter.mpr ⟨hentry, hproduction⟩
  obtain ⟨owner, howner, hm⟩ := CodeIndex.mem_methodEntries hpart
  have htype : code.part.type? entry.decl.owner = some owner := howner
  have hdeclared : m ∈ code.part.methodsDeclaredBy entry.decl.owner := by
    rw [part, CodeIndex.methodsDeclaredBy_ofFiles]
    exact List.mem_map.mpr ⟨_, List.mem_filter.mpr ⟨hpart, BEq.rfl⟩, rfl⟩
  have hindexed := (CodeIndex.owner_of_mem_methodsDeclaredBy hdeclared).2
  have hsymbol : m.owner = owner.symbol := by
    rw [hm]
    rfl
  refine ⟨?_, ?_, .inr hindexed⟩
  · rw [hsymbol]
    exact common_symbol htype
  · rw [hsymbol]
    exact CodeIndex.isNamed_symbol htype

theorem agreeOn_declaredIn (h : code.NamesAgree) (names : List String) :
    code.snapshot.answers.AgreeOn code.productionSnapshot.answers names
      (Snapshot.DeclaredIn code.files code.scope) := by
  have hcreator {m : Method} (hm : Snapshot.DeclaredIn code.files code.scope m) :
      Snapshot.HasCreatorIn code.scope m :=
    Snapshot.hasCreatorIn_of_declaredIn (fun _ hfile => isSelfContained hfile) namelessApart hm
  constructor
  · intro m hm
    exact substitutes_eq h (commonMethod_of_declaredIn hm) (hcreator hm) names
  · intro m hm _
    exact callers_eq h (commonMethod_of_declaredIn hm)
  · intro m hm
    exact isFunctional_eq h (commonMethod_of_declaredIn hm) names
  · intro m hm above habove
    exact Snapshot.declaredIn_of_mem_next (hcreator hm) habove

/-- The search over all files and the search over the production files give the same result, from
a method that a production file declares, when the names of production code mean the same
without the tests. -/
theorem search_without_tests (code : Codebase) (hnames : code.NamesAgree) {start : Method}
    (hstart : ∃ entry, (start, entry) ∈
        CodeIndex.methodEntries (CodeIndex.typesOf code.files) code.files ∧
      entry.file ∈ code.production)
    (finder : Finder) {watcher : Watcher ρ} {other : Watcher υ}
    (hwatcher : Undisturbed (code.snapshot.knowledgeBase : KnowledgeBase σ) watcher)
    (hother : Undisturbed (code.productionSnapshot.knowledgeBase : KnowledgeBase τ) other)
    {s : RunState σ ρ} {t : RunState τ υ} (hcache : s.cache = t.cache)
    (hholds : s.cache.Holds (Snapshot.DeclaredIn code.files code.scope)) :
    ∃ result,
      (finder.search (.ok code.snapshot.knowledgeBase) watcher start s).1 = .ok result ∧
      (finder.search (.ok code.productionSnapshot.knowledgeBase) other start t).1 =
        .ok result := by
  obtain ⟨entry, hentry, hfile⟩ := hstart
  have hself : ∀ file ∈ code.files, file.IsSelfContained := fun _ hfile => isSelfContained hfile
  have hdeclared : Snapshot.DeclaredIn code.files code.scope start :=
    (Snapshot.declaredIn_iff hself).mpr ⟨entry, hentry, (mem_production.mp hfile).2⟩
  obtain ⟨result, hall, hproduction, -⟩ :=
    finder.search_agree code.snapshot.follows_answers code.productionSnapshot.follows_answers
      hwatcher hother (agreeOn_declaredIn hnames finder.functional) hdeclared hcache hholds
  exact ⟨result, hall, hproduction⟩

end Codebase

/-! ## A test that declares a type of the library -/

namespace Shadowing

open CodeIndex

def scope : Scope := .ofRoots none ["test"] false

def ownerDecl : TypeDecl where
  binaryName := "A"
  name := "A"
  qualifiedName := some "A"
  location := some ⟨"A.java", 1, 19, 60⟩

def calledDecl : MethodDecl where
  id := "A#f@27"
  owner := "A"
  name := "f"
  returnType := some "void"
  location := some ⟨"A.java", 1, 27, 37⟩

def callerDecl : MethodDecl where
  id := "A#g@37"
  owner := "A"
  name := "g"
  parameters := ["List"]
  returnType := some "void"
  location := some ⟨"A.java", 1, 37, 59⟩

def invocation : Invocation :=
  ⟨.call, "f", some 0, some (.typed "List"), some "A", some "A#g@37", ⟨"A.java", 1, 52, 57⟩,
    some []⟩

/-- The method `g` calls `f` on a list of the library. -/
def source : FileFacts where
  file := "A.java"
  relativePath := "A.java"
  wildcardImports := ["java.util"]
  types := [ownerDecl]
  methods := [calledDecl, callerDecl]
  invocations := [invocation]

def listDecl : TypeDecl where
  binaryName := "List"
  name := "List"
  qualifiedName := some "List"
  superclass := some "A"
  location := some ⟨"test/List.java", 1, 0, 22⟩

/-- A subclass of `A` that is named like the list of the library. -/
def shadow : FileFacts where
  file := "test/List.java"
  relativePath := "test/List.java"
  types := [listDecl]

def userDecl : TypeDecl where
  binaryName := "T"
  name := "T"
  qualifiedName := some "T"
  location := some ⟨"test/T.java", 1, 0, 28⟩

def testDecl : MethodDecl where
  id := "T#t@8"
  owner := "T"
  name := "t"
  parameters := ["A"]
  returnType := some "void"
  location := some ⟨"test/T.java", 1, 8, 27⟩

/-- A test that calls `f` itself. -/
def user : FileFacts where
  file := "test/T.java"
  relativePath := "test/T.java"
  types := [userDecl]
  methods := [testDecl]
  invocations := [⟨.call, "f", some 0, some (.typed "A"), some "T", some "T#t@8",
    ⟨"test/T.java", 1, 20, 25⟩, some []⟩]

set_option maxRecDepth 100000 in
theorem ofText_source : FileFacts.ofText "A.java"
    "import java.util.*;class A{void f(){}void g(List x){x.f();}}" none = source := by
  decide +kernel

set_option maxRecDepth 100000 in
theorem ofText_shadow : FileFacts.ofText "test/List.java" "class List extends A{}" none = shadow := by
  decide +kernel

set_option maxRecDepth 100000 in
theorem ofText_user : FileFacts.ofText "test/T.java" "class T{void t(A a){a.f();}}" none = user := by
  decide +kernel

def shadowed : Codebase where
  files := [source, shadow]
  scope := scope
  analyzed file hfile := by
    rcases List.mem_pair.mp hfile with rfl | rfl
    · exact ⟨_, _, _, ofText_source.symm⟩
    · exact ⟨_, _, _, ofText_shadow.symm⟩
  distinct := by decide

def plain : Codebase where
  files := [source, user]
  scope := scope
  analyzed file hfile := by
    rcases List.mem_pair.mp hfile with rfl | rfl
    · exact ⟨_, _, _, ofText_source.symm⟩
    · exact ⟨_, _, _, ofText_user.symm⟩
  distinct := by decide

theorem production_eq : shadowed.production = [source] ∧ plain.production = [source] := by
  decide +kernel

/-! ### The index -/

def owner : TypeEntry := ⟨symbolOf ownerDecl, ownerDecl, source⟩

def called : Method := methodOf owner.symbol calledDecl

def caller : Method := methodOf owner.symbol callerDecl

def library : TypeSymbol := Library.externalType "java.util.List"

/-- Files with the source, in which nothing has type parameters. -/
structure Holds (files : List FileFacts) : Prop where
  declares : (ofFiles files).type? "A" = some owner
  nested : (ofFiles files).type? "A$List" = none
  types : ∀ entry ∈ typeEntries files, entry.decl.typeParameters = []
  methods : ∀ file ∈ files, ∀ decl ∈ file.methods, decl.typeParameters = []

theorem holds : Holds [source] ∧ Holds [source, shadow] ∧ Holds [source, user] := by
  refine ⟨⟨?_, ?_, by decide, by decide⟩, ⟨?_, ?_, by decide, by decide⟩,
    ⟨?_, ?_, by decide, by decide⟩⟩ <;> rw [type?_ofFiles] <;> rfl

section Files

variable {files : List FileFacts}

theorem Holds.typeParameter (h : Holds files) {view : Viewpoint}
    (hmethod : ∀ decl, view.method = some decl → decl.typeParameters = []) (name : String) :
    (ofFiles files).typeParameter name view = none :=
  typeParameter_eq_none (fun _ entry hentry => h.types entry (mem_typeEntries_of_type? hentry))
    hmethod name

theorem Holds.viewOf (h : Holds files) {file : FileFacts} {owner method : Option String}
    {decl : MethodDecl} (hdecl : ((ofFiles files).viewOf file owner method).method = some decl) :
    decl.typeParameters = [] := by
  obtain ⟨id, -, hid⟩ := Option.bind_eq_some_iff.mp hdecl
  change (Std.HashMap.ofList ((methodEntries (typesOf files) files).map fun entry =>
    (entry.2.decl.id, entry.2.decl)))[id]? = some decl at hid
  rw [getElem?_ofList, Option.map_eq_some_iff] at hid
  obtain ⟨found, hfound, rfl⟩ := hid
  obtain ⟨entry, hentry, rfl⟩ :=
    List.mem_map.mp (List.mem_reverse.mp (List.mem_of_find?_eq_some hfound))
  obtain ⟨hfile, hdeclared⟩ := file_of_mem_methodEntries hentry
  exact h.methods _ hfile _ hdeclared

/-- The list is that of the library, if no file declares one. -/
theorem Holds.resolveType_list (h : Holds files) (hlist : (ofFiles files).qualified? "List" = none)
    (hlibrary : (ofFiles files).qualified? "java.util.List" = none) {view : Viewpoint}
    (hfile : view.file = source) (howner : view.owner = some "A")
    (hmethod : ∀ decl, view.method = some decl → decl.typeParameters = []) :
    (ofFiles files).resolveType "List" view = some library := by
  apply resolveType_of_seenInFile (by decide) (by decide) (h.typeParameter hmethod) hlist
  · rw [howner, ownersFrom_of_outermost h.declares (by decide) rfl]
    intro around haround
    rw [List.mem_singleton.mp haround]
    have hnested : (ofFiles files).type? (owner.decl.binaryName ++ "$" ++ "List") = none := h.nested
    unfold seenFrom
    rw [hnested]
    rfl
  · have hwildcard : (ofFiles files).wildcardImport "List" "java.util" = some library := by
      unfold wildcardImport
      have hcandidate : (ofFiles files).qualified? ("java.util" ++ "." ++ "List") = none := hlibrary
      simp only
      rw [hcandidate]
      rfl
    have himports : source.imports = [] ∧ source.package = "" ∧
        source.wildcardImports = ["java.util"] := ⟨rfl, rfl, rfl⟩
    rw [hfile]
    unfold seenInFile
    simp only
    rw [himports.1, himports.2.1, himports.2.2]
    simp only [List.find?_nil, if_true]
    rw [hlist]
    simp only
    rw [List.findSome?_cons, hwildcard]

theorem resolveType_void (index : CodeIndex) (view : Viewpoint) :
    index.resolveType "void" view = none := by
  have hnothing : namesNoType (TypeText.base "void") = true := by decide
  unfold resolveType
  simp [hnothing]

end Files

/-! ### Names that mean the same -/

theorem shares (k : String) (hk : k ∉ ["A", "T"]) : plain.Shares k := by
  simp only [List.mem_cons, List.not_mem_nil, or_false, not_or] at hk
  unfold Codebase.Shares Codebase.whole Codebase.part
  rw [type?_ofFiles, type?_ofFiles, production_eq.2]
  have hwhole : typeEntries plain.files =
      [owner, ⟨symbolOf userDecl, userDecl, user⟩] := rfl
  have hpart : typeEntries [source] = [owner] := rfl
  have howner : ¬ (owner.decl.binaryName == k) = true := by
    simpa [owner, ownerDecl] using fun heq => hk.1 heq.symm
  have huser : ¬ (userDecl.binaryName == k) = true := by
    simpa [userDecl] using fun heq => hk.2 heq.symm
  rw [hwhole, hpart]
  simp [howner, huser]

theorem qualified?_list :
    ((ofFiles [source]).qualified? "List" = none ∧
      (ofFiles [source]).qualified? "java.util.List" = none) ∧
    ((ofFiles [source, user]).qualified? "List" = none ∧
      (ofFiles [source, user]).qualified? "java.util.List" = none) := by
  simp only [qualified?_ofFiles]
  exact ⟨⟨rfl, rfl⟩, rfl, rfl⟩

theorem sameText_list {v w : Viewpoint} (hv : v.file = source ∧ v.owner = some "A")
    (hvmethod : ∀ decl, v.method = some decl → decl.typeParameters = [])
    (hw : w.file = source ∧ w.owner = some "A")
    (hwmethod : ∀ decl, w.method = some decl → decl.typeParameters = []) :
    plain.SameText "List" v w := by
  have hwhole : plain.whole.resolveType "List" v = some library :=
    holds.2.2.resolveType_list qualified?_list.2.1 qualified?_list.2.2 hv.1 hv.2 hvmethod
  have hpart : plain.part.resolveType "List" w = some library := by
    unfold Codebase.part
    rw [production_eq.2]
    exact holds.1.resolveType_list qualified?_list.1.1 qualified?_list.1.2 hw.1 hw.2 hwmethod
  apply Codebase.Same.sameText
  · rw [hwhole, hpart]
    refine ⟨rfl, fun t ht => ?_⟩
    cases ht
    refine ⟨shares "java.util.List" (by decide), fun b hb => ?_⟩
    cases hb
  · decide
  · decide
  · decide

theorem sameText_void (v w : Viewpoint) : plain.SameText "void" v w := by
  apply Codebase.Same.sameText
  · rw [resolveType_void, resolveType_void]
    exact ⟨rfl, fun t ht => by cases ht⟩
  · decide
  · decide
  · decide

theorem sameCall_invocation {v w : Viewpoint} (hlist : plain.SameText "List" v w) :
    plain.SameCall v w invocation := by
  rw [invocation, Codebase.SameCall, Codebase.SameReceiver?, Codebase.SameReceiver]
  refine ⟨?_, hlist⟩
  intro text htext
  cases htext

theorem namesAgree_plain : plain.NamesAgree where
  supertypes entry hentry text htext := by
    rw [production_eq.2] at hentry
    rw [List.mem_singleton.mp hentry] at htext
    cases htext
  fields file hfile decl hdecl field hfield := by
    rw [production_eq.2] at hfile
    rw [List.mem_singleton.mp hfile] at hdecl
    rw [List.mem_singleton.mp hdecl] at hfield
    cases hfield
  methods file hfile decl hdecl text htext := by
    rw [production_eq.2] at hfile
    rw [List.mem_singleton.mp hfile] at hdecl ⊢
    have hplain : ∀ d ∈ source.methods, d.typeParameters = [] ∧ d.owner = "A" := by decide
    have htexts : ∀ d ∈ source.methods, ∀ t ∈ d.returnType.toList ++ d.parameters,
        t = "void" ∨ t = "List" := by decide
    obtain ⟨hparameters, howner⟩ := hplain decl hdecl
    have hview : ∀ d, some decl = some d → d.typeParameters = [] := by
      intro d hd
      cases hd
      exact hparameters
    rcases htexts decl hdecl text htext with rfl | rfl
    · exact sameText_void _ _
    · exact sameText_list ⟨rfl, congrArg some howner⟩ hview ⟨rfl, congrArg some howner⟩ hview
  calls file hfile call hcall := by
    rw [production_eq.2] at hfile
    rw [List.mem_singleton.mp hfile] at hcall ⊢
    rw [List.mem_singleton.mp hcall]
    apply sameCall_invocation
    apply sameText_list ⟨rfl, rfl⟩ (fun decl => holds.2.2.viewOf) ⟨rfl, rfl⟩
    unfold Codebase.part
    rw [production_eq.2]
    exact fun decl => holds.1.viewOf
  uses file hfile use huse := by
    rw [production_eq.2] at hfile
    rw [List.mem_singleton.mp hfile] at huse
    cases huse
  holders file hfile imported himported := by
    rw [production_eq.2] at hfile
    rw [List.mem_singleton.mp hfile] at himported
    cases himported
  object := shares _ (by decide)

/-! ### The search -/

theorem called_mem_methodEntries (code : Codebase)
    (hfiles : Holds code.files) (hsource : source ∈ code.files) :
    (called, ⟨calledDecl, source⟩) ∈ methodEntries (typesOf code.files) code.files := by
  have howner : (typesOf code.files).get? "A" = some owner := hfiles.declares
  refine List.mem_flatMap.mpr ⟨source, hsource, List.mem_filterMap.mpr ⟨calledDecl, ?_, ?_⟩⟩
  · exact List.mem_cons_self
  · change ((typesOf code.files).get? "A").map _ = _
    rw [howner]
    rfl

end Shadowing

open Shadowing in
/-- The test that calls `f` does not matter to a search from there. -/
theorem search_plain_without_tests :
    ∃ result,
      ((default : Finder).search (.ok plain.snapshot.knowledgeBase) Watcher.idle called
        (⟨(), (), {}⟩ : RunState Unit Unit)).1 = .ok result ∧
      ((default : Finder).search (.ok plain.productionSnapshot.knowledgeBase) Watcher.idle called
        (⟨(), (), {}⟩ : RunState Unit Unit)).1 = .ok result := by
  have hstart : ∃ entry, (called, entry) ∈
        CodeIndex.methodEntries (CodeIndex.typesOf plain.files) plain.files ∧
      entry.file ∈ plain.production := by
    refine ⟨⟨calledDecl, source⟩, called_mem_methodEntries plain holds.2.2 List.mem_cons_self, ?_⟩
    rw [production_eq.2]
    exact List.mem_singleton_self source
  have hall : Undisturbed (plain.snapshot.knowledgeBase : KnowledgeBase Unit)
      (Watcher.idle : Watcher Unit) := undisturbed_idle fun _ => rfl
  have hproduction : Undisturbed (plain.productionSnapshot.knowledgeBase : KnowledgeBase Unit)
      (Watcher.idle : Watcher Unit) := undisturbed_idle fun _ => rfl
  apply Codebase.search_without_tests plain namesAgree_plain hstart default hall hproduction rfl
  intro key callers hentry
  rw [CallerCache.get?_new] at hentry
  cases hentry


/-! ### Names that a test changes -/

namespace Shadowing

open CodeIndex

def list : TypeEntry := ⟨symbolOf listDecl, listDecl, shadow⟩

/-- The index of the source alone. -/
def lone : CodeIndex := ofFiles [source]

/-- The index of the source and the test that declares a list. -/
def crowded : CodeIndex := ofFiles [source, shadow]

theorem type?_list : crowded.type? "List" = some list := by
  rw [crowded, type?_ofFiles]
  rfl

theorem methodEntries_crowded : methodEntries (typesOf [source, shadow]) [source, shadow] =
    [(called, ⟨calledDecl, source⟩), (caller, ⟨callerDecl, source⟩)] := by
  have howner : (typesOf [source, shadow]).get? "A" = some owner := holds.2.1.declares
  have hsource : source.methods = [calledDecl, callerDecl] := rfl
  have hshadow : shadow.methods = [] := rfl
  unfold methodEntries
  simp only [List.flatMap_cons, List.flatMap_nil, hsource, hshadow, List.filterMap_cons,
    List.filterMap_nil, calledDecl, callerDecl, howner, Option.map_some]
  rfl

theorem directSupertypes_eq : lone.directSupertypes owner.symbol = [] ∧
    lone.directSupertypes library = [] ∧
    crowded.directSupertypes owner.symbol = [] ∧
    crowded.directSupertypes list.symbol = [owner.symbol] := by
  refine ⟨directSupertypes_symbol holds.1.declares (by decide), rfl,
    directSupertypes_symbol holds.2.1.declares (by decide), ?_⟩
  have hqualified : crowded.qualified? "A" = some owner := by
    rw [crowded, qualified?_ofFiles]
    exact holds.2.1.declares
  have hresolve : crowded.resolveType "A" (headView list) = some owner.symbol :=
    resolveType_of_qualified? (by decide) (holds.2.1.typeParameter (by simp [headView])) hqualified
  rw [crowded, directSupertypes_symbol type?_list (by decide), ← crowded]
  unfold declaredSupertypes
  rw [show supertypeTexts list.decl = ["A"] by decide, List.filterMap_cons, hresolve]
  rfl

theorem ancestors_eq : lone.ancestors library = [library] ∧
    crowded.ancestors owner.symbol = [owner.symbol] ∧
    crowded.ancestors list.symbol = [list.symbol, owner.symbol] := by
  obtain ⟨-, hlibrary, howner, hlist⟩ := directSupertypes_eq
  have hsize : crowded.types.size = 2 := by
    change (typesOf [source, shadow]).keys.length = 2
    rw [typesOf, Table.keys_ofList (by decide)]
    rfl
  have hids : owner.symbol.id = "A" ∧ list.symbol.id = "List" := by decide
  have hweights : owner.symbol.weight = 0 ∧ list.symbol.weight = 0 ∧ library.weight = 0 :=
    ⟨rfl, rfl, rfl⟩
  unfold ancestors
  rw [hsize]
  simp [Walk.visit, Walk.load, hlibrary, howner, hlist, hids, hweights]

theorem members_eq : lone.members library "f" (some 0) = [] ∧
    crowded.members list.symbol "f" (some 0) = [called] := by
  obtain ⟨hlibrary, -, hlist⟩ := ancestors_eq
  have hdeclared : crowded.declaredMethods list.symbol = [] ∧
      crowded.declaredMethods owner.symbol = [called, caller] := by
    unfold declaredMethods
    rw [if_neg (by decide), if_neg (by decide)]
    simp only [crowded, methodsDeclaredBy_ofFiles, methodEntries_crowded]
    exact ⟨rfl, rfl⟩
  unfold members
  rw [hlibrary, hlist]
  simp only [List.foldl_cons, List.foldl_nil, addDeclared, hdeclared.1, hdeclared.2]
  exact ⟨rfl, rfl⟩

/-- What the invocation resolves to, when its receiver has few members of its name. -/
theorem resolveCalls_source {index : CodeIndex} {t : TypeSymbol} {targets : List Method}
    (htype : index.resolveType "List" (index.viewOf source invocation.owner invocation.method) =
      some t)
    (hmembers : index.members t "f" (some 0) = targets) (hfew : targets.length < 2) :
    Snapshot.resolveCalls index source = [⟨invocation, ⟨some t, true, targets⟩⟩] := by
  have hreceiver : index.receiverType
      (index.viewOf source invocation.owner invocation.method) (.typed "List") =
        ⟨some t, true⟩ := by
    unfold receiverType
    rw [htype]
  have hnarrowed (view : Viewpoint) : index.narrowed targets invocation view = targets := by
    unfold narrowed selectOverloads
    rw [if_pos (.inl hfew)]
  unfold Snapshot.resolveCalls
  change [(⟨invocation, index.resolve _ invocation⟩ : IndexedCall)] = _
  rw [resolve_of_receiver (by decide) rfl, hreceiver]
  simp only [resolveQualified, membersFor]
  rw [show invocation.name = "f" from rfl, show invocation.argumentCount = some 0 from rfl,
    hmembers, hnarrowed]

/-- The call in the production index: the list belongs to the library. -/
def externalCall : IndexedCall := ⟨invocation, ⟨some library, true, []⟩⟩

/-- The call in the index with the test: the list is a subclass of `A`. -/
def call : IndexedCall := ⟨invocation, ⟨some list.symbol, true, [called]⟩⟩

theorem resolveCalls_eq : [source].flatMap (Snapshot.resolveCalls lone) = [externalCall] ∧
    [source, shadow].flatMap (Snapshot.resolveCalls crowded) = [call] := by
  have hlone : lone.resolveType "List"
      (lone.viewOf source invocation.owner invocation.method) = some library :=
    holds.1.resolveType_list qualified?_list.1.1 qualified?_list.1.2 rfl rfl
      (fun decl => holds.1.viewOf)
  have hqualified : crowded.qualified? "List" = some list := by
    rw [crowded, qualified?_ofFiles]
    exact type?_list
  have hcrowded : crowded.resolveType "List"
      (crowded.viewOf source invocation.owner invocation.method) = some list.symbol :=
    resolveType_of_qualified? (by decide) (holds.2.1.typeParameter fun decl => holds.2.1.viewOf)
      hqualified
  have hshadow : Snapshot.resolveCalls crowded shadow = [] := rfl
  simp only [List.flatMap_cons, List.flatMap_nil, List.append_nil, hshadow]
  exact ⟨resolveCalls_source hlone members_eq.1 (by decide),
    resolveCalls_source hcrowded members_eq.2 (by decide)⟩

def loneSnapshot : Snapshot := .ofFiles [source] scope

def crowdedSnapshot : Snapshot := .ofFiles [source, shadow] scope

theorem roots_eq (m : Method) (hm : m.owner = owner.symbol) :
    lone.roots m = [] ∧ crowded.roots m = [] := by
  obtain ⟨hlone, -, hcrowded, -⟩ := directSupertypes_eq
  have hnone : lone.overriddenBy m = [] ∧ crowded.overriddenBy m = [] := by
    unfold overriddenBy
    rw [hm, hlone, hcrowded]
    exact ⟨rfl, rfl⟩
  unfold roots
  rw [hnone.1, hnone.2]
  simp [Walk.visit]

theorem callSites_eq : loneSnapshot.callSites called scope = [] ∧
    crowdedSnapshot.callSites called scope = [Snapshot.toCallSite call] ∧
    crowdedSnapshot.callSites caller scope = [] := by
  have hlone (name : String) : loneSnapshot.calls.getD name [] =
      [externalCall].filter (·.call.name == name) := by
    rw [← resolveCalls_eq.1]
    exact Snapshot.calls_getD [source] scope name
  have hcrowded (name : String) : crowdedSnapshot.calls.getD name [] =
      [call].filter (·.call.name == name) := by
    rw [← resolveCalls_eq.2]
    exact Snapshot.calls_getD [source, shadow] scope name
  unfold Snapshot.callSites
  rw [hlone, hcrowded, hcrowded]
  refine ⟨rfl, ?_, rfl⟩
  have hnamed : [call].filter (·.call.name == called.name) = [call] := rfl
  rw [hnamed, List.filter_eq_self.mpr]
  · rfl
  · intro site hsite
    rw [List.mem_singleton.mp hsite]
    decide +kernel

theorem enclosingMethod_eq :
    crowdedSnapshot.enclosingMethod invocation.location = some caller := by
  change narrowestAround _ (crowded.methodsOfFile "A.java") = _
  rw [crowded, methodsOfFile_ofFiles, methodEntries_crowded]
  rfl

theorem callers_eq : loneSnapshot.answers.callers called = [] ∧
    crowdedSnapshot.answers.callers called = [caller] ∧
    crowdedSnapshot.answers.callers caller = [] := by
  obtain ⟨hlone, hcalled, hcaller⟩ := callSites_eq
  have hroots (m : Method) (hm : m.owner = owner.symbol) :
      loneSnapshot.answers.overriddenRoots m = [] ∧
        crowdedSnapshot.answers.overriddenRoots m = [] := roots_eq m hm
  have hrelated : crowdedSnapshot.answers.related owner.symbol list.symbol = true := by
    have hsubtype : crowded.isSubtypeOrSelf list.symbol owner.symbol = true := by
      unfold isSubtypeOrSelf
      rw [ancestors_eq.2.2]
      decide
    exact Snapshot.related_of_isSubtypeOrSelf (.inr hsubtype)
  have hcomment : crowdedSnapshot.answers.isInDocComment invocation.location = false := by
    change ((Std.HashMap.ofList []).getD _ []).any _ = false
    simp
  have hsite : crowdedSnapshot.answers.callerAt called.owner none (Snapshot.toCallSite call) =
      some caller := by
    have haccepts : crowdedSnapshot.answers.accepts called.owner none
        (Snapshot.toCallSite call) = true := by
      change (!crowdedSnapshot.answers.isInDocComment invocation.location &&
        (crowdedSnapshot.answers.related owner.symbol list.symbol && true)) = true
      rw [hcomment, hrelated]
      rfl
    unfold Answers.callerAt
    rw [if_pos haccepts]
    exact enclosingMethod_eq
  have hdirect : loneSnapshot.answers.directCallers called none = [] ∧
      crowdedSnapshot.answers.directCallers called none = [caller] ∧
      crowdedSnapshot.answers.directCallers caller none = [] := by
    unfold Answers.directCallers
    change (loneSnapshot.callSites called scope).filterMap _ = [] ∧
      (crowdedSnapshot.callSites called scope).filterMap _ = [caller] ∧
      (crowdedSnapshot.callSites caller scope).filterMap _ = []
    rw [hlone, hcalled, hcaller]
    simp [hsite]
  unfold Answers.callers
  rw [(hroots called rfl).1, (hroots called rfl).2, (hroots caller rfl).2, hdirect.1, hdirect.2.1,
    hdirect.2.2]
  exact ⟨rfl, rfl, rfl⟩

theorem isFunctional_eq (m : Method) (hm : m = called ∨ m = caller) :
    loneSnapshot.answers.isFunctional functionalMethods m = false ∧
      crowdedSnapshot.answers.isFunctional functionalMethods m = false := by
  have howner : m.owner = owner.symbol := by rcases hm with rfl | rfl <;> rfl
  have hlisted : m.isListedIn functionalMethods = false := by
    rcases hm with rfl | rfl <;> decide
  have hroots : loneSnapshot.answers.overriddenRoots m = [] ∧
      crowdedSnapshot.answers.overriddenRoots m = [] := roots_eq m howner
  unfold Answers.isFunctional
  rw [hlisted, hroots.1, hroots.2]
  exact ⟨rfl, rfl⟩

theorem substitutes_eq (m : Method) (hm : m = called ∨ m = caller) :
    loneSnapshot.answers.substitutes functionalMethods m = none ∧
      crowdedSnapshot.answers.substitutes functionalMethods m = none := by
  have hcreator : loneSnapshot.answers.creatorOf m = none ∧
      crowdedSnapshot.answers.creatorOf m = none := by
    rcases hm with rfl | rfl <;> exact ⟨rfl, rfl⟩
  unfold Answers.substitutes
  rw [hcreator.1, hcreator.2, (isFunctional_eq m hm).1, (isFunctional_eq m hm).2]
  exact ⟨rfl, rfl⟩

theorem next_eq : loneSnapshot.answers.next functionalMethods called = [] ∧
    crowdedSnapshot.answers.next functionalMethods called = [caller] ∧
    crowdedSnapshot.answers.next functionalMethods caller = [] := by
  obtain ⟨hlone, hcalled, hcaller⟩ := callers_eq
  unfold Answers.next
  rw [(substitutes_eq called (.inl rfl)).1, (substitutes_eq called (.inl rfl)).2,
    (substitutes_eq caller (.inr rfl)).2]
  exact ⟨hlone, hcalled, hcaller⟩

theorem mem_of_reaches_lone {m : Method}
    (hm : loneSnapshot.answers.Reaches functionalMethods called m) : m ∈ [called] := by
  refine hm.induction (by simp) ?_
  intro n hn above habove
  rw [List.mem_singleton.mp hn, next_eq.1] at habove
  cases habove

theorem mem_of_reaches_crowded {m : Method}
    (hm : crowdedSnapshot.answers.Reaches functionalMethods called m) : m ∈ [called, caller] := by
  obtain ⟨-, hcalled, hcaller⟩ := next_eq
  refine hm.induction (by simp) ?_
  intro n hn above habove
  rcases List.mem_pair.mp hn with rfl | rfl
  · rw [hcalled] at habove
    exact List.mem_cons_of_mem called habove
  · rw [hcaller] at habove
    cases habove

end Shadowing

open Shadowing in
/-- All names are declared once, and still the test that declares a list of its own adds a caller
to `f`: the production files alone have none. -/
theorem caller_added_by_test :
    (shadowed.files.map (·.file)).Nodup ∧
    ((CodeIndex.typeEntries shadowed.files).map (·.decl.binaryName)).Nodup ∧
    ((CodeIndex.typeEntries shadowed.files).map (·.decl.qualifiedName)).Nodup ∧
    shadowed.scope.includeTests = false ∧
    (∃ entry, (called, entry) ∈
        CodeIndex.methodEntries (CodeIndex.typesOf shadowed.files) shadowed.files ∧
      entry.file ∈ shadowed.production) ∧
    ∃ result other,
      ((default : Finder).search (.ok shadowed.snapshot.knowledgeBase) Watcher.idle called
        (⟨(), (), {}⟩ : RunState Unit Unit)).1 = .ok result ∧
      ((default : Finder).search (.ok shadowed.productionSnapshot.knowledgeBase) Watcher.idle called
        (⟨(), (), {}⟩ : RunState Unit Unit)).1 = .ok other ∧
      caller.key ∈ result.topCallers.map Method.key ∧
      caller.key ∉ other.topCallers.map Method.key := by
  refine ⟨by decide, shadowed.distinct, by decide, rfl, ?_, ?_⟩
  · refine ⟨⟨calledDecl, source⟩, called_mem_methodEntries shadowed holds.2.1 List.mem_cons_self, ?_⟩
    rw [production_eq.1]
    exact List.mem_singleton_self source
  · have hproduction : shadowed.productionSnapshot = loneSnapshot := by
      unfold Codebase.productionSnapshot
      rw [production_eq.1]
      rfl
    rw [hproduction]
    change ∃ result other,
      ((default : Finder).search (.ok crowdedSnapshot.knowledgeBase) Watcher.idle called
        (⟨(), (), {}⟩ : RunState Unit Unit)).1 = .ok result ∧ _
    have hapart : crowdedSnapshot.answers.ToldApart functionalMethods
        (crowdedSnapshot.answers.Reaches functionalMethods called) := by
      apply Answers.ToldApart.of_key_injective
      intro m n hm hn hkey
      have hkeys : ([called, caller].map Method.key).Nodup := by decide
      exact List.inj_on_of_nodup_map hkeys (mem_of_reaches_crowded hm) (mem_of_reaches_crowded hn)
        hkey
    have hloneApart : loneSnapshot.answers.ToldApart functionalMethods
        (loneSnapshot.answers.Reaches functionalMethods called) := by
      apply Answers.ToldApart.of_key_injective
      intro m n hm hn _
      rw [List.mem_singleton.mp (mem_of_reaches_lone hm),
        List.mem_singleton.mp (mem_of_reaches_lone hn)]
    obtain ⟨result, hresult, -, hkeys, -⟩ :=
      (search_exact default called (⟨(), (), {}⟩ : RunState Unit Unit)
        crowdedSnapshot.follows_answers (undisturbed_idle fun _ => rfl) hapart
        CallerCache.get?_new).2
    obtain ⟨other, hother, -, hotherKeys, -⟩ :=
      (search_exact default called (⟨(), (), {}⟩ : RunState Unit Unit)
        loneSnapshot.follows_answers (undisturbed_idle fun _ => rfl) hloneApart
        CallerCache.get?_new).2
    refine ⟨result, other, hresult, hother, ?_, ?_⟩
    · rw [hkeys]
      have hstep : caller ∈ crowdedSnapshot.answers.next functionalMethods called := by
        rw [next_eq.2.1]
        exact List.mem_singleton_self caller
      exact ⟨by decide, caller, ⟨1, by decide, .step .start hstep⟩,
        (substitutes_eq caller (.inr rfl)).2, callers_eq.2.2,
        (isFunctional_eq caller (.inr rfl)).2, rfl⟩
    · rw [hotherKeys]
      rintro ⟨hkey, m, ⟨n, -, hsteps⟩, -, -, -, hm⟩
      rw [List.mem_singleton.mp (mem_of_reaches_lone ⟨n, hsteps⟩)] at hm
      exact hkey hm.symm

end EntryPoints
