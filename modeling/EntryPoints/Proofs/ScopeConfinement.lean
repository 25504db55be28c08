import Mathlib
import EntryPoints.Proofs.FactOrigins
import EntryPoints.Proofs.OverrideDispatch
import EntryPoints.Proofs.SearchAgreement
import EntryPoints.Repository

/-!
# Searches that stay in scope

A search goes from a method to methods that enclose a place: a call site, a lambda, or
the place where the type of the method is declared.  A method lies in the file of the
places that it encloses, and the first two are looked for in scope only.

The third is the place of the declaration that the index keeps for a binary name.  When
files in and out of scope declare classes of one binary name, this may be the class
outside, and the search leaves the scope through it.  Classes with a qualified name are
harmless, since nothing is substituted for their methods.
-/

namespace EntryPoints

variable {σ ρ : Type}

/-! ## Enclosing methods -/

theorem of_narrower {place : Location} {best : Option (Method × Int)} {n : Method}
    {found : Method × Int} (hfound : found ∈ Method.narrower place best n) :
    found ∈ best ∨
      found.1 = n ∧ ∃ span, n.location = some span ∧ span.contains place = true := by
  unfold Method.narrower at hfound
  cases hspan : n.spanAround place with
  | none =>
      rw [hspan] at hfound
      exact .inl hfound
  | some span =>
      have haround : ∃ span, n.location = some span ∧ span.contains place = true :=
        ⟨span, Option.filter_eq_some_iff.mp hspan⟩
      rw [hspan] at hfound
      cases best with
      | none =>
          cases hfound
          exact .inr ⟨rfl, haround⟩
      | some old =>
          simp only at hfound
          split at hfound
          · cases hfound
            exact .inr ⟨rfl, haround⟩
          · exact .inl hfound

theorem of_foldl_narrower {place : Location} {methods : List Method}
    {best : Option (Method × Int)} {found : Method × Int}
    (hfound : found ∈ methods.foldl (Method.narrower place) best) :
    found ∈ best ∨
      found.1 ∈ methods ∧ ∃ span, found.1.location = some span ∧ span.contains place = true := by
  induction methods generalizing best with
  | nil => exact .inl hfound
  | cons n methods ih =>
      rcases ih hfound with hstep | ⟨hmem, haround⟩
      · rcases of_narrower hstep with hbest | ⟨rfl, haround⟩
        · exact .inl hbest
        · exact .inr ⟨List.mem_cons_self, haround⟩
      · exact .inr ⟨List.mem_cons_of_mem n hmem, haround⟩

/-- The narrowest method around a place is one of the list and contains the place. -/
theorem of_narrowestAround {place : Location} {methods : List Method} {m : Method}
    (hm : narrowestAround place methods = some m) :
    m ∈ methods ∧ ∃ span, m.location = some span ∧ span.contains place = true := by
  obtain ⟨found, hfound, rfl⟩ := Option.map_eq_some_iff.mp hm
  rcases of_foldl_narrower hfound with hnone | haround
  · cases hnone
  · exact haround

theorem mem_of_mem_firstOfKeys {m : Method} {ms : List Method} (hm : m ∈ firstOfKeys ms) :
    m ∈ ms := by
  induction ms with
  | nil => exact hm
  | cons n ms ih =>
      rw [firstOfKeys, List.mem_cons] at hm
      rcases hm with rfl | hm
      · exact List.mem_cons_self
      · exact List.mem_cons_of_mem n (ih (List.mem_filter.mp hm).1)

namespace Snapshot

variable {files : List FileFacts} {scope : Scope}

/-- A method that one of the files declares, in scope. -/
def DeclaredIn (files : List FileFacts) (scope : Scope) (m : Method) : Prop :=
  (∃ entry, (m, entry) ∈ CodeIndex.methodEntries (CodeIndex.typesOf files) files) ∧
    ∃ place, m.location = some place ∧ scope.contains place = true

theorem declaredIn_of_enclosingMethod {place : Location} {m : Method}
    (hplace : scope.contains place = true)
    (hm : (ofFiles files scope).enclosingMethod place = some m) : DeclaredIn files scope m := by
  obtain ⟨hmem, span, hspan, hcontains⟩ := of_narrowestAround hm
  change m ∈ (CodeIndex.ofFiles files).methodsOfFile place.file at hmem
  rw [CodeIndex.methodsOfFile_ofFiles] at hmem
  obtain ⟨entry, hentry, rfl⟩ := List.mem_map.mp hmem
  refine ⟨⟨entry.2, (List.mem_filter.mp hentry).1⟩, span, hspan, ?_⟩
  have hfile := (Location.contains_iff.mp hcontains).1
  rw [Scope.contains, hfile]
  exact hplace

/-! ## Steps of a search -/

theorem declaredIn_of_mem_callers {m caller : Method}
    (hcaller : caller ∈ (ofFiles files scope).answers.callers m) :
    DeclaredIn files scope caller := by
  have hdirect (n : Method) (implementation : Option TypeSymbol)
      (hn : caller ∈ (ofFiles files scope).answers.directCallers n implementation) :
      DeclaredIn files scope caller := by
    obtain ⟨call, -, haccepts, henclosing⟩ := mem_directCallers.mp hn
    simp only [accepts, Bool.and_eq_true] at haccepts
    exact declaredIn_of_enclosingMethod haccepts.1.1.2 henclosing
  have hmem := mem_of_mem_firstOfKeys hcaller
  rw [List.mem_append, List.mem_flatMap] at hmem
  rcases hmem with hmem | ⟨root, -, hmem⟩
  · exact hdirect m none hmem
  · exact hdirect root (some m.owner) hmem

theorem declaredIn_of_mem_lambdaOwners {m owner : Method}
    (howner : owner ∈ (ofFiles files scope).answers.lambdaOwners m) :
    DeclaredIn files scope owner := by
  have hmem := mem_of_mem_firstOfKeys howner
  obtain ⟨expression, hexpression, hfound⟩ := List.mem_filterMap.mp hmem
  have htest := (List.mem_filter.mp hexpression).2
  simp only [Bool.and_eq_true] at htest
  unfold Answers.expressionOwner at hfound
  split at hfound
  · cases hfound
  · exact declaredIn_of_enclosingMethod htest.1 hfound

/-- A method whose type is declared in scope, if something is substituted for its methods. -/
def HasCreatorIn (scope : Scope) (m : Method) : Prop :=
  (m.owner.isAnonymous || m.owner.qualifiedName.isNone) = true →
    ∀ place, m.owner.location = some place → scope.contains place = true

theorem declaredIn_of_creatorOf {m creator : Method} (hm : HasCreatorIn scope m)
    (hcreator : (ofFiles files scope).answers.creatorOf m = some creator) :
    DeclaredIn files scope creator := by
  unfold Answers.creatorOf at hcreator
  split at hcreator
  next hnameless =>
    obtain ⟨place, hplace, henclosing⟩ := Option.bind_eq_some_iff.mp hcreator
    exact declaredIn_of_enclosingMethod (hm hnameless place hplace) henclosing
  next => cases hcreator

theorem declaredIn_of_mem_next {names : List String} {m above : Method}
    (hm : HasCreatorIn scope m)
    (habove : above ∈ (ofFiles files scope).answers.next names m) :
    DeclaredIn files scope above := by
  rcases Answers.cases_of_mem_next habove with hcreator | howner | hcaller
  · exact declaredIn_of_creatorOf hm hcreator
  · exact declaredIn_of_mem_lambdaOwners howner
  · exact declaredIn_of_mem_callers hcaller

/-! ## Types that several files declare -/

/-- No class without a qualified name that is declared out of scope shares its binary name with
a type that is declared in scope. -/
def NamelessApart (files : List FileFacts) (scope : Scope) : Prop :=
  ∀ nameless ∈ CodeIndex.typeEntries files,
    nameless.decl.isAnonymous || nameless.decl.qualifiedName.isNone →
    (∃ other ∈ CodeIndex.typeEntries files,
      other.decl.binaryName = nameless.decl.binaryName ∧
        scope.containsFile other.file.file = true) →
    scope.containsFile nameless.file.file = true

/-- A declared method lies in the file that declares it. -/
theorem location_of_mem_methodEntries (hfiles : ∀ file ∈ files, file.IsSelfContained)
    {m : Method} {entry : MethodEntry}
    (hm : (m, entry) ∈ CodeIndex.methodEntries (CodeIndex.typesOf files) files) :
    ∃ place, m.location = some place ∧ place.file = entry.file.file := by
  obtain ⟨hfile, hdecl⟩ := CodeIndex.file_of_mem_methodEntries hm
  obtain ⟨owner, -, rfl⟩ := CodeIndex.mem_methodEntries hm
  exact ((hfiles _ hfile).methods _ hdecl).1

theorem declaredIn_iff (hfiles : ∀ file ∈ files, file.IsSelfContained) {m : Method} :
    DeclaredIn files scope m ↔
      ∃ entry, (m, entry) ∈ CodeIndex.methodEntries (CodeIndex.typesOf files) files ∧
        scope.containsFile entry.file.file = true := by
  constructor
  · intro hm
    obtain ⟨⟨entry, hentry⟩, place, hplace, hscope⟩ := hm
    obtain ⟨span, hspan, hfile⟩ := location_of_mem_methodEntries hfiles hentry
    rw [hspan, Option.some.injEq] at hplace
    rw [Scope.contains, ← hplace, hfile] at hscope
    exact ⟨entry, hentry, hscope⟩
  · intro hm
    obtain ⟨entry, hentry, hscope⟩ := hm
    obtain ⟨span, hspan, hfile⟩ := location_of_mem_methodEntries hfiles hentry
    refine ⟨⟨entry, hentry⟩, span, hspan, ?_⟩
    rw [Scope.contains, hfile]
    exact hscope

theorem hasCreatorIn_of_declaredIn (hfiles : ∀ file ∈ files, file.IsSelfContained)
    (hnameless : NamelessApart files scope) {m : Method} (hm : DeclaredIn files scope m) :
    HasCreatorIn scope m := by
  obtain ⟨entry, hentry, hscope⟩ := (declaredIn_iff hfiles).mp hm
  obtain ⟨hfile, hdecl⟩ := CodeIndex.file_of_mem_methodEntries hentry
  obtain ⟨owner, howner, rfl⟩ := CodeIndex.mem_methodEntries hentry
  have hfound : (CodeIndex.ofFiles files).type? entry.decl.owner = some owner := howner
  have howners : owner ∈ CodeIndex.typeEntries files := CodeIndex.mem_typeEntries_of_type? hfound
  obtain ⟨hbinary, hsymbol⟩ := CodeIndex.symbol_of_type? hfound
  obtain ⟨-, hdeclared⟩ := (hfiles _ hfile).methods _ hdecl
  obtain ⟨other, hother, hname⟩ := List.mem_map.mp hdeclared
  -- The file of the method declares a type of the name of its owner, though perhaps not the one
  -- that the index keeps.
  have hshared : ∃ other ∈ CodeIndex.typeEntries files,
      other.decl.binaryName = owner.decl.binaryName ∧
        scope.containsFile other.file.file = true :=
    ⟨⟨CodeIndex.symbolOf other, other, entry.file⟩,
      CodeIndex.mem_typeEntries.mpr ⟨hfile, hother, rfl⟩, hname.trans hbinary.symm, hscope⟩
  intro hcreated creation hcreation
  change (owner.symbol.isAnonymous || owner.symbol.qualifiedName.isNone) = true at hcreated
  change owner.symbol.location = some creation at hcreation
  rw [hsymbol] at hcreated hcreation
  have hscopeOwner := hnameless owner howners hcreated hshared
  obtain ⟨hownerFile, hownerDecl, -⟩ := CodeIndex.mem_typeEntries.mp howners
  obtain ⟨declared, hdeclaredAt, hdeclaredFile⟩ := (hfiles _ hownerFile).types _ hownerDecl
  change owner.decl.location = some creation at hcreation
  rw [hdeclaredAt, Option.some.injEq] at hcreation
  rw [Scope.contains, ← hcreation, hdeclaredFile]
  exact hscopeOwner

theorem declaredIn_of_mem_methodEntries (hfiles : ∀ file ∈ files, file.IsSelfContained)
    {m : Method} {entry : MethodEntry}
    (hm : (m, entry) ∈ CodeIndex.methodEntries (CodeIndex.typesOf files) files)
    (hlocation : ∀ place, m.location = some place → scope.contains place = true) :
    DeclaredIn files scope m := by
  obtain ⟨place, hplace, -⟩ := location_of_mem_methodEntries hfiles hm
  exact ⟨⟨entry, hm⟩, place, hplace, hlocation place hplace⟩

/-- A search over files that were read off trees and that nothing disturbs, from a method that
lies in scope or nowhere, succeeds and finds methods in scope only.  The start is a declared
method, or one whose type lies in scope or nowhere.  No class without a qualified name that lies
out of scope may share its binary name with a type in scope. -/
theorem search_in_scope
    (hfiles : ∀ file ∈ files, ∃ source path tree, file = FileFacts.ofTree source path tree)
    (hnameless : NamelessApart files scope) {start : Method}
    (hlocation : ∀ place, start.location = some place → scope.contains place = true)
    (hstart : (∃ entry, (start, entry) ∈
        CodeIndex.methodEntries (CodeIndex.typesOf files) files) ∨
      ∀ place, start.owner.location = some place → scope.contains place = true)
    (finder : Finder) {watcher : Watcher ρ}
    (hwatcher : Undisturbed ((ofFiles files scope).knowledgeBase : KnowledgeBase σ) watcher)
    {s : RunState σ ρ} (hcache : s.cache.Holds (DeclaredIn files scope)) :
    ∃ result,
      (finder.search (.ok (ofFiles files scope).knowledgeBase) watcher start s).1 =
        .ok result ∧
      ∀ m ∈ result.topCallers, ∃ place, m.location = some place ∧
        scope.contains place = true := by
  have hself : ∀ file ∈ files, file.IsSelfContained := by
    intro file hfile
    obtain ⟨source, path, tree, rfl⟩ := hfiles file hfile
    exact FileFacts.isSelfContained_ofTree source path tree
  have hcreator : HasCreatorIn scope start := by
    rcases hstart with ⟨entry, hentry⟩ | howner
    · exact hasCreatorIn_of_declaredIn hself hnameless
        (declaredIn_of_mem_methodEntries hself hentry hlocation)
    · exact fun _ => howner
  have hclosed : ∀ m, m = start ∨ DeclaredIn files scope m →
      ∀ above ∈ (ofFiles files scope).answers.next finder.functional m,
        above = start ∨ DeclaredIn files scope above := by
    intro m hm above habove
    refine .inr (declaredIn_of_mem_next ?_ habove)
    rcases hm with rfl | hm
    · exact hcreator
    · exact hasCreatorIn_of_declaredIn hself hnameless hm
  have hholds : s.cache.Holds fun m => m = start ∨ DeclaredIn files scope m :=
    fun key callers hentry m hm => .inr (hcache key callers hentry m hm)
  obtain ⟨result, hresult, -, hfound⟩ :=
    finder.search_agree (ofFiles files scope).follows_answers (ofFiles files scope).follows_answers
      hwatcher hwatcher (Answers.AgreeOn.refl hclosed) (.inl rfl) rfl hholds
  refine ⟨result, hresult, fun m hm => ?_⟩
  obtain ⟨hknown, hkey⟩ := hfound m hm
  -- A start that no file declares is no exception: a top caller has another key.
  rcases hknown with rfl | hdeclared
  · exact absurd rfl hkey
  · exact hdeclared.2

end Snapshot

/-! ## A class without a name -/

namespace Nameless

def scope : Scope := .ofRoots none ["test"] false

def typeDecl : TypeDecl where
  binaryName := "A"
  name := "A"
  qualifiedName := some "A"
  location := some ⟨"A.java", 1, 0, 59⟩

def namelessDecl : TypeDecl where
  binaryName := "A$1"
  name := ""
  isAnonymous := true
  outer := some "A"
  superclass := some "R"
  location := some ⟨"A.java", 1, 31, 56⟩

def calledDecl : MethodDecl where
  id := "A#g@8"
  owner := "A"
  name := "g"
  returnType := some "void"
  location := some ⟨"A.java", 1, 8, 18⟩

def creatorDecl : MethodDecl where
  id := "A#f@18"
  owner := "A"
  name := "f"
  returnType := some "R"
  location := some ⟨"A.java", 1, 18, 58⟩

def runDecl : MethodDecl where
  id := "A$1#run@39"
  owner := "A$1"
  name := "run"
  returnType := some "void"
  location := some ⟨"A.java", 1, 39, 55⟩

def production : FileFacts where
  file := "A.java"
  relativePath := "A.java"
  types := [typeDecl, namelessDecl]
  methods := [calledDecl, creatorDecl, runDecl]
  invocations :=
    [⟨.creation, "R", some 0, some (.typed "R"), some "A", some "A#f@18",
        ⟨"A.java", 1, 31, 56⟩, some []⟩,
      ⟨.call, "g", some 0, none, some "A$1", some "A$1#run@39", ⟨"A.java", 1, 50, 53⟩, some []⟩]

def testDecl : TypeDecl where
  binaryName := "T"
  name := "T"
  qualifiedName := some "T"
  location := some ⟨"test/T.java", 1, 0, 28⟩

def callerDecl : MethodDecl where
  id := "T#t@8"
  owner := "T"
  name := "t"
  parameters := ["A"]
  returnType := some "void"
  location := some ⟨"test/T.java", 1, 8, 27⟩

def test : FileFacts where
  file := "test/T.java"
  relativePath := "test/T.java"
  types := [testDecl]
  methods := [callerDecl]
  invocations :=
    [⟨.call, "g", some 0, some (.typed "A"), some "T", some "T#t@8", ⟨"test/T.java", 1, 20, 25⟩,
      some []⟩]

set_option maxRecDepth 100000 in
theorem ofText_production : FileFacts.ofText "A.java"
    "class A\x7bvoid g()\x7b\x7dR f()\x7breturn new R()\x7bvoid run()\x7bg();\x7d\x7d;\x7d\x7d" none =
      production := by
  cbv

theorem ofText_test : FileFacts.ofText "test/T.java"
    "class T\x7bvoid t(A a)\x7ba.g();\x7d\x7d" none = test := by
  decide +kernel

def files : List FileFacts := [production, test]

theorem nameless_in_scope : ∀ entry ∈ CodeIndex.typeEntries files,
    entry.decl.isAnonymous || entry.decl.qualifiedName.isNone →
      scope.containsFile entry.file.file = true := by
  decide +kernel

/-- The method that is called by the class without a name, and by a test. -/
def start : Method := CodeIndex.methodOf (CodeIndex.symbolOf typeDecl) calledDecl

theorem start_declared :
    (start, ⟨calledDecl, production⟩) ∈
      CodeIndex.methodEntries (CodeIndex.typesOf files) files := by
  have htype : (CodeIndex.typesOf files).get? "A" =
      some ⟨CodeIndex.symbolOf typeDecl, typeDecl, production⟩ :=
    CodeIndex.type?_ofFiles files "A"
  refine List.mem_flatMap.mpr ⟨production, List.mem_cons_self,
    List.mem_filterMap.mpr ⟨calledDecl, List.mem_cons_self, ?_⟩⟩
  change ((CodeIndex.typesOf files).get? "A").map _ = _
  rw [htype]
  rfl

end Nameless

open Nameless in
/-- A class without a name calls `g` in production, and a test calls it too.  The search from `g`
stays out of the tests. -/
theorem search_in_scope_nameless :
    (start, ⟨calledDecl, production⟩) ∈
        CodeIndex.methodEntries (CodeIndex.typesOf files) files ∧
      ∃ result,
        ((default : Finder).search (.ok (Snapshot.ofFiles files scope).knowledgeBase)
          Watcher.idle start (⟨(), (), {}⟩ : RunState Unit Unit)).1 = .ok result ∧
        ∀ m ∈ result.topCallers, ∃ place, m.location = some place ∧
          scope.contains place = true := by
  have hfiles : ∀ file ∈ files, ∃ source path tree, file = FileFacts.ofTree source path tree := by
    intro file hfile
    simp only [files, List.mem_cons, List.not_mem_nil, or_false] at hfile
    rcases hfile with rfl | rfl
    · exact ⟨_, _, _, ofText_production.symm⟩
    · exact ⟨_, _, _, ofText_test.symm⟩
  have hundisturbed : Undisturbed ((Snapshot.ofFiles files scope).knowledgeBase :
      KnowledgeBase Unit) (Watcher.idle : Watcher Unit) := undisturbed_idle fun _ => rfl
  have hlocation : ∀ place, start.location = some place → scope.contains place = true := by
    decide +kernel
  have hcache : (({} : CallerCache)).Holds (Snapshot.DeclaredIn files scope) := by
    intro key callers hentry
    rw [CallerCache.get?_new] at hentry
    cases hentry
  exact ⟨start_declared, Snapshot.search_in_scope hfiles (fun entry hentry hnameless _ =>
    nameless_in_scope entry hentry hnameless) hlocation (.inl ⟨_, start_declared⟩) default
    hundisturbed hcache⟩

end EntryPoints
