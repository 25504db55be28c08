import EntryPoints.Proofs.TopmostMethods

/-!
# The order of types

A type passes for a subtype of another one when the walk upwards from it meets the id of the
other.  The ids are texts.  Where two types go by one id, the walk goes on from the one that it
meets first, and what is above the other is lost.

A name that is known to belong to `java.lang` stands for a type of the library, even when the
index has a type of this name.  So a class may have the id of an indexed type above it without
what is above the indexed type.  As long as types of one id have the same supertypes, the walk
meets everything that is above a type, and the subtypes are ordered.
-/

namespace EntryPoints

namespace CodeIndex

variable {files : List FileFacts} {a b c : TypeSymbol}

theorem isSubtypeOrSelf_iff {index : CodeIndex} :
    index.isSubtypeOrSelf a b = true ↔ ∃ t ∈ index.ancestors a, t.id = b.id := by
  unfold isSubtypeOrSelf
  rw [List.any_eq_true]
  simp only [beq_iff_eq]

theorem self_mem_ancestors (index : CodeIndex) (t : TypeSymbol) : t ∈ index.ancestors t := by
  have hnew : ¬ ([] : List String).contains t.id = true := by simp
  unfold ancestors
  by_cases hlight : Walk.load TypeSymbol.weight (index.directSupertypes t) ≤ t.weight
  · rw [Walk.visit_cons_of_light hnew hlight]
    exact List.mem_cons_self
  · rw [Walk.visit_cons_of_heavy hnew hlight]
    exact List.mem_cons_self

/-- Indexed types are told apart by their ids. -/
theorem eq_of_id_of_mem_allTypes (hfiles : ∀ file ∈ files, file.IsClosed)
    (ha : a ∈ (ofFiles files).allTypes) (hb : b ∈ (ofFiles files).allTypes)
    (hid : a.id = b.id) : a = b := by
  have hkey {t : TypeSymbol} (ht : t ∈ (ofFiles files).allTypes) :
      ∃ entry, (ofFiles files).type? t.id = some entry ∧ t = entry.symbol := by
    obtain ⟨k, entry, hentry, rfl⟩ := exists_type?_of_mem_allTypes ht
    obtain ⟨hk, hsymbol⟩ := symbol_of_type? hentry
    have hname : entry.symbol.binaryName = k := by
      rw [hsymbol]
      exact hk
    have hid : entry.symbol.id = k := by
      rw [← hname]
      apply id_eq_binaryName
      rw [hname]
      exact ne_empty_of_type? hfiles hentry
    rw [hid]
    exact ⟨entry, hentry, rfl⟩
  obtain ⟨entry, hentry, rfl⟩ := hkey ha
  obtain ⟨other, hother, rfl⟩ := hkey hb
  rw [hid, hother] at hentry
  cases hentry
  rfl

/-- Types of one id have the same supertypes, as far as one of them is above `a` and the other
one is as well or belongs to the index. -/
def AgreesAbove (index : CodeIndex) (a : TypeSymbol) : Prop :=
  ∀ t u, index.IsAbove a t → index.IsAbove a u ∨ u ∈ index.allTypes → t.id = u.id →
    index.directSupertypes t = index.directSupertypes u

/-- What indexed types inherit from belongs to the index, or to the library under a name that no
indexed type has. -/
def NamesApart (index : CodeIndex) : Prop :=
  ∀ b ∈ index.allTypes, ∀ t ∈ index.directSupertypes b, t ∈ index.allTypes ∨
    (∃ name, t = Library.externalType name) ∧ ∀ d ∈ index.allTypes, d.id ≠ t.id

theorem directSupertypes_externalType (index : CodeIndex) (name : String) :
    index.directSupertypes (Library.externalType name) = [] := by
  unfold directSupertypes Library.externalType
  split <;> rfl

theorem NamesApart.of_isAbove {index : CodeIndex} (hapart : index.NamesApart)
    (ha : a ∈ index.allTypes) (hb : index.IsAbove a b) : b ∈ index.allTypes ∨
      (∃ name, b = Library.externalType name) ∧ ∀ d ∈ index.allTypes, d.id ≠ b.id := by
  induction hb with
  | refl => exact .inl ha
  | tail _ hstep ih =>
      rcases ih with hindexed | ⟨⟨name, rfl⟩, -⟩
      · exact hapart _ hindexed _ hstep
      · rw [directSupertypes_externalType] at hstep
        cases hstep

theorem NamesApart.agreesAbove (hfiles : ∀ file ∈ files, file.IsClosed)
    (hapart : (ofFiles files).NamesApart) (ha : a ∈ (ofFiles files).allTypes) :
    (ofFiles files).AgreesAbove a := by
  intro t u ht hu hid
  have hother : u ∈ (ofFiles files).allTypes ∨
      (∃ name, u = Library.externalType name) ∧ ∀ d ∈ (ofFiles files).allTypes, d.id ≠ u.id := by
    rcases hu with hu | hu
    · exact hapart.of_isAbove ha hu
    · exact .inl hu
  rcases hapart.of_isAbove ha ht with hindexed | ⟨⟨name, rfl⟩, hclash⟩
  · rcases hother with hother | ⟨-, hclash⟩
    · rw [eq_of_id_of_mem_allTypes hfiles hindexed hother hid]
    · exact absurd hid (hclash t hindexed)
  · rcases hother with hother | ⟨⟨other, rfl⟩, -⟩
    · exact absurd hid.symm (hclash u hother)
    · rw [directSupertypes_externalType, directSupertypes_externalType]

theorem isSubtypeOrSelf_iff_of_agreesAbove (hfiles : ∀ file ∈ files, file.IsClosed)
    (hagrees : (ofFiles files).AgreesAbove a) :
    (ofFiles files).isSubtypeOrSelf a b = true ↔
      ∃ t, (ofFiles files).IsAbove a t ∧ t.id = b.id := by
  rw [isSubtypeOrSelf_iff]
  constructor
  · rintro ⟨t, ht, hid⟩
    exact ⟨t, isAbove_of_mem_ancestors ht, hid⟩
  · rintro ⟨t, ht, hid⟩
    have hsame : ∀ v w, (ofFiles files).IsAbove a v → (ofFiles files).IsAbove a w → v.id = w.id →
        (ofFiles files).directSupertypes v = (ofFiles files).directSupertypes w :=
      fun v w hv hw => hagrees v w hv (.inl hw)
    obtain ⟨z, hz, hzt⟩ := exists_id_of_isAbove hfiles hsame ht
    exact ⟨z, hz, hzt.trans hid⟩

theorem isSubtypeOrSelf_trans_of_agreesAbove (hfiles : ∀ file ∈ files, file.IsClosed)
    (hagrees : (ofFiles files).AgreesAbove a) (hb : b ∈ (ofFiles files).allTypes)
    (hab : (ofFiles files).isSubtypeOrSelf a b = true)
    (hbc : (ofFiles files).isSubtypeOrSelf b c = true) :
    (ofFiles files).isSubtypeOrSelf a c = true := by
  rw [isSubtypeOrSelf_iff_of_agreesAbove hfiles hagrees] at hab ⊢
  obtain ⟨t, ht, htb⟩ := hab
  obtain ⟨u, hu, huc⟩ := isSubtypeOrSelf_iff.mp hbc
  have habove : (ofFiles files).IsAbove b u := isAbove_of_mem_ancestors hu
  rcases Relation.ReflTransGen.cases_head habove with rfl | ⟨first, hfirst, hrest⟩
  · exact ⟨t, ht, htb.trans huc⟩
  · -- The way from `b` upwards starts at `t` as well.
    have hsteps : first ∈ (ofFiles files).directSupertypes t := by
      rw [hagrees t b ht (.inr hb) htb]
      exact hfirst
    exact ⟨u, (ht.tail hsteps).trans hrest, huc⟩

/-- Every type is a subtype of itself.  As long as types of one id have the same supertypes, a
type is a subtype of exactly those whose ids are above it, and it is one of whatever its supertypes
are subtypes of.  They do for all indexed types when no type of the library that one of them
inherits from bears an indexed name. -/
theorem isSubtypeOrSelf_preorder (hfiles : ∀ file ∈ files, file.IsClosed) :
    (∀ t, (ofFiles files).isSubtypeOrSelf t t = true) ∧
    (∀ a, (ofFiles files).AgreesAbove a →
      (∀ b, (ofFiles files).isSubtypeOrSelf a b = true ↔
        ∃ t, (ofFiles files).IsAbove a t ∧ t.id = b.id) ∧
      ∀ b ∈ (ofFiles files).allTypes, ∀ c, (ofFiles files).isSubtypeOrSelf a b = true →
        (ofFiles files).isSubtypeOrSelf b c = true →
        (ofFiles files).isSubtypeOrSelf a c = true) ∧
    ((ofFiles files).NamesApart → ∀ a ∈ (ofFiles files).allTypes, (ofFiles files).AgreesAbove a) := by
  refine ⟨fun t => ?_, fun a hagrees => ⟨fun b => ?_, fun b hb c => ?_⟩, fun hapart a ha => ?_⟩
  · exact isSubtypeOrSelf_iff.mpr ⟨t, self_mem_ancestors _ t, rfl⟩
  · exact isSubtypeOrSelf_iff_of_agreesAbove hfiles hagrees
  · exact isSubtypeOrSelf_trans_of_agreesAbove hfiles hagrees hb
  · exact hapart.agreesAbove hfiles ha

end CodeIndex

namespace Redeclared

open CodeIndex

theorem namesApart : index.NamesApart := by
  obtain ⟨hupper, hlower, hupperFirst, hlowerFirst⟩ := type?_eq
  obtain ⟨hupperAbove, hlowerAbove, hupperFirstAbove, hlowerFirstAbove⟩ := directSupertypes_eq
  have hindexed : upper.symbol ∈ index.allTypes ∧ lower.symbol ∈ index.allTypes :=
    ⟨symbol_mem_allTypes hupper, symbol_mem_allTypes hlower⟩
  intro b hb t ht
  obtain ⟨k, entry, hentry, rfl⟩ := exists_type?_of_mem_allTypes hb
  have hmem : entry ∈ [upper, lower, upperFirst, lowerFirst] := mem_typeEntries_of_type? hentry
  simp only [List.mem_cons, List.not_mem_nil, or_false] at hmem
  left
  rcases hmem with rfl | rfl | rfl | rfl
  · rw [hupperAbove] at ht
    cases ht
  · rw [hlowerAbove, List.mem_singleton] at ht
    rw [ht]
    exact hindexed.1
  · rw [hupperFirstAbove] at ht
    rcases List.mem_pair.mp ht with rfl | rfl
    · exact hindexed.1
    · exact hindexed.2
  · rw [hlowerFirstAbove] at ht
    rcases List.mem_pair.mp ht with rfl | rfl
    · exact hindexed.2
    · exact hindexed.1

end Redeclared

open Redeclared in
/-- The class `U` implements `J`, which extends `I`. -/
theorem isSubtypeOrSelf_preorder_redeclared :
    (∀ file ∈ [source], file.IsClosed) ∧ index.AgreesAbove lowerFirst.symbol ∧
    index.isSubtypeOrSelf lowerFirst.symbol lower.symbol = true ∧
    index.isSubtypeOrSelf lower.symbol upper.symbol = true ∧
    index.isSubtypeOrSelf lowerFirst.symbol upper.symbol = true := by
  obtain ⟨-, hlower, -, hlowerFirst⟩ := type?_eq
  obtain ⟨-, hlowerAbove, -, hlowerFirstAbove⟩ := directSupertypes_eq
  have hindexed : lower.symbol ∈ index.allTypes := CodeIndex.symbol_mem_allTypes hlower
  obtain ⟨-, hpreorder, hagrees⟩ := CodeIndex.isSubtypeOrSelf_preorder isClosed
  have hlowerAgrees := hagrees namesApart lower.symbol hindexed
  have hlowerFirstAgrees :=
    hagrees namesApart lowerFirst.symbol (CodeIndex.symbol_mem_allTypes hlowerFirst)
  have hstep {a b : TypeSymbol} (ha : index.AgreesAbove a) (hb : b ∈ index.directSupertypes a) :
      index.isSubtypeOrSelf a b = true := ((hpreorder a ha).1 b).mpr ⟨b, .single hb, rfl⟩
  have hfirst := hstep (b := lower.symbol) hlowerFirstAgrees (by simp [hlowerFirstAbove])
  have hsecond := hstep (b := upper.symbol) hlowerAgrees (by simp [hlowerAbove])
  exact ⟨isClosed, hlowerFirstAgrees, hfirst, hsecond,
    (hpreorder _ hlowerFirstAgrees).2 _ hindexed _ hfirst hsecond⟩

/-! ## A name of the library that the index has as well -/

namespace LibraryName

open CodeIndex

def threadDecl : TypeDecl where
  binaryName := "java.lang.Thread"
  name := "Thread"
  qualifiedName := some "java.lang.Thread"
  interfaces := ["Runnable"]
  location := some ⟨"T.java", 1, 18, 52⟩

def runnableDecl : TypeDecl where
  binaryName := "java.lang.Runnable"
  name := "Runnable"
  kind := .interfaceType
  qualifiedName := some "java.lang.Runnable"
  location := some ⟨"R.java", 1, 18, 38⟩

def userDecl : TypeDecl where
  binaryName := "p.A"
  name := "A"
  qualifiedName := some "p.A"
  superclass := some "Thread"
  location := some ⟨"A.java", 1, 10, 34⟩

def fileOf (path package : String) (decl : TypeDecl) : FileFacts where
  file := path
  relativePath := path
  package
  types := [decl]

/-- A thread of the package `java.lang`, what it implements, and a class that extends it by its
simple name. -/
def files : List FileFacts :=
  [fileOf "T.java" "java.lang" threadDecl, fileOf "R.java" "java.lang" runnableDecl,
    fileOf "A.java" "p" userDecl]

theorem ofText_files :
    [FileFacts.ofText "T.java" "package java.lang;class Thread implements Runnable\x7b\x7d" none,
      .ofText "R.java" "package java.lang;interface Runnable\x7b\x7d" none,
      .ofText "A.java" "package p;class A extends Thread\x7b\x7d" none] = files := by
  decide +kernel

def index : CodeIndex := ofFiles files

def thread : TypeEntry := ⟨symbolOf threadDecl, threadDecl, fileOf "T.java" "java.lang" threadDecl⟩

def runnable : TypeEntry :=
  ⟨symbolOf runnableDecl, runnableDecl, fileOf "R.java" "java.lang" runnableDecl⟩

def user : TypeEntry := ⟨symbolOf userDecl, userDecl, fileOf "A.java" "p" userDecl⟩

theorem type?_eq : index.type? "java.lang.Thread" = some thread ∧
    index.type? "java.lang.Runnable" = some runnable ∧ index.type? "p.A" = some user := by
  simp only [index, type?_ofFiles]
  exact ⟨rfl, rfl, rfl⟩

theorem mem_allTypes : thread.symbol ∈ index.allTypes ∧ runnable.symbol ∈ index.allTypes ∧
    user.symbol ∈ index.allTypes := by
  obtain ⟨hthread, hrunnable, huser⟩ := type?_eq
  exact ⟨symbol_mem_allTypes hthread, symbol_mem_allTypes hrunnable, symbol_mem_allTypes huser⟩

theorem typeParameter_eq (view : Viewpoint) (hview : view.method = none) (name : String) :
    index.typeParameter name view = none := by
  have hall : ∀ entry ∈ typeEntries files, entry.decl.typeParameters = [] := by decide
  exact typeParameter_eq_none (fun k entry hentry => hall entry (mem_typeEntries_of_type? hentry))
    (by simp [hview]) name

/-- In its own package the name means the declared type. -/
theorem resolveType_runnable :
    index.resolveType "Runnable" (headView thread) = some runnable.symbol := by
  obtain ⟨hthread, hrunnable, -⟩ := type?_eq
  have haround : ∀ owner ∈ index.ownersFrom (some "java.lang.Thread"),
      index.seenFrom "Runnable" owner = none := by
    intro owner howner
    rw [index, ownersFrom_of_outermost hthread (by decide) rfl, List.mem_singleton] at howner
    subst howner
    have hnested : index.type? "java.lang.Thread$Runnable" = none := by
      rw [index, type?_ofFiles]
      rfl
    unfold seenFrom
    rw [show thread.decl.binaryName ++ "$" ++ "Runnable" = "java.lang.Thread$Runnable" by decide,
      hnested]
    rfl
  have hsibling : index.qualified? "java.lang.Runnable" = some runnable := by
    rw [index, qualified?_ofFiles]
    exact hrunnable
  have hfile : index.seenInFile "Runnable" (headView thread).file = some runnable.symbol := by
    have hsource : (headView thread).file.imports = [] ∧ (headView thread).file.wildcardImports = [] ∧
        (headView thread).file.package = "java.lang" := ⟨rfl, rfl, rfl⟩
    unfold seenInFile
    simp [hsource, hsibling]
  apply resolveType_of_seenInFile (by decide) (by decide) (typeParameter_eq _ rfl) _ haround hfile
  rw [index, qualified?_ofFiles]
  rfl

/-- In another package it means a type of the library. -/
theorem resolveType_thread :
    index.resolveType "Thread" (headView user) =
      some (Library.externalType "java.lang.Thread") := by
  obtain ⟨-, -, huser⟩ := type?_eq
  have haround : ∀ owner ∈ index.ownersFrom (some "p.A"),
      index.seenFrom "Thread" owner = none := by
    intro owner howner
    rw [index, ownersFrom_of_outermost huser (by decide) rfl, List.mem_singleton] at howner
    subst howner
    have hnested : index.type? "p.A$Thread" = none := by
      rw [index, type?_ofFiles]
      rfl
    unfold seenFrom
    rw [show user.decl.binaryName ++ "$" ++ "Thread" = "p.A$Thread" by decide, hnested]
    rfl
  have hnone : index.qualified? "Thread" = none ∧ index.qualified? "p.Thread" = none := by
    simp only [index, qualified?_ofFiles]
    exact ⟨rfl, rfl⟩
  have hfile : index.seenInFile "Thread" (headView user).file = none := by
    have hsource : (headView user).file.imports = [] ∧ (headView user).file.wildcardImports = [] ∧
        (headView user).file.package = "p" := ⟨rfl, rfl, rfl⟩
    unfold seenInFile
    simp [hsource, hnone]
  exact resolveType_of_languageTypes (by decide) (by decide) (typeParameter_eq _ rfl) hnone.1
    haround hfile (by decide)

theorem directSupertypes_eq :
    index.directSupertypes user.symbol = [Library.externalType "java.lang.Thread"] ∧
    index.directSupertypes thread.symbol = [runnable.symbol] ∧
    index.directSupertypes runnable.symbol = [] := by
  obtain ⟨hthread, hrunnable, huser⟩ := type?_eq
  have hheads : index.declaredSupertypes user = [Library.externalType "java.lang.Thread"] ∧
      index.declaredSupertypes thread = [runnable.symbol] := by
    unfold declaredSupertypes
    rw [show supertypeTexts user.decl = ["Thread"] by decide,
      show supertypeTexts thread.decl = ["Runnable"] by decide]
    simp only [List.filterMap_cons, List.filterMap_nil, resolveType_thread, resolveType_runnable]
    exact ⟨rfl, rfl⟩
  exact ⟨(directSupertypes_symbol huser (by decide)).trans hheads.1,
    (directSupertypes_symbol hthread (by decide)).trans hheads.2,
    directSupertypes_symbol hrunnable (by decide)⟩

theorem ancestors_eq :
    index.ancestors user.symbol = [user.symbol, Library.externalType "java.lang.Thread"] ∧
    index.ancestors thread.symbol = [thread.symbol, runnable.symbol] := by
  obtain ⟨huser, hthread, hrunnable⟩ := directSupertypes_eq
  have hlibrary := directSupertypes_externalType index "java.lang.Thread"
  have hsize : index.types.size = 3 := by
    change (typesOf files).keys.length = 3
    rw [typesOf, Table.keys_ofList (by decide)]
    rfl
  have hids : user.symbol.id = "p.A" ∧ thread.symbol.id = "java.lang.Thread" ∧
      runnable.symbol.id = "java.lang.Runnable" ∧
      (Library.externalType "java.lang.Thread").id = "java.lang.Thread" := by decide
  have hweights : user.symbol.weight = 0 ∧ thread.symbol.weight = 0 ∧
      runnable.symbol.weight = 0 ∧ (Library.externalType "java.lang.Thread").weight = 0 :=
    ⟨rfl, rfl, rfl, rfl⟩
  unfold ancestors
  rw [hsize]
  simp [Walk.visit, Walk.load, huser, hthread, hrunnable, hlibrary, hids, hweights]

end LibraryName

open LibraryName in
/-- The class `p.A` extends `java.lang.Thread`, which implements `java.lang.Runnable`.  It passes
for a subtype of the first, and not of the second. -/
theorem subtypes_lost_at_library_name :
    [FileFacts.ofText "T.java" "package java.lang;class Thread implements Runnable\x7b\x7d" none,
      .ofText "R.java" "package java.lang;interface Runnable\x7b\x7d" none,
      .ofText "A.java" "package p;class A extends Thread\x7b\x7d" none] = files ∧
    (∀ file ∈ files, file.IsClosed) ∧
    (thread.symbol ∈ index.allTypes ∧ runnable.symbol ∈ index.allTypes ∧
      user.symbol ∈ index.allTypes) ∧
    index.isSubtypeOrSelf user.symbol thread.symbol = true ∧
    index.isSubtypeOrSelf thread.symbol runnable.symbol = true ∧
    index.isSubtypeOrSelf user.symbol runnable.symbol = false := by
  have hanswers : index.isSubtypeOrSelf user.symbol thread.symbol = true ∧
      index.isSubtypeOrSelf thread.symbol runnable.symbol = true ∧
      index.isSubtypeOrSelf user.symbol runnable.symbol = false := by
    unfold CodeIndex.isSubtypeOrSelf
    rw [ancestors_eq.1, ancestors_eq.2]
    decide
  have hclosed : ∀ file ∈ files, file.IsClosed := by
    rw [← ofText_files]
    simp only [List.forall_mem_cons, List.not_mem_nil, false_imp_iff, implies_true, and_true]
    exact ⟨FileFacts.isClosed_ofTree _ _ (by decide +kernel),
      FileFacts.isClosed_ofTree _ _ (by decide +kernel),
      FileFacts.isClosed_ofTree _ _ (by decide +kernel)⟩
  exact ⟨ofText_files, hclosed, mem_allTypes, hanswers⟩

end EntryPoints
