import EntryPoints.Proofs.InstalledSnapshot
import EntryPoints.Proofs.ProductionIndex
import EntryPoints.Proofs.SpecTexts

/-!
# Methods by their specs

Every declared method can be shown: as its owner, its name and the types of its parameters.  When
what is shown is given back as a spec, four things decide whether the method is found.  A spec
has to be able to spell it, the list of parameter types has to be read as it was written, the
shown name of the owner has to lead back to the owner, and no second declaration of the owner may
have the name and the erased parameter types of the method.

When the first fails the spec is malformed.  When only the last fails the spec is ambiguous,
although it has a list of parameter types: erasing drops everything behind the first type
argument, the dimensions of an array of generic type too, and every qualifier.
-/

namespace EntryPoints

/-! ## What is shown of a method -/

namespace Method

/-- Owner, name and parameter types of a method in a spec. -/
def spec (m : Method) : String := m.owner.displayName ++ "#" ++ m.signature

/-- What the signature has between its parentheses. -/
def parameterText (m : Method) : List Char :=
  [',', ' '].intercalate (m.parameters.map String.toList)

/-- The parameter types that are read there. -/
def readParameters (m : Method) : List String :=
  (MethodSpec.parametersOf m.parameterText).map String.ofList

def IsSpellable (m : Method) : Prop :=
  MethodSpec.CanSpell m.owner.displayName.toList m.name.toList m.parameterText

/-- Whether the list of parameter types is read as what it was made of, up to erasure. -/
def ListReadsBack (m : Method) : Prop :=
  m.readParameters.map TypeText.erase = m.parameters.map TypeText.erase

/-- Neither a blank nor a parenthesis is a part of a Java name. -/
structure IsNamedPlainly (m : Method) : Prop where
  owner : '(' ∉ m.owner.displayName.toList
  start : ∀ c ∈ m.owner.displayName.toList.head?, Text.isBlank c = false
  name : ∀ c ∈ m.name.toList, c ≠ '(' ∧ Text.isBlank c = false

instance (m : Method) : Decidable m.IsSpellable :=
  inferInstanceAs (Decidable (MethodSpec.CanSpell _ _ _))

theorem isNamedPlainly_iff {m : Method} : m.IsNamedPlainly ↔
    '(' ∉ m.owner.displayName.toList ∧
      m.owner.displayName.toList.head?.all (fun c => !Text.isBlank c) = true ∧
      m.name.toList.all (fun c => c != '(' && !Text.isBlank c) = true := by
  constructor
  · intro h
    exact ⟨h.owner, by simpa [Option.all_eq_true] using h.start, by simpa using h.name⟩
  · intro h
    exact ⟨h.1, by simpa [Option.all_eq_true] using h.2.1, by simpa using h.2.2⟩

-- A test of all characters of a text; one that asked for every character there is would not end.
instance (m : Method) : Decidable m.IsNamedPlainly := decidable_of_iff _ isNamedPlainly_iff.symm

variable {m : Method}

theorem toList_spec (m : Method) : m.spec.toList =
    m.owner.displayName.toList ++ '#' :: m.name.toList ++ '(' :: (m.parameterText ++ [')']) := by
  simp [spec, signature, parameterText, Text.joinWith]

/-- Types that are written without stray commas, brackets and blanks are read back. -/
theorem readParameters_eq (hparameters : ∀ parameter ∈ m.parameters,
    TypeText.IsOneType parameter.toList ∧
      Text.trim Text.isBlank parameter.toList = parameter.toList) :
    m.readParameters = m.parameters := by
  have hread : MethodSpec.parametersOf m.parameterText = m.parameters.map String.toList := by
    refine MethodSpec.parametersOf_joined fun t ht => ?_
    obtain ⟨parameter, hparameter, rfl⟩ := List.mem_map.mp ht
    exact hparameters parameter hparameter
  rw [readParameters, hread]
  simp

/-- What is shown of a method is read as a spec with its owner and its name, or not at all. -/
theorem parse_spec (hplain : m.IsNamedPlainly) : MethodSpec.parse m.spec =
    if m.IsSpellable then .ok ⟨m.owner.displayName, m.name, some m.readParameters⟩
    else .error (.malformedSpec m.spec) := by
  have hread : MethodSpec.ofChars? m.spec.toList = if m.IsSpellable then
      some ⟨String.ofList m.owner.displayName.toList, String.ofList m.name.toList,
        some m.readParameters⟩ else none := by
    rw [toList_spec]
    exact MethodSpec.ofChars?_shown m.parameterText hplain.owner hplain.start hplain.name
  unfold MethodSpec.parse
  rw [hread]
  by_cases h : m.IsSpellable
  · rw [if_pos h, if_pos h]
    simp
  · rw [if_neg h, if_neg h]

end Method

/-! ## What a spec may mean -/

namespace CodeIndex

variable {files : List FileFacts} {m : Method}

/-- The declared methods with the owner, the name and the erased parameter types of a method. -/
def lookalikes (index : CodeIndex) (m : Method) : List Method :=
  (index.methodsDeclaredBy m.owner.binaryName).filter fun n =>
    n.name == m.name && n.parameters.map TypeText.erase == m.parameters.map TypeText.erase

/-- Whether a type is found by the name by which it is shown. -/
def LeadsBack (index : CodeIndex) (t : TypeSymbol) : Prop :=
  index.qualified.getD t.displayName t.displayName = t.binaryName

theorem allMethods_ofFiles
    (hapart : (methodEntries (typesOf files) files).Pairwise fun a b => (a.1 == b.1) = false) :
    (ofFiles files).allMethods = (methodEntries (typesOf files) files).map (·.1) :=
  Table.keys_ofList hapart

theorem type?_owner (hm : m ∈ (ofFiles files).allMethods) :
    ∃ entry, (ofFiles files).type? m.owner.binaryName = some entry ∧
      m.owner = symbolOf entry.decl := by
  obtain ⟨k, entry, hentry, howner⟩ := owner_of_mem_allMethods hm
  obtain ⟨hbinary, hsymbol⟩ := symbol_of_type? hentry
  rw [hsymbol] at howner
  have hkey : m.owner.binaryName = k := by
    rw [howner]
    exact hbinary
  exact ⟨entry, hkey ▸ hentry, howner⟩

theorem lookalikes_ofFiles (m : Method) : (ofFiles files).lookalikes m =
    ((methodEntries (typesOf files) files).map (·.1)).filter fun n =>
      n.owner.binaryName == m.owner.binaryName && (n.name == m.name &&
        n.parameters.map TypeText.erase == m.parameters.map TypeText.erase) := by
  have howner : (methodEntries (typesOf files) files).filter
        (·.2.decl.owner == m.owner.binaryName) =
      (methodEntries (typesOf files) files).filter
        (·.1.owner.binaryName == m.owner.binaryName) := by
    refine List.filter_congr fun a ha => ?_
    rw [Codebase.binaryName_of_mem_methodEntries ha]
  unfold lookalikes
  rw [methodsDeclaredBy_ofFiles, howner, List.filter_map, List.filter_map, List.filter_filter]
  congr 1
  refine List.filter_congr fun a _ => ?_
  exact Bool.and_comm _ _

theorem mem_lookalikes (hm : m ∈ (ofFiles files).allMethods) :
    m ∈ (ofFiles files).lookalikes m := by
  rw [lookalikes_ofFiles, List.mem_filter]
  exact ⟨Table.mem_of_mem_keys_ofList hm, by simp⟩

theorem leadsBack_ofFiles (t : TypeSymbol) : (ofFiles files).LeadsBack t ↔
    (((typeEntries files).filter isQualified).reverse.find?
      (·.decl.qualifiedName.getD "" == t.displayName)).elim t.displayName
        (·.decl.binaryName) = t.binaryName := by
  unfold LeadsBack
  rw [Std.HashMap.getD_eq_getD_getElem?, qualified_ofFiles]
  cases ((typeEntries files).filter isQualified).reverse.find?
    (·.decl.qualifiedName.getD "" == t.displayName) <;> rfl

/-- In files that give no qualified name to two types, the name by which a type is shown leads
back to it. -/
theorem leadsBack_of_unshared (hm : m ∈ (ofFiles files).allMethods)
    (hnamed : m.owner.binaryName ≠ "")
    (hunshared : ∀ entry ∈ typeEntries files,
      entry.decl.qualifiedName.getD "" = m.owner.displayName →
        entry.decl.binaryName = m.owner.binaryName) :
    (ofFiles files).LeadsBack m.owner := by
  rw [leadsBack_ofFiles]
  cases hfound : ((typeEntries files).filter isQualified).reverse.find?
      (·.decl.qualifiedName.getD "" == m.owner.displayName) with
  | some entry =>
      have hmem := List.mem_of_mem_filter (List.mem_reverse.mp (List.mem_of_find?_eq_some hfound))
      exact hunshared entry hmem (by simpa using List.find?_some hfound)
  | none =>
      -- The owner has no qualified name, or it would have been found by it.
      obtain ⟨owner, howner, hsymbol⟩ := type?_owner hm
      have hqualified : owner.decl.qualifiedName.getD "" = "" := by
        by_contra hnonempty
        have hshown : owner.decl.qualifiedName.getD "" = m.owner.displayName := by
          rw [hsymbol]
          simp [TypeSymbol.displayName, symbolOf, firstNonempty, hnonempty]
        have hmem : owner ∈ ((typeEntries files).filter isQualified).reverse := by
          refine List.mem_reverse.mpr (List.mem_filter.mpr ⟨mem_typeEntries_of_type? howner, ?_⟩)
          simpa [isQualified] using hnonempty
        exact List.find?_eq_none.mp hfound owner hmem (by simp [hshown])
      rw [hsymbol] at hnamed ⊢
      simp only [Option.elim_none]
      have hbinary : owner.decl.binaryName ≠ "" := hnamed
      simp [TypeSymbol.displayName, symbolOf, firstNonempty, hqualified, hbinary]

end CodeIndex

/-! ## Resolving -/

namespace MethodSpec

theorem pick_cases (text : String) (spec : MethodSpec) (candidates : List Method) :
    (∃ m ∈ candidates, spec.accepts m = true ∧ spec.pick text candidates = .ok m) ∨
      spec.pick text candidates = .error (.methodNotFound text) ∨
      ∃ overloads, spec.pick text candidates = .error (.methodAmbiguous text overloads) := by
  unfold pick
  cases haccepted : candidates.filter spec.accepts with
  | nil => exact .inr (.inl rfl)
  | cons m others =>
      cases others with
      | nil =>
          obtain ⟨hm, haccepts⟩ := List.mem_filter.mp (haccepted ▸ List.mem_cons_self)
          exact .inl ⟨m, hm, haccepts, rfl⟩
      | cons other others => exact .inr (.inr ⟨_, rfl⟩)

end MethodSpec

namespace Service

variable {state : ServiceState} {snapshot : Snapshot}

theorem resolve_of_installed (hinstalled : state.index.snapshot = some snapshot) (spec : String) :
    resolve spec state = (MethodSpec.parse spec).bind fun parsed =>
      parsed.pick spec (snapshot.methodsNamed parsed.owner parsed.name) := by
  unfold resolve MethodSpec.resolve
  rw [view_of_installed hinstalled]
  cases MethodSpec.parse spec with
  | error failure => rfl
  | ok parsed =>
      change (run (liftM (parsed.pick spec (snapshot.methodsNamed parsed.owner parsed.name)))
        () state).1 = parsed.pick spec (snapshot.methodsNamed parsed.owner parsed.name)
      cases parsed.pick spec (snapshot.methodsNamed parsed.owner parsed.name) <;> rfl

variable {files : List FileFacts} {scope : Scope} {m : Method}

/-- A spec that leads back to the owner means the lookalikes of the method. -/
theorem filter_methodsNamed (hm : m ∈ (CodeIndex.ofFiles files).allMethods)
    (hlist : m.ListReadsBack) (hback : (CodeIndex.ofFiles files).LeadsBack m.owner) :
    ((Snapshot.ofFiles files scope).methodsNamed m.owner.displayName m.name).filter
        (MethodSpec.accepts ⟨m.owner.displayName, m.name, some m.readParameters⟩) =
      (CodeIndex.ofFiles files).lookalikes m := by
  obtain ⟨entry, hentry, -⟩ := CodeIndex.type?_owner hm
  have hdeclared : (CodeIndex.ofFiles files).types.contains m.owner.binaryName = true := by
    rw [Table.contains_eq_isSome]
    exact Option.isSome_iff_exists.mpr ⟨entry, hentry⟩
  unfold CodeIndex.LeadsBack at hback
  simp only [Snapshot.methodsNamed, Snapshot.ofFiles, hback, hdeclared, if_true,
    List.filter_filter, CodeIndex.lookalikes]
  refine List.filter_congr fun n _ => ?_
  have haccepts : MethodSpec.accepts ⟨m.owner.displayName, m.name, some m.readParameters⟩ n =
      (n.parameters.map TypeText.erase == m.parameters.map TypeText.erase) := by
    rw [← hlist]
    rfl
  rw [haccepts]
  exact Bool.and_comm _ _

/-- A spec that leads elsewhere does not mean the method. -/
theorem not_mem_methodsNamed (hm : m ∈ (CodeIndex.ofFiles files).allMethods)
    (hback : ¬(CodeIndex.ofFiles files).LeadsBack m.owner) :
    m ∉ (Snapshot.ofFiles files scope).methodsNamed m.owner.displayName m.name := by
  obtain ⟨entry, -, howner⟩ := CodeIndex.type?_owner hm
  intro hmem
  simp only [Snapshot.methodsNamed] at hmem
  split at hmem
  · have hdeclared : m ∈ (CodeIndex.ofFiles files).methodsDeclaredBy _ :=
      List.mem_of_mem_filter hmem
    obtain ⟨⟨other, hother, hsame⟩, -⟩ := CodeIndex.owner_of_mem_methodsDeclaredBy hdeclared
    obtain ⟨hbinary, hsymbol⟩ := CodeIndex.symbol_of_type? hother
    have hname : m.owner.binaryName = other.decl.binaryName := by
      rw [hsame, hsymbol]
      rfl
    exact hback (hbinary.symm.trans hname.symm)
  · have hlibrary := List.mem_of_mem_filter hmem
    simp only [Option.mem_toList, Library.methodOf, Option.map_eq_some_iff] at hlibrary
    obtain ⟨interface, -, hlibrary⟩ := hlibrary
    have hexternal : m.owner.isExternal = true := by
      rw [← hlibrary]
      rfl
    rw [howner] at hexternal
    cases hexternal

section Shown

variable (hm : m ∈ (Snapshot.ofFiles files scope).methods) (hplain : m.IsNamedPlainly)
  (hinstalled : state.index.snapshot = some (Snapshot.ofFiles files scope))

include hplain hinstalled

theorem resolve_of_not_spellable (hspells : ¬m.IsSpellable) :
    resolve m.spec state = .error (.malformedSpec m.spec) := by
  rw [resolve_of_installed hinstalled, Method.parse_spec hplain, if_neg hspells]
  rfl

theorem resolve_of_spellable (hspells : m.IsSpellable) :
    resolve m.spec state =
      MethodSpec.pick m.spec ⟨m.owner.displayName, m.name, some m.readParameters⟩
        ((Snapshot.ofFiles files scope).methodsNamed m.owner.displayName m.name) := by
  rw [resolve_of_installed hinstalled, Method.parse_spec hplain, if_pos hspells]
  rfl

include hm

/-- When the spec is read as what it was made of, the lookalikes decide. -/
theorem resolve_of_leadsBack (hspells : m.IsSpellable) (hlist : m.ListReadsBack)
    (hback : (CodeIndex.ofFiles files).LeadsBack m.owner) :
    (CodeIndex.ofFiles files).lookalikes m = [m] ∧ resolve m.spec state = .ok m ∨
    (CodeIndex.ofFiles files).lookalikes m ≠ [m] ∧
      resolve m.spec state = .error (.methodAmbiguous m.spec
        (((CodeIndex.ofFiles files).lookalikes m).map Method.signature)) := by
  have hself := CodeIndex.mem_lookalikes hm
  rw [resolve_of_spellable hplain hinstalled hspells, MethodSpec.pick,
    filter_methodsNamed hm hlist hback]
  cases hlike : (CodeIndex.ofFiles files).lookalikes m with
  | nil =>
      rw [hlike] at hself
      cases hself
  | cons n others =>
      rw [hlike] at hself
      cases others with
      | nil =>
          rw [List.mem_singleton] at hself
          exact .inl ⟨by rw [hself], by rw [hself]⟩
      | cons other others => exact .inr ⟨by simp, rfl⟩

/-- When it is read as something else, it does not mean the method. -/
theorem resolve_of_misread (hspells : m.IsSpellable)
    (hmisread : ¬(m.ListReadsBack ∧ (CodeIndex.ofFiles files).LeadsBack m.owner)) :
    resolve m.spec state ≠ .ok m ∧ resolve m.spec state ≠ .error (.malformedSpec m.spec) := by
  rw [resolve_of_spellable hplain hinstalled hspells]
  rcases MethodSpec.pick_cases m.spec ⟨m.owner.displayName, m.name, some m.readParameters⟩
    ((Snapshot.ofFiles files scope).methodsNamed m.owner.displayName m.name) with
    ⟨n, hn, haccepts, hpicked⟩ | hpicked | ⟨overloads, hpicked⟩
  · have hother : n ≠ m := by
      rintro rfl
      apply hmisread
      constructor
      · exact (beq_iff_eq.mp haccepts).symm
      · by_contra hback
        exact not_mem_methodsNamed hm hback hn
    rw [hpicked]
    simp [hother]
  · rw [hpicked]
    simp
  · rw [hpicked]
    simp

end Shown

/-- A method is found by what is shown of it when a spec can spell that, the list of parameter
types is read back, the shown owner leads back to the owner, and the method has no lookalike.  A
spec is malformed in no other case than the first, and one that is read back is ambiguous
whenever there is a lookalike. -/
theorem resolve_spec (hm : m ∈ (Snapshot.ofFiles files scope).methods) (hplain : m.IsNamedPlainly)
    (hinstalled : state.index.snapshot = some (Snapshot.ofFiles files scope)) :
    (resolve m.spec state = .ok m ↔
      m.IsSpellable ∧ m.ListReadsBack ∧ (CodeIndex.ofFiles files).LeadsBack m.owner ∧
        (CodeIndex.ofFiles files).lookalikes m = [m]) ∧
    (resolve m.spec state = .error (.malformedSpec m.spec) ↔ ¬m.IsSpellable) ∧
    (m.IsSpellable → m.ListReadsBack → (CodeIndex.ofFiles files).LeadsBack m.owner →
      (CodeIndex.ofFiles files).lookalikes m ≠ [m] →
        resolve m.spec state = .error (.methodAmbiguous m.spec
          (((CodeIndex.ofFiles files).lookalikes m).map Method.signature))) := by
  by_cases hspells : m.IsSpellable
  · by_cases hread : m.ListReadsBack ∧ (CodeIndex.ofFiles files).LeadsBack m.owner
    · rcases resolve_of_leadsBack hm hplain hinstalled hspells hread.1 hread.2 with
        ⟨halone, hresolve⟩ | ⟨hlike, hresolve⟩
      · rw [hresolve]
        simp [hspells, hread, halone]
      · rw [hresolve]
        simp [hspells, hread, hlike]
    · obtain ⟨hother, hformed⟩ := resolve_of_misread hm hplain hinstalled hspells hread
      exact ⟨⟨fun hok => absurd hok hother, fun h => absurd ⟨h.2.1, h.2.2.1⟩ hread⟩,
        ⟨fun hmalformed => absurd hmalformed hformed, fun h => absurd hspells h⟩,
        fun _ hlist hback => absurd ⟨hlist, hback⟩ hread⟩
  · rw [resolve_of_not_spellable hplain hinstalled hspells]
    simp [hspells]

end Service

/-! ## Overloads -/

namespace Overloads

open CodeIndex

def files : List FileFacts :=
  [.ofText "A.java"
    ("class A\x7bvoid f(List<A> x)\x7b\x7dvoid f(List<A>[] x)\x7b\x7d" ++
      "void f(List<A> x, int n)\x7b\x7d\x7d") none]

def indexed : ServiceState := ⟨.install (.ofFiles files default), {}⟩

set_option maxRecDepth 100000 in
theorem declared :
    (methodEntries (typesOf files) files).map
        (fun a => (a.1.spec, ((ofFiles files).lookalikes a.1).length)) =
      [("A#f(List<A>)", 2), ("A#f(List<A>[])", 2), ("A#f(List<A>, int)", 1)] ∧
    (∀ a ∈ methodEntries (typesOf files) files,
      a.1.IsNamedPlainly ∧ a.1.IsSpellable ∧ a.1.owner.binaryName = "A" ∧
        ∀ parameter ∈ a.1.parameters, TypeText.IsOneType parameter.toList ∧
          Text.trim Text.isBlank parameter.toList = parameter.toList) ∧
    ((methodEntries (typesOf files) files).Pairwise fun a b => (a.1 == b.1) = false) ∧
    (∀ entry ∈ typeEntries files, entry.decl.binaryName = "A") := by
  simp only [lookalikes_ofFiles]
  rw [methodEntries_typesOf]
  decide +kernel

theorem exists_declared (spec : String) (count : Nat)
    (hshown : (spec, count) ∈
      [("A#f(List<A>)", 2), ("A#f(List<A>[])", 2), ("A#f(List<A>, int)", 1)]) :
    ∃ m ∈ (ofFiles files).allMethods, m.spec = spec ∧ m.IsNamedPlainly ∧ m.IsSpellable ∧
      m.ListReadsBack ∧ (ofFiles files).LeadsBack m.owner ∧
        ((ofFiles files).lookalikes m).length = count := by
  obtain ⟨hshows, hmethods, hapart, htypes⟩ := declared
  rw [← hshows] at hshown
  obtain ⟨a, ha, hpair⟩ := List.mem_map.mp hshown
  obtain ⟨hplain, hspells, hbinary, hparameters⟩ := hmethods a ha
  have hm : a.1 ∈ (ofFiles files).allMethods := by
    rw [allMethods_ofFiles hapart]
    exact List.mem_map_of_mem ha
  have hback : (ofFiles files).LeadsBack a.1.owner := by
    refine leadsBack_of_unshared hm (by rw [hbinary]; decide) fun entry hentry _ => ?_
    rw [htypes entry hentry, hbinary]
  have hlist : a.1.ListReadsBack := congrArg _ (Method.readParameters_eq hparameters)
  cases hpair
  exact ⟨a.1, hm, rfl, hplain, hspells, hlist, hback, rfl⟩

end Overloads

open Overloads in
/-- The second parameter tells the third method from the others. -/
theorem resolve_spec_of_distinct : ∃ m ∈ (Snapshot.ofFiles files default).methods,
    m.spec = "A#f(List<A>, int)" ∧ Service.resolve m.spec indexed = .ok m := by
  obtain ⟨m, hm, hspec, hplain, hspells, hlist, hback, hcount⟩ :=
    exists_declared "A#f(List<A>, int)" 1 (by simp)
  have halone : (CodeIndex.ofFiles files).lookalikes m = [m] := by
    obtain ⟨n, hn⟩ := List.length_eq_one_iff.mp hcount
    have hself := CodeIndex.mem_lookalikes hm
    rw [hn, List.mem_singleton] at hself
    rw [hn, hself]
  have hinstalled : indexed.index.snapshot = some (Snapshot.ofFiles files default) := rfl
  exact ⟨m, hm, hspec, (Service.resolve_spec hm hplain hinstalled).1.mpr
    ⟨hspells, hlist, hback, halone⟩⟩

open Overloads in
/-- A list and an array of lists are the same to a spec, even if the array is asked for. -/
theorem resolve_ambiguous_array : ∃ m ∈ (Snapshot.ofFiles files default).methods,
    m.spec = "A#f(List<A>[])" ∧ ∃ overloads,
      Service.resolve m.spec indexed = .error (.methodAmbiguous m.spec overloads) := by
  obtain ⟨m, hm, hspec, hplain, hspells, hlist, hback, hcount⟩ :=
    exists_declared "A#f(List<A>[])" 2 (by simp)
  have hinstalled : indexed.index.snapshot = some (Snapshot.ofFiles files default) := rfl
  rcases Service.resolve_of_leadsBack hm hplain hinstalled hspells hlist hback with
    ⟨halone, -⟩ | ⟨-, hresolve⟩
  · rw [halone] at hcount
    cases hcount
  · exact ⟨m, hm, hspec, _, hresolve⟩

end EntryPoints
