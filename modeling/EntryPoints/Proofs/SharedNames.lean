import EntryPoints.Index.Resolution
import EntryPoints.Proofs.OverrideRoots
import EntryPoints.Proofs.ProductionIndex

/-!
# Names that mean the same with and without the tests

The index of production code and the index of all files can differ in what a name means:
a test may declare a type that comes before the one that is found without it, or a second
type of a simple name.  Where every name that production code writes means the same in
both, they agree on what a type of production code inherits from, on its members, and on
the roots of its methods.

Types are common to the indexes when the production index knows them and their binary
names are shared.  No step from such a type, to its supertypes or to the owners of its
methods, leads to another sort of type.
-/

namespace EntryPoints

/-- The texts that are read off a type text when array dimensions are taken off or put on. -/
inductive Reading (text : String) : String → Prop where
  | self : Reading text text
  | element {r : String} (h : Reading text r) (harray : TypeText.isArray (TypeText.erase r) = true) :
      Reading text (TypeText.dropRight 2 r)
  | variadic {r : String} (h : Reading text r) (hvarargs : TypeText.isVarargs r = true) :
      Reading text (TypeText.dropRight 3 r)
  | dotless {r : String} (h : Reading text r) :
      Reading text (String.ofList (TypeText.withoutDots r.toList))
  | array {r : String} (h : Reading text r) : Reading text (r ++ "[]")

/-! ## Readings of plain names -/

namespace TypeText

theorem brackets_succ (n : Nat) : brackets (n + 1) = brackets n ++ ['[', ']'] := by
  unfold brackets
  rw [List.replicate_succ', List.flatten_append]
  rfl

theorem withoutDots_of_not_mem {text : List Char} (hdot : '.' ∉ text) : withoutDots text = text := by
  fun_induction withoutDots text with
  | case1 rest ih => simp at hdot
  | case2 c rest hdots ih => rw [ih fun hmem => hdot (List.mem_cons_of_mem c hmem)]
  | case3 => rfl

/-- A text that ends in a bracket is cut neither by trimming nor, without type arguments, by
dropping them. -/
theorem endsWith_base {text : String} {s : List Char} (htext : text.toList = s ++ [']'])
    (hangle : '<' ∉ s) : Text.endsWith "]" (base text) = true := by
  have hwhole : Text.beforeFirst '<' text.toList = s ++ [']'] := by
    unfold Text.beforeFirst
    rw [htext, List.takeWhile_append_of_pos]
    · rfl
    · intro c hc
      exact decide_eq_true fun heq => hangle (heq ▸ hc)
  have hblank : Text.isBlank ']' = false := by decide
  obtain ⟨t, ht⟩ : ∃ t, Text.trimLeft Text.isBlank (s ++ [']']) = t ++ [']'] := by
    clear htext hangle hwhole
    induction s with
    | nil => exact ⟨[], by simp [Text.trimLeft, hblank]⟩
    | cons c s ih =>
        cases hc : Text.isBlank c with
        | true => simpa [Text.trimLeft, hc] using ih
        | false => exact ⟨c :: s, by simp [Text.trimLeft, hc]⟩
  have hright : Text.trimRight Text.isBlank (t ++ [']']) = t ++ [']'] := by
    simp [Text.trimRight, hblank]
  unfold Text.endsWith base baseOf Text.trim
  rw [hwhole, ht, hright, List.isSuffixOf_iff_suffix, String.toList_ofList, String.toList_ofList]
  exact List.suffix_append t [']']

end TypeText

/-- Readings of a plain name add dimensions to it. -/
theorem toList_of_reading {text r : String} (hdot : '.' ∉ text.toList)
    (hplain : TypeText.isArray (TypeText.erase text) = false) (hr : Reading text r) :
    ∃ n, r.toList = text.toList ++ TypeText.brackets n := by
  have hnodot (n : Nat) : '.' ∉ text.toList ++ TypeText.brackets n := by
    have hbrackets : '.' ∉ TypeText.brackets n := by simp [TypeText.brackets]
    simp [hdot, hbrackets]
  induction hr with
  | self => exact ⟨0, by simp [TypeText.brackets]⟩
  | @element r _ harray ih =>
      obtain ⟨n, hn⟩ := ih
      cases n with
      | zero =>
          have hself : r = text := String.toList_inj.mp (by simpa [TypeText.brackets] using hn)
          rw [hself, hplain] at harray
          cases harray
      | succ n =>
          refine ⟨n, ?_⟩
          have hlength : (text.toList ++ TypeText.brackets (n + 1)).length - 2 =
              (text.toList ++ TypeText.brackets n).length := by
            simp [TypeText.brackets_succ, ← Nat.add_assoc]
          rw [TypeText.dropRight, String.toList_ofList, hn, hlength, TypeText.brackets_succ,
            ← List.append_assoc, List.take_left]
  | variadic _ hvarargs ih =>
      -- There are no dots to end in.
      obtain ⟨n, hn⟩ := ih
      have hsuffix := List.isSuffixOf_iff_suffix.mp hvarargs
      rw [hn] at hsuffix
      exact absurd (hsuffix.subset (by decide)) (hnodot n)
  | dotless _ ih =>
      obtain ⟨n, hn⟩ := ih
      refine ⟨n, ?_⟩
      rw [hn, String.toList_ofList, TypeText.withoutDots_of_not_mem (hnodot n)]
  | array _ ih =>
      obtain ⟨n, hn⟩ := ih
      refine ⟨n + 1, ?_⟩
      rw [String.toList_append, hn, TypeText.brackets_succ, List.append_assoc]
      rfl

theorem resolveType_of_brackets (index : CodeIndex) {r : String} {s : List Char}
    (hr : r.toList = s ++ [']']) (hangle : '<' ∉ s) (view : Viewpoint) :
    index.resolveType r view = none := by
  have hnothing : CodeIndex.namesNoType (TypeText.base r) = true := by
    simp [CodeIndex.namesNoType, TypeText.endsWith_base hr hangle]
  unfold CodeIndex.resolveType
  simp [hnothing]

namespace Codebase

variable (code : Codebase)

/-! ## Names that production code writes -/

/-- Nothing, or one type whose binary name is shared, as are those of its bounds. -/
def Same (x y : Option TypeSymbol) : Prop :=
  x = y ∧ ∀ t, y = some t → code.Shares t.binaryName ∧ ∀ b ∈ t.bounds, code.Shares b.binaryName

/-- A type text means the same, seen from `v` in the index of all files and from `w` in the
production index. -/
def SameText (text : String) (v w : Viewpoint) : Prop :=
  ∀ r, Reading text r → code.Same (code.whole.resolveType r v) (code.part.resolveType r w)

/-- A name means the same type.  One that means none may be taken for a type of the library. -/
def SameName (name : String) (v w : Viewpoint) : Prop :=
  code.Same (code.whole.resolveSimple name v) (code.part.resolveSimple name w) ∧
    (code.part.resolveSimple name w = none → code.Shares name)

mutual

/-- What an invocation mentions means the same. -/
def SameCall (v w : Viewpoint) : Invocation → Prop
  | ⟨_, _, _, receiver, _, _, _, types⟩ =>
    (∀ text, some text ∈ types.getD [] → code.SameText text v w) ∧ SameReceiver? v w receiver

def SameReceiver? (v w : Viewpoint) : Option Receiver → Prop
  | none => True
  | some receiver => SameReceiver v w receiver

def SameReceiver (v w : Viewpoint) : Receiver → Prop
  | .typed text | .created text => code.SameText text v w
  | .named name => code.SameName name v w
  | .result call => SameCall v w call
  | .this | .super | .unknown => True

end

def SameTarget (v w : Viewpoint) : TargetHint → Prop
  | .typed text => code.SameText text v w
  | .argument call _ => code.SameCall v w call

/-- The names that production files write mean the same in both indexes. -/
structure NamesAgree : Prop where
  supertypes : ∀ entry ∈ CodeIndex.typeEntries code.production,
    ∀ text ∈ CodeIndex.supertypeTexts entry.decl,
      code.SameText text (CodeIndex.headView entry) (CodeIndex.headView entry)
  fields : ∀ file ∈ code.production, ∀ decl ∈ file.types, ∀ field ∈ decl.fields,
    code.SameText field.2 ⟨file, some decl.binaryName, none⟩ ⟨file, some decl.binaryName, none⟩
  methods : ∀ file ∈ code.production, ∀ decl ∈ file.methods,
    ∀ text ∈ decl.returnType.toList ++ decl.parameters,
      code.SameText text ⟨file, some decl.owner, some decl⟩ ⟨file, some decl.owner, some decl⟩
  calls : ∀ file ∈ code.production, ∀ call ∈ file.invocations,
    code.SameCall (code.whole.viewOf file call.owner call.method)
      (code.part.viewOf file call.owner call.method) call
  uses : ∀ file ∈ code.production, ∀ use ∈ file.functionalUses, ∀ hint ∈ use.target,
    code.SameTarget (code.whole.viewOf file use.owner use.method)
      (code.part.viewOf file use.owner use.method) hint
  /-- The types from which a file imports static members. -/
  holders : ∀ file ∈ code.production, ∀ imported ∈ file.staticImports,
    let name := String.ofList (Text.beforeLast '.' imported.toList)
    code.Same (code.whole.lookupQualified name) (code.part.lookupQualified name)
  /-- The superclass of a class that names none. -/
  object : code.Shares "java.lang.Object"

/-! ## Common types -/

/-- A type of the production index whose binary name is shared, as are those of its bounds. -/
structure Common (t : TypeSymbol) : Prop where
  resolved : code.part.IsResolved t
  shared : code.Shares t.binaryName
  bounds : ∀ b ∈ t.bounds, code.Shares b.binaryName

variable {code}

theorem common_of_isNamed {t : TypeSymbol} (ht : code.part.IsNamed t)
    (hshared : code.Shares t.binaryName) : code.Common t where
  resolved := .inl ht
  shared := hshared
  bounds := by
    intro b hb
    rw [CodeIndex.bounds_eq_nil_of_isNamed ht] at hb
    cases hb

theorem binaryName_symbol {k : String} {entry : TypeEntry}
    (hentry : code.part.type? k = some entry) : entry.symbol.binaryName = k := by
  obtain ⟨hname, hsymbol⟩ := CodeIndex.symbol_of_type? hentry
  rw [hsymbol]
  exact hname

theorem common_symbol {k : String} {entry : TypeEntry} (hentry : code.part.type? k = some entry) :
    code.Common entry.symbol := by
  apply common_of_isNamed (CodeIndex.isNamed_symbol hentry)
  rw [binaryName_symbol hentry]
  exact shares_of_part hentry

theorem common_externalType {name : String} (hname : code.Shares name) :
    code.Common (Library.externalType name) :=
  common_of_isNamed (CodeIndex.isNamed_externalType name) hname

theorem Common.bound {t b : TypeSymbol} (ht : code.Common t) (hb : b ∈ t.bounds) :
    code.Common b := by
  rcases ht.resolved with hnamed | ⟨-, -, -, hbounds⟩
  · rw [CodeIndex.bounds_eq_nil_of_isNamed hnamed] at hb
    cases hb
  · exact common_of_isNamed (hbounds b hb) (ht.bounds b hb)

theorem Same.common {x y : Option TypeSymbol} (h : code.Same x y) {t : TypeSymbol}
    (hresolved : code.part.IsResolved t) (ht : y = some t) : code.Common t :=
  ⟨hresolved, (h.2 t ht).1, (h.2 t ht).2⟩

theorem SameText.eq {text : String} {v w : Viewpoint} (h : code.SameText text v w) :
    code.whole.resolveType text v = code.part.resolveType text w :=
  (h text .self).1

theorem SameText.common {text : String} {v w : Viewpoint} (h : code.SameText text v w)
    {t : TypeSymbol} (ht : code.part.resolveType text w = some t) : code.Common t :=
  (h text .self).common (CodeIndex.isResolved_of_resolveType ht) ht

theorem SameText.reading {text r : String} {v w : Viewpoint} (h : code.SameText text v w)
    (hr : Reading text r) : code.SameText r v w := by
  intro s hs
  apply h
  induction hs with
  | self => exact hr
  | element _ harray ih => exact ih.element harray
  | variadic _ hvarargs ih => exact ih.variadic hvarargs
  | dotless _ ih => exact ih.dotless
  | array _ ih => exact ih.array

/-- A plain name means the same when it does so without dimensions: an array is no type. -/
theorem Same.sameText {text : String} {v w : Viewpoint}
    (h : code.Same (code.whole.resolveType text v) (code.part.resolveType text w))
    (hdot : '.' ∉ text.toList) (hangle : '<' ∉ text.toList)
    (hplain : TypeText.isArray (TypeText.erase text) = false) : code.SameText text v w := by
  intro r hr
  obtain ⟨n, hn⟩ := toList_of_reading hdot hplain hr
  cases n with
  | zero =>
      have hself : r = text := String.toList_inj.mp (by simpa [TypeText.brackets] using hn)
      rw [hself]
      exact h
  | succ n =>
      have hlast : r.toList = (text.toList ++ TypeText.brackets n ++ ['[']) ++ [']'] := by
        simp [hn, TypeText.brackets_succ]
      have hnoangle : '<' ∉ text.toList ++ TypeText.brackets n ++ ['['] := by
        simp [hangle, TypeText.brackets]
      rw [resolveType_of_brackets _ hlast hnoangle, resolveType_of_brackets _ hlast hnoangle]
      exact ⟨rfl, fun t ht => by cases ht⟩

/-! ## What common types inherit from -/

theorem declaredSupertypes_eq (h : code.NamesAgree) {k : String} {entry : TypeEntry}
    (hentry : code.part.type? k = some entry) :
    code.whole.declaredSupertypes entry = code.part.declaredSupertypes entry ∧
      ∀ u ∈ code.part.declaredSupertypes entry, code.Common u := by
  have htexts := h.supertypes entry (CodeIndex.mem_typeEntries_of_type? hentry)
  constructor
  · apply List.filterMap_congr
    intro text htext
    rw [(htexts text htext).eq]
  · intro u hu
    obtain ⟨text, htext, hfound⟩ := List.mem_filterMap.mp hu
    exact (htexts text htext).common (Option.filter_eq_some_iff.mp hfound).1

theorem directSupertypes_eq (h : code.NamesAgree) {t : TypeSymbol} (ht : code.Common t) :
    code.whole.directSupertypes t = code.part.directSupertypes t ∧
      ∀ u ∈ code.part.directSupertypes t, code.Common u := by
  have htype : code.whole.type? t.binaryName = code.part.type? t.binaryName := ht.shared
  unfold CodeIndex.directSupertypes
  rw [htype]
  split
  · exact ⟨rfl, fun u hu => ht.bound hu⟩
  · split
    · exact ⟨rfl, by simp⟩
    · cases hentry : code.part.type? t.binaryName with
      | none => exact ⟨rfl, by simp⟩
      | some entry => exact declaredSupertypes_eq h hentry

theorem mem_allTypes_of_heavy {t : TypeSymbol} (ht : code.Common t)
    (hheavy : t.weight < Walk.load TypeSymbol.weight (code.part.directSupertypes t)) :
    t ∈ code.part.allTypes ∧ t ∈ code.whole.allTypes := by
  -- A type of the library has no supertypes, and a type parameter weighs as much as its bounds.
  have hexternal : t.isExternal = false := by
    cases hlibrary : t.isExternal with
    | false => rfl
    | true =>
        unfold CodeIndex.directSupertypes at hheavy
        split at hheavy
        · rcases ht.resolved with hnamed | ⟨-, hdeclared, -⟩
          · rw [CodeIndex.bounds_eq_nil_of_isNamed hnamed] at hheavy
            cases hheavy
          · rw [hdeclared] at hlibrary
            cases hlibrary
        · exact absurd hheavy (Nat.not_lt_zero _)
  rcases ht.resolved with (⟨name, rfl⟩ | ⟨k, entry, hentry, rfl⟩) | ⟨hparameter, -⟩
  · cases hexternal
  · exact ⟨CodeIndex.symbol_mem_allTypes hentry,
      CodeIndex.symbol_mem_allTypes (whole_type?_of_part hentry)⟩
  · have hweight : t.weight = Walk.load TypeSymbol.weight t.bounds := by
      rw [TypeSymbol.load_eq_weightAll]
      cases t
      rw [TypeSymbol.weight, if_pos (beq_iff_eq.mp hparameter)]
    unfold CodeIndex.directSupertypes at hheavy
    rw [if_pos hparameter, hweight] at hheavy
    exact absurd hheavy (Nat.lt_irrefl _)

theorem length_remaining_allTypes_le (index : CodeIndex) (seen : List String) (spare : Nat) :
    (Walk.remaining (index.allTypes.map (·.id)) seen).length ≤ index.types.size + spare + 1 := by
  have hvalues : index.types.values.length ≤ index.types.size := List.length_filterMap_le _ _
  have hall := List.length_filter_le (fun k => !seen.contains k) (index.allTypes.map (·.id))
  simp only [CodeIndex.allTypes, List.length_map] at hall
  exact Nat.le_trans hall (by omega)

theorem ancestors_eq (h : code.NamesAgree) {t : TypeSymbol} (ht : code.Common t) :
    code.whole.ancestors t = code.part.ancestors t := by
  have hclosed : ∀ a, code.Common a → ∀ u ∈ code.part.directSupertypes a, code.Common u :=
    fun a ha => (directSupertypes_eq h ha).2
  have hother : ∀ a, code.Common a → code.whole.directSupertypes a = code.part.directSupertypes a :=
    fun a ha => (directSupertypes_eq h ha).1
  have hheavy : ∀ a, code.Common a →
      a.weight < Walk.load TypeSymbol.weight (code.part.directSupertypes a) →
        (code.part.allTypes.map (·.id)).contains a.id = true ∧
          (code.whole.allTypes.map (·.id)).contains a.id = true := by
    intro a ha hweight
    obtain ⟨hpart, hwhole⟩ := mem_allTypes_of_heavy ha hweight
    rw [List.contains_iff_mem, List.contains_iff_mem]
    exact ⟨List.mem_map_of_mem hpart, List.mem_map_of_mem hwhole⟩
  exact Walk.visit_eq_of_budgets hclosed hother hheavy _ _ [t] [] (by simpa using ht)
    (length_remaining_allTypes_le _ _ _) (length_remaining_allTypes_le _ _ _)

theorem common_of_mem_ancestors (h : code.NamesAgree) {t u : TypeSymbol} (ht : code.Common t)
    (hu : u ∈ code.part.ancestors t) : code.Common u := by
  apply Walk.known_of_mem_visit (fun a ha => (directSupertypes_eq h ha).2) ?_ u hu
  simpa using ht

theorem isSubtypeOrSelf_eq (h : code.NamesAgree) {sub : TypeSymbol} (hsub : code.Common sub)
    (sup : TypeSymbol) :
    code.whole.isSubtypeOrSelf sub sup = code.part.isSubtypeOrSelf sub sup := by
  unfold CodeIndex.isSubtypeOrSelf
  rw [ancestors_eq h hsub]

/-! ## Members -/

/-- A method of the production index or of the library, in a common type. -/
structure CommonMethod (code : Codebase) (m : Method) : Prop where
  owner : code.Common m.owner
  known : code.part.IsKnown m

theorem declaredMethods_eq {t : TypeSymbol} (ht : code.Common t) :
    code.whole.declaredMethods t = code.part.declaredMethods t ∧
      ∀ m ∈ code.part.declaredMethods t, code.CommonMethod m := by
  constructor
  · unfold CodeIndex.declaredMethods
    rw [methodsDeclaredBy_eq ht.shared]
  · intro m hm
    have hknown := (CodeIndex.owner_of_mem_declaredMethods ht.resolved hm).2
    refine ⟨?_, hknown⟩
    unfold CodeIndex.declaredMethods at hm
    split at hm
    · obtain ⟨found, -, rfl⟩ := Option.map_eq_some_iff.mp (Option.mem_toList.mp hm)
      exact ht
    · obtain ⟨⟨entry, hentry, howner⟩, -⟩ := CodeIndex.owner_of_mem_methodsDeclaredBy hm
      rw [howner]
      exact common_symbol hentry

theorem of_entryOf {m : Method} {entry : MethodEntry} (hentry : code.part.entryOf m = some entry) :
    entry.file ∈ code.production ∧ entry.decl ∈ entry.file.methods ∧
      entry.decl.parameters = m.parameters ∧ entry.decl.returnType = m.returnType := by
  unfold part at hentry
  rw [entryOf_ofFiles] at hentry
  obtain ⟨⟨n, found⟩, hfound, rfl⟩ := Option.map_eq_some_iff.mp hentry
  have hbeq : (n == m) = true := by simpa using List.find?_some hfound
  have hsame := Method.beq_iff.mp hbeq
  have hmem := List.mem_reverse.mp (List.mem_of_find?_eq_some hfound)
  obtain ⟨owner, -, hn⟩ := CodeIndex.mem_methodEntries hmem
  obtain ⟨hfile, hdecl⟩ := CodeIndex.file_of_mem_methodEntries hmem
  simp only [Method.identity, Prod.mk.injEq] at hsame
  rw [← hsame.2.2.1, ← hsame.2.2.2.1, hn]
  exact ⟨hfile, hdecl, rfl, rfl⟩

theorem declares_owner {file : FileFacts} {decl : MethodDecl} (hfile : file ∈ code.production)
    (hdecl : decl ∈ file.methods) : code.Declares (some decl.owner) := by
  intro name hname
  cases hname
  exact ⟨file, hfile, ((isSelfContained (mem_production.mp hfile).1).methods _ hdecl).2⟩

theorem isTypeVariable_eq {m : Method} (hm : code.Common m.owner) (text : String) :
    code.whole.isTypeVariable text m = code.part.isTypeVariable text m := by
  unfold CodeIndex.isTypeVariable
  simp only
  rw [entryOf_eq hm.shared]
  cases hentry : code.part.entryOf m with
  | none => rfl
  | some entry =>
      obtain ⟨hfile, hdecl, -⟩ := of_entryOf hentry
      simp only
      rw [ownersFrom_eq (declares_owner hfile hdecl)]

theorem overrides_eq {inherited : Method} (hinherited : code.Common inherited.owner) (m : Method) :
    code.whole.overrides m inherited = code.part.overrides m inherited := by
  unfold CodeIndex.overrides
  simp only [isTypeVariable_eq hinherited]

theorem addDeclared_eq {t : TypeSymbol} (ht : code.Common t) (name : String) (count : Option Nat)
    (candidates : List Method) :
    code.whole.addDeclared name count candidates t =
      code.part.addDeclared name count candidates t := by
  obtain ⟨hdeclared, hcommon⟩ := declaredMethods_eq ht
  unfold CodeIndex.addDeclared
  rw [hdeclared]
  apply List.foldl_ext
  intro found m hm
  have howner := (hcommon m (List.mem_filter.mp hm).1).owner
  have hhidden : code.whole.isHidden t m found = code.part.isHidden t m found := by
    unfold CodeIndex.isHidden
    simp only [overrides_eq howner]
  rw [hhidden]

theorem members_eq (h : code.NamesAgree) {t : TypeSymbol} (ht : code.Common t) (name : String)
    (count : Option Nat) :
    code.whole.members t name count = code.part.members t name count ∧
      ∀ m ∈ code.part.members t name count, code.CommonMethod m := by
  constructor
  · unfold CodeIndex.members
    rw [ancestors_eq h ht]
    apply List.foldl_ext
    intro candidates u hu
    exact addDeclared_eq (common_of_mem_ancestors h ht hu) name count candidates
  · intro m hm
    obtain ⟨u, hu, hdeclared, -⟩ := CodeIndex.mem_members hm
    exact (declaredMethods_eq (common_of_mem_ancestors h ht hu)).2 m hdeclared

theorem constructors_eq {t : TypeSymbol} (ht : code.Common t) (count : Option Nat) :
    code.whole.constructors t count = code.part.constructors t count ∧
      ∀ m ∈ code.part.constructors t count, code.CommonMethod m := by
  unfold CodeIndex.constructors
  rw [methodsDeclaredBy_eq ht.shared]
  refine ⟨rfl, fun m hm => ?_⟩
  obtain ⟨⟨entry, hentry, howner⟩, hindexed⟩ :=
    CodeIndex.owner_of_mem_methodsDeclaredBy (List.mem_filter.mp hm).1
  refine ⟨?_, ?_, .inr hindexed⟩
  · rw [howner]
    exact common_symbol hentry
  · rw [howner]
    exact CodeIndex.isNamed_symbol hentry

/-! ## Roots -/

theorem overriddenBy_eq (h : code.NamesAgree) {m : Method} (hm : code.Common m.owner) :
    code.whole.overriddenBy m = code.part.overriddenBy m ∧
      ∀ above ∈ code.part.overriddenBy m, code.CommonMethod above := by
  obtain ⟨hsupertypes, hcommon⟩ := directSupertypes_eq h hm
  constructor
  · have hfound : ((code.whole.directSupertypes m.owner).flatMap fun t =>
          (code.whole.members t m.name (some m.arity)).filter fun above =>
            !above.isStatic && code.whole.overrides m above) =
        (code.part.directSupertypes m.owner).flatMap fun t =>
          (code.part.members t m.name (some m.arity)).filter fun above =>
            !above.isStatic && code.part.overrides m above := by
      rw [hsupertypes]
      apply List.flatMap_congr
      intro t ht
      obtain ⟨hmembers, hmethods⟩ := members_eq h (hcommon t ht) m.name (some m.arity)
      rw [hmembers]
      apply List.filter_congr
      intro above habove
      rw [overrides_eq (hmethods above habove).owner]
    unfold CodeIndex.overriddenBy
    rw [hfound]
  · intro above habove
    obtain ⟨-, t, ht, hmember⟩ := CodeIndex.exists_member_of_mem_overriddenBy habove
    exact (members_eq h (hcommon t ht) m.name (some m.arity)).2 above hmember

/-- A method that overrides another one is declared. -/
theorem contains_keys_of_heavy {m : Method} (hm : code.CommonMethod m)
    (hheavy : 0 < Walk.load (fun _ => 0) (code.part.overriddenBy m)) :
    code.part.methods.keys.contains m = true ∧ code.whole.methods.keys.contains m = true := by
  rcases hm.known.2 with hexternal | hindexed
  · rw [part, CodeIndex.overriddenBy_eq_nil_of_isExternal hm.known hexternal] at hheavy
    cases hheavy
  · refine ⟨hindexed, ?_⟩
    have hentry : code.whole.entryOf m = code.part.entryOf m := entryOf_eq hm.owner.shared
    have hpart := Table.contains_keys_ofList
      (CodeIndex.methodEntries (CodeIndex.typesOf code.production) code.production) m
    have hwhole := Table.contains_keys_ofList
      (CodeIndex.methodEntries (CodeIndex.typesOf code.files) code.files) m
    rw [Table.contains_eq_isSome] at hpart hwhole
    exact hwhole.trans ((congrArg Option.isSome hentry).trans (hpart.symm.trans hindexed))

theorem roots_eq (h : code.NamesAgree) {m : Method} (hm : code.CommonMethod m) :
    code.whole.roots m = code.part.roots m ∧
      ∀ root ∈ code.part.roots m, code.CommonMethod root := by
  obtain ⟨hdirect, hcommon⟩ := overriddenBy_eq h hm.owner
  have hbudget (index : CodeIndex) :
      (Walk.remaining index.methods.keys [m]).length ≤ index.methods.size + 1 :=
    Nat.le_succ_of_le (List.length_filter_le _ _)
  have hvisit : Walk.visit (fun above : Method => above) code.whole.overriddenBy (fun _ => 0)
        (code.whole.methods.size + 1) (code.part.overriddenBy m) [m] =
      Walk.visit (fun above : Method => above) code.part.overriddenBy (fun _ => 0)
        (code.part.methods.size + 1) (code.part.overriddenBy m) [m] :=
    Walk.visit_eq_of_budgets (fun a (ha : code.CommonMethod a) => (overriddenBy_eq h ha.owner).2)
      (fun a ha => (overriddenBy_eq h ha.owner).1) (fun a ha => contains_keys_of_heavy ha) _ _ _ _
      hcommon (hbudget _) (hbudget _)
  have hreached : ∀ above ∈ Walk.visit (fun above : Method => above) code.part.overriddenBy
      (fun _ => 0) (code.part.methods.size + 1) (code.part.overriddenBy m) [m],
      code.CommonMethod above :=
    Walk.known_of_mem_visit (fun a ha => (overriddenBy_eq h ha.owner).2) hcommon
  unfold CodeIndex.roots
  split
  · exact ⟨rfl, by simp⟩
  · rw [hdirect, hvisit]
    constructor
    · apply List.filter_congr
      intro above habove
      rw [(overriddenBy_eq h (hreached above habove).owner).1]
    · intro root hroot
      exact hreached root (List.mem_filter.mp hroot).1

end Codebase

end EntryPoints
