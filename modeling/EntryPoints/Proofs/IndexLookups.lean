import EntryPoints.Index.Members
import Mathlib.Data.List.Induction

/-!
# Look-ups in an index of files

The tables of an index are read here as the lists that they were made of: the last
declaration of a name counts, and the methods of a type are those that name it as
their owner.

From this it follows which types a name can resolve to.  They are declared types,
each found under its own binary name, types of the library, or type parameters,
whose bounds are of the first two sorts.
-/

namespace EntryPoints

/-! ## Tables -/

section Tables

variable {κ α : Type} [BEq κ] [Hashable κ]

theorem Table.size_eq_length_keys (table : Table κ α) : table.size = table.keys.length := by
  unfold size keys
  rw [Array.length_toList]

theorem Table.ofList_concat (entries : List (κ × α)) (entry : κ × α) :
    Table.ofList (entries ++ [entry]) = (Table.ofList entries).insert entry.1 entry.2 := by
  rw [ofList, List.foldl_append]
  rfl

theorem Table.mem_of_mem_keys_ofList {entries : List (κ × α)} {k : κ}
    (hk : k ∈ (Table.ofList entries).keys) : k ∈ entries.map (·.1) := by
  induction entries using List.reverseRecOn with
  | nil => simp [ofList] at hk
  | append_singleton entries entry ih =>
      rw [ofList_concat, keys_insert] at hk
      rw [List.map_append, List.mem_append]
      split at hk
      next => exact .inl (ih hk)
      next =>
        rcases List.mem_append.mp hk with hk | hk
        · exact .inl (ih hk)
        · exact .inr hk

variable [EquivBEq κ] [LawfulHashable κ]

theorem Table.get?_ofList (entries : List (κ × α)) (k : κ) :
    (Table.ofList entries).get? k = (entries.reverse.find? (·.1 == k)).map (·.2) := by
  induction entries using List.reverseRecOn with
  | nil => simp [ofList]
  | append_singleton entries entry ih =>
      rw [ofList_concat, get?_insert, ih, List.reverse_concat, List.find?_cons]
      cases entry.1 == k with
      | true => rfl
      | false => rfl

theorem Table.contains_insert (t : Table κ α) (j k : κ) (a : α) :
    (t.insert j a).contains k = (j == k || t.contains k) := by
  simp only [contains, insert, Std.HashMap.contains_insert]

theorem Table.contains_keys_ofList (entries : List (κ × α)) (k : κ) :
    (Table.ofList entries).keys.contains k = (Table.ofList entries).contains k := by
  induction entries using List.reverseRecOn with
  | nil => simp [ofList, contains, empty, keys]
  | append_singleton entries entry ih =>
      rw [ofList_concat, keys_insert, contains_insert]
      split
      next hold =>
        rw [ih]
        cases hkey : entry.1 == k with
        | false => rfl
        | true =>
            rw [contains, Std.HashMap.contains_congr (BEq.symm hkey)]
            simpa [contains] using hold
      next =>
        rw [List.contains_append, ih, Bool.or_comm]
        simp [BEq.comm]

theorem Table.keys_ofList {entries : List (κ × α)}
    (hentries : entries.Pairwise fun a b => (a.1 == b.1) = false) :
    (Table.ofList entries).keys = entries.map (·.1) := by
  induction entries using List.reverseRecOn with
  | nil => rfl
  | append_singleton entries entry ih =>
      obtain ⟨hinit, -, hlast⟩ := List.pairwise_append.mp hentries
      have hnew : (Table.ofList entries).contains entry.1 = false := by
        rw [← Table.contains_keys_ofList, ih hinit, ← Bool.not_eq_true,
          List.contains_iff_exists_mem_beq]
        rintro ⟨k, hk, hsame⟩
        obtain ⟨other, hother, rfl⟩ := List.mem_map.mp hk
        have hdifferent := hlast other hother entry (List.mem_singleton_self entry)
        rw [BEq.comm, hsame] at hdifferent
        cases hdifferent
      rw [ofList_concat, keys_insert, if_neg (by rw [hnew]; exact Bool.false_ne_true),
        ih hinit, List.map_append]
      rfl

end Tables

theorem getElem?_ofList {α : Type} (entries : List (String × α)) (k : String) :
    (Std.HashMap.ofList entries)[k]? = (entries.reverse.find? (·.1 == k)).map (·.2) := by
  rw [Std.HashMap.ofList_eq_insertMany_empty, Std.HashMap.getElem?_insertMany_list,
    List.findSomeRev?_eq_findSome?_reverse, Std.HashMap.getElem?_empty, Option.or_none]
  induction entries.reverse with
  | nil => rfl
  | cons entry entries ih =>
      rw [List.findSome?_cons, List.find?_cons, ih]
      by_cases hkey : (entry.1 == k) = true <;> simp [hkey]

/-! ## Declarations -/

namespace CodeIndex

variable (files : List FileFacts)

theorem type?_ofFiles (k : String) :
    (ofFiles files).type? k = (typeEntries files).reverse.find? (·.decl.binaryName == k) := by
  change (typesOf files).get? k = _
  unfold typesOf
  rw [Table.get?_ofList, ← List.map_reverse, List.find?_map, Option.map_map]
  simp [Function.comp_def]

theorem methodsDeclaredBy_ofFiles (k : String) :
    (ofFiles files).methodsDeclaredBy k =
      ((methodEntries (typesOf files) files).filter (·.2.decl.owner == k)).map (·.1) := by
  unfold methodsDeclaredBy ofFiles
  rw [← groupBy_getD, Std.HashMap.getD_map, Std.HashMap.getD_eq_getD_getElem?]
  cases (groupBy (fun e : Method × MethodEntry => e.2.decl.owner)
    (methodEntries (typesOf files) files))[k]? <;> rfl

theorem methodsOfFile_ofFiles (file : String) :
    (ofFiles files).methodsOfFile file =
      ((methodEntries (typesOf files) files).filter (·.2.file.file == file)).map (·.1) := by
  unfold methodsOfFile ofFiles
  rw [← groupBy_getD, Std.HashMap.getD_map, Std.HashMap.getD_eq_getD_getElem?]
  cases (groupBy (fun e : Method × MethodEntry => e.2.file.file)
    (methodEntries (typesOf files) files))[file]? <;> rfl

theorem qualified_ofFiles (name : String) :
    (ofFiles files).qualified[name]? =
      (((typeEntries files).filter isQualified).reverse.find?
        (·.decl.qualifiedName.getD "" == name)).map (·.decl.binaryName) := by
  change (Std.HashMap.ofList (((typeEntries files).filter isQualified).map fun entry =>
    (entry.decl.qualifiedName.getD "", entry.decl.binaryName)))[name]? = _
  rw [getElem?_ofList, ← List.map_reverse, List.find?_map, Option.map_map]
  rfl

theorem qualified?_ofFiles (name : String) :
    (ofFiles files).qualified? name =
      (((typeEntries files).filter isQualified).reverse.find?
        (·.decl.qualifiedName.getD "" == name)).bind fun entry =>
          (ofFiles files).type? entry.decl.binaryName := by
  rw [qualified?, qualified_ofFiles, Option.bind_map]
  rfl

theorem simple_ofFiles (name : String) :
    (ofFiles files).simple.getD name [] =
      (((typeEntries files).filter isNamed).filter (·.decl.name == name)).map
        (·.decl.binaryName) := by
  unfold ofFiles
  rw [← groupBy_getD, Std.HashMap.getD_map, Std.HashMap.getD_eq_getD_getElem?]
  cases (groupBy (fun e : TypeEntry => e.decl.name) ((typeEntries files).filter isNamed))[name]? <;>
    rfl

theorem declarations_ofFiles (id : String) :
    (ofFiles files).declarations[id]? =
      ((methodEntries (typesOf files) files).reverse.find? (·.2.decl.id == id)).map
        (·.2.decl) := by
  change (Std.HashMap.ofList ((methodEntries (typesOf files) files).map fun e =>
    (e.2.decl.id, e.2.decl)))[id]? = _
  rw [getElem?_ofList, ← List.map_reverse, List.find?_map, Option.map_map]
  rfl

variable {files}

theorem mem_typeEntries {entry : TypeEntry} :
    entry ∈ typeEntries files ↔
      entry.file ∈ files ∧ entry.decl ∈ entry.file.types ∧ entry.symbol = symbolOf entry.decl := by
  rw [typeEntries, List.mem_flatMap]
  constructor
  · intro h
    obtain ⟨file, hfile, hentry⟩ := h
    obtain ⟨decl, hdecl, rfl⟩ := List.mem_map.mp hentry
    exact ⟨hfile, hdecl, rfl⟩
  · intro h
    refine ⟨entry.file, h.1, List.mem_map.mpr ⟨entry.decl, h.2.1, ?_⟩⟩
    rw [← h.2.2]

theorem mem_typeEntries_of_type? {k : String} {entry : TypeEntry}
    (hentry : (ofFiles files).type? k = some entry) : entry ∈ typeEntries files := by
  rw [type?_ofFiles] at hentry
  exact List.mem_reverse.mp (List.mem_of_find?_eq_some hentry)

/-- A declared type is found under its own binary name. -/
theorem symbol_of_type? {k : String} {entry : TypeEntry}
    (hentry : (ofFiles files).type? k = some entry) :
    entry.decl.binaryName = k ∧ entry.symbol = symbolOf entry.decl := by
  have hmem := mem_typeEntries_of_type? hentry
  rw [type?_ofFiles] at hentry
  exact ⟨by simpa using List.find?_some hentry, (mem_typeEntries.mp hmem).2.2⟩

theorem mem_methodEntries {types : Table String TypeEntry} {m : Method} {entry : MethodEntry}
    (hm : (m, entry) ∈ methodEntries types files) :
    ∃ owner, types.get? entry.decl.owner = some owner ∧ m = methodOf owner.symbol entry.decl := by
  obtain ⟨file, -, hm⟩ := List.mem_flatMap.mp hm
  obtain ⟨decl, -, hdecl⟩ := List.mem_filterMap.mp hm
  obtain ⟨owner, howner, hpair⟩ := Option.map_eq_some_iff.mp hdecl
  cases hpair
  exact ⟨owner, howner, rfl⟩

theorem file_of_mem_methodEntries {types : Table String TypeEntry} {m : Method}
    {entry : MethodEntry} (hm : (m, entry) ∈ methodEntries types files) :
    entry.file ∈ files ∧ entry.decl ∈ entry.file.methods := by
  obtain ⟨file, hfile, hm⟩ := List.mem_flatMap.mp hm
  obtain ⟨decl, hdecl, hm⟩ := List.mem_filterMap.mp hm
  obtain ⟨owner, -, hpair⟩ := Option.map_eq_some_iff.mp hm
  cases hpair
  exact ⟨hfile, hdecl⟩

theorem owner_of_mem_methodsDeclaredBy {k : String} {m : Method}
    (hm : m ∈ (ofFiles files).methodsDeclaredBy k) :
    (∃ entry, (ofFiles files).type? k = some entry ∧ m.owner = entry.symbol) ∧
      (ofFiles files).methods.keys.contains m = true := by
  rw [methodsDeclaredBy_ofFiles] at hm
  obtain ⟨⟨n, entry⟩, hentry, rfl⟩ := List.mem_map.mp hm
  obtain ⟨hentry, howner⟩ := List.mem_filter.mp hentry
  rw [beq_iff_eq] at howner
  constructor
  · obtain ⟨owner, hfound, rfl⟩ := mem_methodEntries hentry
    rw [howner] at hfound
    exact ⟨owner, hfound, rfl⟩
  · change (Table.ofList (methodEntries (typesOf files) files)).keys.contains n = true
    rw [Table.contains_keys_ofList, Table.contains_eq_isSome, Table.get?_ofList,
      Option.isSome_map, List.find?_isSome]
    exact ⟨(n, entry), List.mem_reverse.mpr hentry, BEq.rfl⟩

theorem owner_of_mem_allMethods {m : Method} (hm : m ∈ (ofFiles files).allMethods) :
    ∃ k entry, (ofFiles files).type? k = some entry ∧ m.owner = entry.symbol := by
  obtain ⟨⟨n, entry⟩, hentry, rfl⟩ := List.mem_map.mp (Table.mem_of_mem_keys_ofList hm)
  obtain ⟨owner, hfound, rfl⟩ := mem_methodEntries hentry
  exact ⟨_, owner, hfound, rfl⟩

theorem exists_type?_of_mem_allTypes {t : TypeSymbol} (ht : t ∈ (ofFiles files).allTypes) :
    ∃ k entry, (ofFiles files).type? k = some entry ∧ t = entry.symbol := by
  obtain ⟨entry, hentry, rfl⟩ := List.mem_map.mp ht
  obtain ⟨k, -, hk⟩ := List.mem_filterMap.mp hentry
  exact ⟨k, entry, hk, rfl⟩

theorem mem_keys_of_type? {k : String} {entry : TypeEntry}
    (hentry : (ofFiles files).type? k = some entry) : k ∈ (ofFiles files).types.keys := by
  have hkey : (typesOf files).keys.contains k = true := by
    unfold typesOf
    rw [Table.contains_keys_ofList, Table.contains_eq_isSome]
    exact Option.isSome_iff_exists.mpr ⟨entry, hentry⟩
  exact List.contains_iff_mem.mp hkey

theorem symbol_mem_allTypes {k : String} {entry : TypeEntry}
    (hentry : (ofFiles files).type? k = some entry) :
    entry.symbol ∈ (ofFiles files).allTypes :=
  List.mem_map.mpr
    ⟨entry, List.mem_filterMap.mpr ⟨k, mem_keys_of_type? hentry, hentry⟩, rfl⟩

/-! ## What names resolve to -/

variable (index : CodeIndex)

/-- A type that a plain name may resolve to: a declared one or one of the library. -/
def IsNamed (t : TypeSymbol) : Prop :=
  (∃ name, t = Library.externalType name) ∨ ∃ k entry, index.type? k = some entry ∧
    t = entry.symbol

/-- A type that a text may resolve to: a named one, or a type parameter with named bounds. -/
def IsResolved (t : TypeSymbol) : Prop :=
  index.IsNamed t ∨
    t.isTypeParameter = true ∧ t.isExternal = false ∧ t.binaryName ≠ "" ∧
      ∀ bound ∈ t.bounds, index.IsNamed bound

variable {index}

theorem isNamed_symbol {k : String} {entry : TypeEntry} (hentry : index.type? k = some entry) :
    index.IsNamed entry.symbol :=
  .inr ⟨k, entry, hentry, rfl⟩

theorem isNamed_externalType (name : String) : index.IsNamed (Library.externalType name) :=
  .inl ⟨name, rfl⟩

theorem isNamed_of_qualified? {name : String} {entry : TypeEntry}
    (hentry : index.qualified? name = some entry) : index.IsNamed entry.symbol := by
  obtain ⟨k, -, hk⟩ := Option.bind_eq_some_iff.mp hentry
  exact isNamed_symbol hk

theorem isNamed_lookupQualified (name : String) : index.IsNamed (index.lookupQualified name) := by
  unfold lookupQualified
  split
  next entry hentry => exact isNamed_of_qualified? hentry
  next => exact isNamed_externalType name

theorem exists_type?_of_mem_outward {steps : Nat} {owner : Option String} {entry : TypeEntry}
    (hentry : entry ∈ index.outward steps owner) : ∃ k, index.type? k = some entry := by
  fun_induction index.outward steps owner with
  | case1 => cases hentry
  | case2 => cases hentry
  | case3 => cases hentry
  | case4 => cases hentry
  | case5 steps owner hname found hfound ih =>
      rcases List.mem_cons.mp hentry with rfl | hentry
      · exact ⟨owner, hfound⟩
      · exact ih hentry

theorem isNamed_of_seenFrom {name : String} {owner : TypeEntry} {t : TypeSymbol}
    (howner : ∃ k, index.type? k = some owner) (ht : index.seenFrom name owner = some t) :
    index.IsNamed t := by
  unfold seenFrom at ht
  split at ht
  next nested hnested =>
    cases ht
    exact isNamed_symbol hnested
  next =>
    obtain ⟨k, hk⟩ := howner
    split at ht
    · cases ht
      exact isNamed_symbol hk
    · cases ht

theorem isNamed_of_wildcardImport {name package : String} {t : TypeSymbol}
    (ht : index.wildcardImport name package = some t) : index.IsNamed t := by
  unfold wildcardImport at ht
  simp only at ht
  split at ht
  next entry hentry =>
    cases ht
    exact isNamed_of_qualified? hentry
  next =>
    split at ht
    · cases ht
      exact isNamed_externalType _
    · cases ht

theorem isNamed_of_seenInFile {name : String} {file : FileFacts} {t : TypeSymbol}
    (ht : index.seenInFile name file = some t) : index.IsNamed t := by
  unfold seenInFile at ht
  split at ht
  next imported _ =>
    cases ht
    exact isNamed_lookupQualified imported
  next =>
    simp only at ht
    split at ht
    next entry hentry =>
      cases ht
      exact isNamed_of_qualified? hentry
    next =>
      obtain ⟨package, -, hpackage⟩ := List.exists_of_findSome?_eq_some ht
      exact isNamed_of_wildcardImport hpackage

theorem isNamed_of_onlyNamed {name : String} {t : TypeSymbol}
    (ht : index.onlyNamed name = some t) : index.IsNamed t := by
  unfold onlyNamed at ht
  split at ht
  next binaryName _ =>
    obtain ⟨entry, hentry, rfl⟩ := Option.map_eq_some_iff.mp ht
    exact isNamed_symbol hentry
  next => cases ht

theorem isNamed_of_resolveSimple {name : String} {view : Viewpoint} {t : TypeSymbol}
    (ht : index.resolveSimple name view = some t) : index.IsNamed t := by
  unfold resolveSimple at ht
  simp only [Option.orElse_eq_orElse, Option.orElse_eq_or, Option.or_eq_some_iff] at ht
  rcases ht with ht | ⟨-, ht | ⟨-, ht⟩⟩
  · obtain ⟨owner, howner, hseen⟩ := List.exists_of_findSome?_eq_some ht
    exact isNamed_of_seenFrom (exists_type?_of_mem_outward howner) hseen
  · exact isNamed_of_seenInFile ht
  · split at ht
    · cases ht
      exact isNamed_externalType _
    · exact isNamed_of_onlyNamed ht

theorem isNamed_of_resolveNested {resolved t : TypeSymbol} {rest : String}
    (hresolved : index.IsNamed resolved) (ht : index.resolveNested resolved rest = some t) :
    index.IsNamed t := by
  unfold resolveNested at ht
  split at ht
  · cases ht
    exact hresolved
  · simp only at ht
    split at ht
    next nested hnested =>
      cases ht
      exact isNamed_symbol hnested
    next =>
      split at ht
      · cases ht
        exact isNamed_externalType _
      · cases ht

theorem isNamed_resolveName (base : String) (view : Viewpoint) :
    index.IsNamed (index.resolveName base view) := by
  unfold resolveName
  split
  next entry hentry => exact isNamed_of_qualified? hentry
  next =>
    simp only
    cases hnested : (index.resolveSimple _ view).bind fun resolved =>
        index.resolveNested resolved (String.ofList (Text.cutFirst '.' base.toList).2) with
    | none => exact isNamed_externalType base
    | some t =>
        obtain ⟨resolved, hresolved, ht⟩ := Option.bind_eq_some_iff.mp hnested
        exact isNamed_of_resolveNested (isNamed_of_resolveSimple hresolved) ht

theorem isNamed_of_resolveBound {text : String} {view : Viewpoint} {t : TypeSymbol}
    (ht : index.resolveBound text view = some t) : index.IsNamed t := by
  unfold resolveBound at ht
  simp only at ht
  split at ht
  · cases ht
  · cases ht
    exact isNamed_resolveName _ view

theorem isResolved_of_typeParameter {name : String} {view : Viewpoint} {t : TypeSymbol}
    (ht : index.typeParameter name view = some t) : index.IsResolved t := by
  unfold typeParameter at ht
  obtain ⟨⟨scope, parameters⟩, -, hscope⟩ := List.exists_of_findSome?_eq_some ht
  obtain ⟨bounds, -, rfl⟩ := Option.map_eq_some_iff.mp hscope
  refine .inr ⟨rfl, rfl, ?_, ?_⟩
  · simp
  · intro bound hbound
    obtain ⟨text, -, htext⟩ := List.mem_filterMap.mp hbound
    exact isNamed_of_resolveBound htext

theorem isResolved_of_resolveType {text : String} {view : Viewpoint} {t : TypeSymbol}
    (ht : index.resolveType text view = some t) : index.IsResolved t := by
  unfold resolveType at ht
  simp only at ht
  split at ht
  · cases ht
  · simp only [Option.orElse_eq_orElse, Option.orElse_eq_or, Option.or_eq_some_iff] at ht
    rcases ht with ht | ⟨-, ht⟩
    · split at ht
      · exact isResolved_of_typeParameter ht
      · cases ht
    · cases ht
      exact .inl (isNamed_resolveName _ view)

theorem typeParameter_eq_none {index : CodeIndex} {view : Viewpoint}
    (hplain : ∀ k entry, index.type? k = some entry → entry.decl.typeParameters = [])
    (hmethod : ∀ decl, view.method = some decl → decl.typeParameters = []) (name : String) :
    index.typeParameter name view = none := by
  unfold typeParameter parameterScopes
  rw [List.findSome?_eq_none_iff]
  intro scope hscope
  rcases List.mem_append.mp hscope with hscope | hscope
  · obtain ⟨decl, hdecl, rfl⟩ := Option.map_eq_some_iff.mp (Option.mem_toList.mp hscope)
    rw [hmethod decl hdecl]
    rfl
  · obtain ⟨owner, howner, rfl⟩ := List.mem_map.mp hscope
    obtain ⟨k, hk⟩ := exists_type?_of_mem_outward howner
    rw [hplain k owner hk]
    rfl

theorem resolveType_of_qualified? {index : CodeIndex} {text : String} {view : Viewpoint}
    {entry : TypeEntry} (htext : TypeText.base text = text ∧ namesNoType text = false)
    (hparameter : ∀ name, index.typeParameter name view = none)
    (hentry : index.qualified? text = some entry) :
    index.resolveType text view = some entry.symbol := by
  unfold resolveType
  simp [htext, hparameter, resolveName, hentry]

theorem resolveType_of_resolveSimple {index : CodeIndex} {text : String} {view : Viewpoint}
    {t : TypeSymbol} (htext : TypeText.base text = text ∧ namesNoType text = false)
    (hsimple : Text.cutFirst '.' text.toList = (text.toList, []))
    (hparameter : ∀ name, index.typeParameter name view = none)
    (hqualified : index.qualified? text = none) (ht : index.resolveSimple text view = some t) :
    index.resolveType text view = some t := by
  have hname : index.resolveName text view = t := by
    unfold resolveName
    simp [hqualified, hsimple, ht, resolveNested]
  unfold resolveType
  simp [htext, hparameter, hname]

/-- A simple name that no type around bears means what it means in the file. -/
theorem resolveType_of_seenInFile {index : CodeIndex} {text : String} {view : Viewpoint}
    {t : TypeSymbol} (htext : TypeText.base text = text ∧ namesNoType text = false)
    (hsimple : Text.cutFirst '.' text.toList = (text.toList, []))
    (hparameter : ∀ name, index.typeParameter name view = none)
    (hqualified : index.qualified? text = none)
    (haround : ∀ owner ∈ index.ownersFrom view.owner, index.seenFrom text owner = none)
    (hfile : index.seenInFile text view.file = some t) :
    index.resolveType text view = some t := by
  apply resolveType_of_resolveSimple htext hsimple hparameter hqualified
  unfold resolveSimple
  rw [List.findSome?_eq_none_iff.mpr haround, hfile]
  rfl

/-- What no file declares or imports may belong to the language. -/
theorem resolveType_of_languageTypes {index : CodeIndex} {text : String} {view : Viewpoint}
    (htext : TypeText.base text = text ∧ namesNoType text = false)
    (hsimple : Text.cutFirst '.' text.toList = (text.toList, []))
    (hparameter : ∀ name, index.typeParameter name view = none)
    (hqualified : index.qualified? text = none)
    (haround : ∀ owner ∈ index.ownersFrom view.owner, index.seenFrom text owner = none)
    (hfile : index.seenInFile text view.file = none)
    (hlanguage : Library.languageTypes.contains text = true) :
    index.resolveType text view = some (Library.externalType ("java.lang." ++ text)) := by
  apply resolveType_of_resolveSimple htext hsimple hparameter hqualified
  unfold resolveSimple
  rw [List.findSome?_eq_none_iff.mpr haround, hfile, if_pos hlanguage]
  rfl

/-- Around a type that lies in no other one there is nothing else. -/
theorem ownersFrom_of_outermost {files : List FileFacts} {k : String} {entry : TypeEntry}
    (hentry : (ofFiles files).type? k = some entry) (hk : k ≠ "")
    (houter : entry.decl.outer = none) : (ofFiles files).ownersFrom (some k) = [entry] := by
  have hsize : 0 < (ofFiles files).types.size := List.length_pos_of_mem (mem_keys_of_type? hentry)
  obtain ⟨size, hsucc⟩ := Nat.exists_eq_add_of_lt hsize
  unfold ownersFrom
  rw [hsucc, Nat.zero_add, outward, if_neg hk, hentry]
  simp only
  rw [houter]
  cases size <;> rfl

end CodeIndex

end EntryPoints
