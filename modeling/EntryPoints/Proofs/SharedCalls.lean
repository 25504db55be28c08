import EntryPoints.Proofs.CallTargets
import EntryPoints.Proofs.SharedNames

/-!
# Calls that mean the same with and without the tests

Where the names of production code mean the same in the index of all files and in the
production index, an invocation in production code resolves to the same in both: its
receiver, whether that is known, and what it may call.  So does the interface of a lambda.

The lemmas follow the functions that resolve an invocation.  Each says that the indexes
agree, and that what they find is common to them, which is what the next function needs.
-/

namespace EntryPoints.Codebase

open CodeIndex

variable {code : Codebase}

/-- Views of one place in a production file. -/
structure SamePlace (code : Codebase) (v w : Viewpoint) : Prop where
  file : v.file = w.file
  owner : v.owner = w.owner
  production : w.file ∈ code.production
  declared : code.Declares w.owner

theorem findSome?_eq {α β : Type} {xs : List α} {f g : α → Option β}
    (h : ∀ x ∈ xs, f x = g x) : xs.findSome? f = xs.findSome? g := by
  rw [← List.head?_filterMap, ← List.head?_filterMap, List.filterMap_congr h]

/-! ## Overloads -/

theorem parameterType_eq (h : code.NamesAgree) {m : Method} (hm : code.Common m.owner)
    {parameter r : String} (hparameter : parameter ∈ m.parameters) (hr : Reading parameter r) :
    code.whole.parameterType m r = code.part.parameterType m r ∧
      ∀ t, code.part.parameterType m r = some t → code.Common t := by
  unfold parameterType
  rw [entryOf_eq hm.shared]
  cases hentry : code.part.entryOf m with
  | none => simp
  | some entry =>
      obtain ⟨hfile, hdecl, hparameters, -⟩ := of_entryOf hentry
      rw [Option.bind_some, Option.bind_some]
      rw [← hparameters] at hparameter
      have htext := (h.methods entry.file hfile entry.decl hdecl parameter
        (List.mem_append_right _ hparameter)).reading hr
      exact ⟨htext.eq, fun t ht => htext.common ht⟩

section Arguments

variable {v w : Viewpoint} {m : Method}

theorem referenceFit_eq (h : code.NamesAgree) (hm : code.Common m.owner) {argument : String}
    (hargument : code.SameText argument v w) {parameter r : String}
    (hparameter : parameter ∈ m.parameters) (hr : Reading parameter r) :
    code.whole.referenceFit argument r m v = code.part.referenceFit argument r m w := by
  unfold referenceFit
  rw [hargument.eq, (parameterType_eq h hm hparameter hr).1]
  split
  next given wanted hgiven hwanted =>
    rw [isSubtypeOrSelf_eq h (hargument.common hgiven)]
  next => rfl

theorem length_dropRight_lt {n : Nat} {text : String} (hn : 0 < n) (htext : text.length ≠ 0) :
    (TypeText.dropRight n text).length < text.length := by
  have hlength : text.toList.length = text.length := String.length_toList
  simp only [TypeText.dropRight, String.length_ofList, List.length_take]
  omega

theorem argumentFit_eq (h : code.NamesAgree) (hm : code.Common m.owner) {argument : String}
    (hargument : code.SameText argument v w) {parameter r : String}
    (hparameter : parameter ∈ m.parameters) (hr : Reading parameter r) :
    code.whole.argumentFit argument r m v = code.part.argumentFit argument r m w := by
  -- By induction on the length of the argument: its element type is shorter.
  induction hlength : argument.length using Nat.strong_induction_on generalizing argument r with
  | h length ih =>
  rw [argumentFit.eq_def code.whole, argumentFit.eq_def code.part]
  simp only
  rw [isTypeVariable_eq hm, referenceFit_eq h hm hargument hparameter hr]
  by_cases harrays : TypeText.isArray (TypeText.erase argument) = true ∧
      TypeText.isArray (TypeText.erase r) = true ∧ argument.length ≠ 0
  · have hshorter := length_dropRight_lt (Nat.zero_lt_two) harrays.2.2
    rw [ih _ (hlength ▸ hshorter) (hargument.reading (.element .self harrays.1))
      (.element hr harrays.2.1) rfl]
  · rw [if_neg harrays, if_neg harrays]

theorem reading_of_parameterAt {count position : Nat} {argument r : String}
    (hr : m.parameterAt count position argument = some r) :
    ∃ parameter ∈ m.parameters, Reading parameter r := by
  obtain ⟨parameter, hparameter, rfl⟩ := Option.map_eq_some_iff.mp hr
  refine ⟨parameter, List.mem_of_getElem? hparameter, ?_⟩
  split
  · split
    · exact .array (.dotless .self)
    · exact .dotless .self
  · exact .self

theorem argumentScore_eq (h : code.NamesAgree) (hm : code.Common m.owner)
    {arguments : List (Option String)}
    (harguments : ∀ text, some text ∈ arguments → code.SameText text v w) :
    code.whole.argumentScore m arguments v = code.part.argumentScore m arguments w := by
  unfold argumentScore
  congr 1
  apply List.filterMap_congr
  rintro ⟨argument, position⟩ hmem
  cases argument with
  | none => simp only [Option.bind_none]
  | some argument =>
      have hargument := harguments argument (List.fst_mem_of_mem_zipIdx hmem)
      simp only [Option.bind_some]
      cases hr : m.parameterAt arguments.length position argument with
      | none => simp only [Option.map_none]
      | some r =>
          obtain ⟨parameter, hparameter, hreading⟩ := reading_of_parameterAt hr
          rw [Option.map_some, Option.map_some,
            argumentFit_eq h hm hargument hparameter hreading]

theorem selectOverloads_eq (h : code.NamesAgree) {candidates : List Method}
    (hcandidates : ∀ m ∈ candidates, code.CommonMethod m) {arguments : List (Option String)}
    (harguments : ∀ text, some text ∈ arguments → code.SameText text v w) :
    code.whole.selectOverloads candidates arguments v =
      code.part.selectOverloads candidates arguments w := by
  have hscored : (candidates.filterMap fun m =>
        (code.whole.argumentScore m arguments v).map (·, m)) =
      candidates.filterMap fun m => (code.part.argumentScore m arguments w).map (·, m) := by
    apply List.filterMap_congr
    intro m hm
    rw [argumentScore_eq h (hcandidates m hm).owner harguments]
  unfold selectOverloads
  simp only [hscored]

theorem narrowed_eq (h : code.NamesAgree) {candidates : List Method}
    (hcandidates : ∀ m ∈ candidates, code.CommonMethod m) {call : Invocation}
    (htexts : ∀ text, some text ∈ call.argumentTypes.getD [] → code.SameText text v w) :
    code.whole.narrowed candidates call v = code.part.narrowed candidates call w ∧
      ∀ m ∈ code.part.narrowed candidates call w, code.CommonMethod m :=
  ⟨selectOverloads_eq h hcandidates htexts,
    fun m hm => hcandidates m (mem_of_mem_selectOverloads hm)⟩

theorem membersFor_eq (h : code.NamesAgree) {t : TypeSymbol} (ht : code.Common t)
    {call : Invocation}
    (htexts : ∀ text, some text ∈ call.argumentTypes.getD [] → code.SameText text v w) :
    code.whole.membersFor t call v = code.part.membersFor t call w ∧
      ∀ m ∈ code.part.membersFor t call w, code.CommonMethod m := by
  obtain ⟨hmembers, hcommon⟩ := members_eq h ht call.name call.argumentCount
  unfold membersFor
  rw [hmembers]
  exact narrowed_eq h hcommon htexts

theorem constructorsFor_eq (h : code.NamesAgree) {t : TypeSymbol} (ht : code.Common t)
    {call : Invocation}
    (htexts : ∀ text, some text ∈ call.argumentTypes.getD [] → code.SameText text v w) :
    code.whole.constructorsFor t call v = code.part.constructorsFor t call w ∧
      ∀ m ∈ code.part.constructorsFor t call w, code.CommonMethod m := by
  obtain ⟨hconstructors, hcommon⟩ := constructors_eq ht call.argumentCount
  unfold constructorsFor
  rw [hconstructors]
  exact narrowed_eq h hcommon htexts

end Arguments

/-! ## Fields -/

theorem above_eq (h : code.NamesAgree) {t : TypeSymbol} (ht : code.Common t) :
    (if code.whole.types.contains t.binaryName then code.whole.directSupertypes t else []) =
        (if code.part.types.contains t.binaryName then code.part.directSupertypes t else []) ∧
      ∀ u ∈ if code.part.types.contains t.binaryName then code.part.directSupertypes t else [],
        code.Common u := by
  obtain ⟨hsupertypes, hcommon⟩ := directSupertypes_eq h ht
  rw [contains_types_eq ht.shared, hsupertypes]
  refine ⟨rfl, fun u hu => ?_⟩
  split at hu
  · exact hcommon u hu
  · cases hu

theorem mem_keys_of_contains {files : List FileFacts} {k : String}
    (hk : (ofFiles files).types.contains k = true) : k ∈ (ofFiles files).types.keys := by
  rw [Table.contains_eq_isSome] at hk
  obtain ⟨entry, hentry⟩ := Option.isSome_iff_exists.mp hk
  exact mem_keys_of_type? hentry

theorem fieldOwners_eq (h : code.NamesAgree) {k : String} {entry : TypeEntry}
    (hentry : code.part.type? k = some entry) :
    code.whole.fieldOwners entry = code.part.fieldOwners entry := by
  have hclosed : ∀ t, code.Common t →
      ∀ u ∈ if code.part.types.contains t.binaryName then code.part.directSupertypes t else [],
        code.Common u :=
    fun t ht => (above_eq h ht).2
  have hstart : ∀ t ∈ [entry.symbol], code.Common t := by simpa using common_symbol hentry
  have hheavy : ∀ t, code.Common t → 0 < Walk.load (fun _ => 0)
      (if code.part.types.contains t.binaryName then code.part.directSupertypes t else []) →
        code.part.types.keys.contains t.binaryName = true ∧
          code.whole.types.keys.contains t.binaryName = true := by
    intro t ht hweight
    have hdeclared : code.part.types.contains t.binaryName = true := by
      by_contra hnone
      rw [if_neg hnone] at hweight
      exact Nat.lt_irrefl _ hweight
    have hwhole := (contains_types_eq ht.shared).trans hdeclared
    rw [List.contains_iff_mem, List.contains_iff_mem]
    exact ⟨mem_keys_of_contains hdeclared, mem_keys_of_contains hwhole⟩
  have hbudget (index : CodeIndex) :
      (Walk.remaining index.types.keys []).length ≤ index.types.size + 1 :=
    Nat.le_succ_of_le (List.length_filter_le _ _)
  have hvisit := Walk.visit_eq_of_budgets hclosed (fun t ht => (above_eq h ht).1) hheavy
    (code.part.types.size + 1) (code.whole.types.size + 1) [entry.symbol] [] hstart
    (hbudget _) (hbudget _)
  unfold fieldOwners
  simp only
  rw [hvisit]
  apply List.filterMap_congr
  intro t ht
  exact (Walk.known_of_mem_visit hclosed hstart t ht).shared

theorem fieldText_eq (h : code.NamesAgree) (name : String) {k : String} {entry : TypeEntry}
    (hentry : code.part.type? k = some entry) :
    code.whole.fieldText name entry = code.part.fieldText name entry := by
  unfold fieldText
  rw [fieldOwners_eq h hentry]

theorem of_fieldText {name text : String} {entry holder : TypeEntry}
    (htext : code.part.fieldText name entry = some (holder, text)) :
    holder.file ∈ code.production ∧ holder.decl ∈ holder.file.types ∧
      ∃ field ∈ holder.decl.fields, field.2 = text := by
  obtain ⟨found, hfound, hfield⟩ := List.exists_of_findSome?_eq_some htext
  obtain ⟨t, -, htype⟩ := List.mem_filterMap.mp hfound
  obtain ⟨written, hwritten, hpair⟩ := Option.map_eq_some_iff.mp hfield
  obtain ⟨field, hfirst, htextEq⟩ :=
    Option.map_eq_some_iff.mp (Option.filter_eq_some_iff.mp hwritten).1
  cases hpair
  obtain ⟨hfile, hdecl, -⟩ := mem_typeEntries.mp (mem_typeEntries_of_type? htype)
  exact ⟨hfile, hdecl, field, List.mem_reverse.mp (List.mem_of_find?_eq_some hfirst), htextEq⟩

theorem fieldType_eq (h : code.NamesAgree) (name : String) {v w : Viewpoint}
    (hplace : code.SamePlace v w) :
    code.whole.fieldType name v = code.part.fieldType name w ∧
      ∀ t, code.part.fieldType name w = some t → code.Common t := by
  have hfields : (code.whole.ownersFrom v.owner).findSome? (code.whole.fieldText name) =
      (code.part.ownersFrom w.owner).findSome? (code.part.fieldText name) := by
    rw [hplace.owner, ownersFrom_eq hplace.declared]
    apply findSome?_eq
    intro entry hentry
    exact fieldText_eq h name (mem_ownersFrom hentry)
  unfold fieldType
  rw [hfields]
  cases hfound : (code.part.ownersFrom w.owner).findSome? (code.part.fieldText name) with
  | none => simp
  | some found =>
      obtain ⟨entry, -, htext⟩ := List.exists_of_findSome?_eq_some hfound
      obtain ⟨hfile, hdecl, field, hfield, hwritten⟩ := of_fieldText htext
      have hsame := h.fields _ hfile _ hdecl field hfield
      rw [hwritten] at hsame
      rw [Option.bind_some, Option.bind_some]
      exact ⟨hsame.eq, fun t ht => hsame.common ht⟩

/-! ## Receivers -/

/-- A receiver whose type, if it has one, is common. -/
def CommonTyped (code : Codebase) (r : Typed) : Prop := ∀ t, r.type = some t → code.Common t

theorem commonTyped_of_type {t : TypeSymbol} (ht : code.Common t) (isKnown : Bool) :
    code.CommonTyped ⟨some t, isKnown⟩ := by
  intro u hu
  cases hu
  exact ht

theorem commonTyped_none (isKnown : Bool) : code.CommonTyped ⟨none, isKnown⟩ := by
  intro t ht
  cases ht

theorem SameText.commonTyped {text : String} {v w : Viewpoint} (h : code.SameText text v w)
    (isKnown : Bool) : code.CommonTyped ⟨code.part.resolveType text w, isKnown⟩ := by
  intro t ht
  dsimp only at ht
  exact h.common ht

section Receivers

variable {v w : Viewpoint}

theorem resolveSimple_eq {name : String} (hname : code.SameName name v w) :
    code.whole.resolveSimple name v = code.part.resolveSimple name w ∧
      ∀ t, code.part.resolveSimple name w = some t → code.Common t :=
  ⟨hname.1.1, fun _ ht => hname.1.common (.inl (isNamed_of_resolveSimple ht)) ht⟩

theorem nameType_eq (h : code.NamesAgree) (hplace : code.SamePlace v w) {name : String}
    (hname : code.SameName name v w) :
    code.whole.nameType name v = code.part.nameType name w ∧
      code.CommonTyped (code.part.nameType name w) := by
  obtain ⟨hfield, hfieldCommon⟩ := fieldType_eq h name hplace
  obtain ⟨hsimple, hsimpleCommon⟩ := resolveSimple_eq hname
  unfold nameType
  rw [hfield, hsimple]
  cases hfieldType : code.part.fieldType name w with
  | some t => exact ⟨rfl, commonTyped_of_type (hfieldCommon t hfieldType) true⟩
  | none =>
      cases hsimpleType : code.part.resolveSimple name w with
      | some t => exact ⟨rfl, commonTyped_of_type (hsimpleCommon t hsimpleType) true⟩
      | none =>
          simp only [Option.orElse_eq_orElse, Option.orElse_eq_or, Option.or_none, true_and]
          split
          · exact commonTyped_of_type (common_externalType (hname.2 hsimpleType)) true
          · exact commonTyped_none false

theorem returnType_eq (h : code.NamesAgree) {targets : List Method}
    (htargets : ∀ m ∈ targets, code.CommonMethod m) :
    code.whole.returnType targets = code.part.returnType targets ∧
      code.CommonTyped (code.part.returnType targets) := by
  cases targets with
  | nil => exact ⟨rfl, commonTyped_none false⟩
  | cons target others =>
      unfold returnType
      simp only
      rw [entryOf_eq (htargets target List.mem_cons_self).owner.shared]
      split
      next text entry htext hentry =>
        obtain ⟨hfile, hdecl, -, hreturns⟩ := of_entryOf hentry
        have hwritten : text ∈ entry.decl.returnType.toList ++ entry.decl.parameters := by
          rw [hreturns, (Option.filter_eq_some_iff.mp htext).1]
          exact List.mem_append_left _ (List.mem_singleton_self text)
        have hsame := h.methods _ hfile _ hdecl text hwritten
        rw [hsame.eq]
        refine ⟨rfl, ?_⟩
        split
        · exact commonTyped_none false
        · exact hsame.commonTyped true
      next => exact ⟨rfl, commonTyped_none false⟩

theorem ownType_eq (hplace : code.SamePlace v w) :
    code.whole.ownType v = code.part.ownType w ∧
      ∀ entry, code.part.ownType w = some entry → ∃ k, code.part.type? k = some entry := by
  unfold ownType
  rw [hplace.owner]
  constructor
  · cases howner : w.owner.filter (· ≠ "") with
    | none => simp only [Option.bind_none]
    | some name =>
        obtain ⟨file, hfile, hname⟩ :=
          hplace.declared name (Option.filter_eq_some_iff.mp howner).1
        obtain ⟨entry, hentry, -⟩ := part_type?_of_declared hfile hname
        rw [Option.bind_some, Option.bind_some, hentry, whole_type?_of_part hentry]
  · intro entry hentry
    obtain ⟨k, -, hk⟩ := Option.bind_eq_some_iff.mp hentry
    exact ⟨k, hk⟩

theorem superOf_eq (h : code.NamesAgree) {k : String} {entry : TypeEntry}
    (hentry : code.part.type? k = some entry) :
    code.whole.superOf entry = code.part.superOf entry ∧ code.Common (code.part.superOf entry) := by
  obtain ⟨hsupertypes, hcommon⟩ := directSupertypes_eq h (common_symbol hentry)
  unfold superOf
  rw [hsupertypes]
  refine ⟨rfl, ?_⟩
  split
  next above others _ htypes =>
    have hfirst : above ∈ code.part.directSupertypes entry.symbol := by
      rw [htypes]
      exact List.mem_cons_self
    exact hcommon above hfirst
  next => exact common_externalType h.object

end Receivers

/-! ## Invocations -/

/-- A resolved call with a common receiver and methods of common types as targets. -/
structure CommonCall (code : Codebase) (call : ResolvedCall) : Prop where
  receiver : ∀ t, call.receiver = some t → code.Common t
  targets : ∀ m ∈ call.targets, code.CommonMethod m

theorem commonCall_none (isKnown : Bool) : code.CommonCall ⟨none, isKnown, []⟩ where
  receiver t ht := by cases ht
  targets m hm := by cases hm

theorem commonCall_some {t : TypeSymbol} (ht : code.Common t) (isKnown : Bool)
    {targets : List Method} (htargets : ∀ m ∈ targets, code.CommonMethod m) :
    code.CommonCall ⟨some t, isKnown, targets⟩ where
  receiver u hu := by
    cases hu
    exact ht
  targets := htargets

section Calls

variable {v w : Viewpoint} {call : Invocation}

theorem resolveCreation_eq (h : code.NamesAgree) {receiver : Typed}
    (hreceiver : code.CommonTyped receiver)
    (htexts : ∀ text, some text ∈ call.argumentTypes.getD [] → code.SameText text v w) :
    code.whole.resolveCreation call receiver v = code.part.resolveCreation call receiver w ∧
      code.CommonCall (code.part.resolveCreation call receiver w) := by
  unfold resolveCreation
  cases htype : receiver.type with
  | none => exact ⟨rfl, commonCall_none receiver.isKnown⟩
  | some t =>
      have ht := hreceiver t htype
      obtain ⟨hconstructors, hcommon⟩ := constructorsFor_eq h ht htexts
      simp only
      rw [hconstructors]
      exact ⟨rfl, commonCall_some ht true hcommon⟩

theorem resolveQualified_eq (h : code.NamesAgree) {receiver : Typed}
    (hreceiver : code.CommonTyped receiver)
    (htexts : ∀ text, some text ∈ call.argumentTypes.getD [] → code.SameText text v w) :
    code.whole.resolveQualified call receiver v = code.part.resolveQualified call receiver w ∧
      code.CommonCall (code.part.resolveQualified call receiver w) := by
  unfold resolveQualified
  cases htype : receiver.type with
  | none => exact ⟨rfl, commonCall_none receiver.isKnown⟩
  | some t =>
      have ht := hreceiver t htype
      obtain ⟨hmembers, hcommon⟩ := membersFor_eq h ht htexts
      simp only
      rw [hmembers]
      exact ⟨rfl, commonCall_some ht true hcommon⟩

/-- What is found in one of the types that a call without a receiver looks into. -/
theorem asCalled_membersFor_eq (h : code.NamesAgree) {t : TypeSymbol} (ht : code.Common t)
    (htexts : ∀ text, some text ∈ call.argumentTypes.getD [] → code.SameText text v w) :
    asCalled t (code.whole.membersFor t call v) = asCalled t (code.part.membersFor t call w) ∧
      ∀ found, asCalled t (code.part.membersFor t call w) = some found →
        code.CommonCall found := by
  obtain ⟨hmembers, hcommon⟩ := membersFor_eq h ht htexts
  rw [hmembers]
  refine ⟨rfl, fun found hfound => ?_⟩
  unfold asCalled at hfound
  split at hfound
  · cases hfound
  · cases hfound
    exact commonCall_some ht true hcommon

theorem staticImport_eq (h : code.NamesAgree) (hplace : code.SamePlace v w)
    (htexts : ∀ text, some text ∈ call.argumentTypes.getD [] → code.SameText text v w)
    {imported : String} (himported : imported ∈ w.file.staticImports) :
    code.whole.staticImport call v imported = code.part.staticImport call w imported ∧
      ∀ found, code.part.staticImport call w imported = some found → code.CommonCall found := by
  have hholder := h.holders w.file hplace.production imported himported
  have hsame := Option.some.inj hholder.1
  have hcommon := hholder.common (.inl (isNamed_lookupQualified _)) rfl
  unfold staticImport
  simp only
  rw [hsame]
  split
  · exact asCalled_membersFor_eq h hcommon htexts
  · exact ⟨rfl, fun found hfound => by cases hfound⟩

theorem resolveUnqualified_eq (h : code.NamesAgree) (hplace : code.SamePlace v w)
    (htexts : ∀ text, some text ∈ call.argumentTypes.getD [] → code.SameText text v w) :
    code.whole.resolveUnqualified call v = code.part.resolveUnqualified call w ∧
      code.CommonCall (code.part.resolveUnqualified call w) := by
  have hentries : ∀ entry ∈ code.part.ownersFrom w.owner, code.Common entry.symbol :=
    fun entry hentry => common_symbol (mem_ownersFrom hentry)
  have haround : (code.whole.ownersFrom v.owner).findSome? (fun entry =>
        asCalled entry.symbol (code.whole.membersFor entry.symbol call v)) =
      (code.part.ownersFrom w.owner).findSome? fun entry =>
        asCalled entry.symbol (code.part.membersFor entry.symbol call w) := by
    rw [hplace.owner, ownersFrom_eq hplace.declared]
    apply findSome?_eq
    intro entry hentry
    exact (asCalled_membersFor_eq h (hentries entry hentry) htexts).1
  have himports : v.file.staticImports.findSome? (code.whole.staticImport call v) =
      w.file.staticImports.findSome? (code.part.staticImport call w) := by
    rw [hplace.file]
    apply findSome?_eq
    intro imported himported
    exact (staticImport_eq h hplace htexts himported).1
  unfold resolveUnqualified
  rw [haround, himports]
  refine ⟨rfl, ?_⟩
  cases hown : (code.part.ownersFrom w.owner).findSome? fun entry =>
      asCalled entry.symbol (code.part.membersFor entry.symbol call w) with
  | some found =>
      obtain ⟨entry, hentry, hfound⟩ := List.exists_of_findSome?_eq_some hown
      exact (asCalled_membersFor_eq h (hentries entry hentry) htexts).2 found hfound
  | none =>
      cases hstatic : w.file.staticImports.findSome? (code.part.staticImport call w) with
      | some found =>
          obtain ⟨imported, himported, hfound⟩ := List.exists_of_findSome?_eq_some hstatic
          exact (staticImport_eq h hplace htexts himported).2 found hfound
      | none => exact commonCall_none true

end Calls

mutual

theorem resolve_eq (h : code.NamesAgree) {v w : Viewpoint} (hplace : code.SamePlace v w) :
    ∀ call, code.SameCall v w call → code.whole.resolve v call = code.part.resolve w call ∧
      code.CommonCall (code.part.resolve w call)
  | ⟨kind, name, count, receiver, owner, method, location, types⟩, hcall => by
    rw [SameCall] at hcall
    obtain ⟨htexts, hreceiver⟩ := hcall
    have hcreated := receiverType?_eq h hplace receiver hreceiver
    unfold resolve
    cases kind with
    | creation =>
        simp only
        rw [hcreated.1]
        exact resolveCreation_eq h hcreated.2 htexts
    | _ =>
        cases receiver with
        | none =>
            simp only
            exact resolveUnqualified_eq h hplace htexts
        | some receiver =>
            have hqualified := receiverType_eq h hplace receiver hreceiver
            simp only
            rw [hqualified.1]
            exact resolveQualified_eq h hqualified.2 htexts

theorem receiverType?_eq (h : code.NamesAgree) {v w : Viewpoint} (hplace : code.SamePlace v w) :
    ∀ receiver, code.SameReceiver? v w receiver →
      code.whole.receiverType? v receiver = code.part.receiverType? w receiver ∧
        code.CommonTyped (code.part.receiverType? w receiver)
  | none, _ => ⟨rfl, commonTyped_none false⟩
  | some receiver, hreceiver => receiverType_eq h hplace receiver hreceiver

theorem receiverType_eq (h : code.NamesAgree) {v w : Viewpoint} (hplace : code.SamePlace v w) :
    ∀ receiver, code.SameReceiver v w receiver →
      code.whole.receiverType v receiver = code.part.receiverType w receiver ∧
        code.CommonTyped (code.part.receiverType w receiver)
  | .typed text, htext | .created text, htext => by
    rw [SameReceiver] at htext
    unfold receiverType
    rw [htext.eq]
    exact ⟨rfl, htext.commonTyped true⟩
  | .this, _ => by
    obtain ⟨hown, hdeclared⟩ := ownType_eq hplace
    unfold receiverType
    rw [hown]
    cases hentry : code.part.ownType w with
    | none => exact ⟨rfl, commonTyped_none false⟩
    | some entry =>
        obtain ⟨k, hk⟩ := hdeclared entry hentry
        exact ⟨rfl, commonTyped_of_type (common_symbol hk) true⟩
  | .super, _ => by
    obtain ⟨hown, hdeclared⟩ := ownType_eq hplace
    unfold receiverType
    rw [hown]
    cases hentry : code.part.ownType w with
    | none => exact ⟨rfl, commonTyped_none false⟩
    | some entry =>
        obtain ⟨k, hk⟩ := hdeclared entry hentry
        obtain ⟨hsuper, hcommon⟩ := superOf_eq h hk
        simp only
        rw [hsuper]
        exact ⟨rfl, commonTyped_of_type hcommon true⟩
  | .named name, hname => by
    rw [SameReceiver] at hname
    unfold receiverType
    exact nameType_eq h hplace hname
  | .result call, hcall => by
    rw [SameReceiver] at hcall
    obtain ⟨hresolved, hcommon⟩ := resolve_eq h hplace call hcall
    unfold receiverType
    rw [hresolved]
    exact returnType_eq h hcommon.targets
  | .unknown, _ => ⟨rfl, commonTyped_none false⟩

end

/-! ## Functional expressions -/

theorem parameterTarget_eq (h : code.NamesAgree) {target : Method}
    (htarget : code.Common target.owner) (position : Nat) :
    code.whole.parameterTarget target position = code.part.parameterTarget target position := by
  unfold parameterTarget
  cases hparameter : target.parameters[min position (target.arity - 1)]? with
  | none => simp only [Option.bind_none]
  | some parameter =>
      have hmem := List.mem_of_getElem? hparameter
      simp only [Option.bind_some]
      split
      next hvarargs => exact (parameterType_eq h htarget hmem (.variadic .self hvarargs)).1
      next => exact (parameterType_eq h htarget hmem .self).1

theorem targetType_eq (h : code.NamesAgree) {v w : Viewpoint} (hplace : code.SamePlace v w)
    {use : FunctionalUse} (huse : ∀ hint ∈ use.target, code.SameTarget v w hint) :
    code.whole.targetType use v = code.part.targetType use w := by
  unfold targetType
  cases htarget : use.target with
  | none => rfl
  | some hint =>
      have hhint := huse hint htarget
      cases hint with
      | typed text => exact hhint.eq
      | argument call position =>
          obtain ⟨hresolved, hcommon⟩ := resolve_eq h hplace call hhint
          simp only
          rw [hresolved]
          cases htargets : (code.part.resolve w call).targets with
          | nil => rfl
          | cons target others =>
              have hfirst : target ∈ (code.part.resolve w call).targets := by
                rw [htargets]
                exact List.mem_cons_self
              exact parameterTarget_eq h (hcommon.targets target hfirst).owner position

end EntryPoints.Codebase
