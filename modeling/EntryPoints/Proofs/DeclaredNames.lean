import EntryPoints.Proofs.HiddenMembers
import EntryPoints.Proofs.LocalTypes

/-!
# Declared types and type parameters

The binary name of a type parameter ends with an angle bracket.  That of a declared type ends with
the name of the type or with a number, whatever it is declared in.  So if no name of a type ends
with an angle bracket, no type of the index goes by the name of a type parameter, and a type
parameter declares no methods.

Every type above a type that is named is named itself or is such a type parameter.  What it
declares belongs to the very type.
-/

namespace EntryPoints

open Java

/-! ## The names of declared types -/

/-- A name that ends like that of a type parameter. -/
def EndsInBracket (name : String) : Prop := name.toList.getLast? = some '>'

instance (name : String) : Decidable (EndsInBracket name) := inferInstanceAs (Decidable (_ = _))

theorem endsInBracket_append {back : String} (hback : back ≠ "") (front : String) :
    EndsInBracket (front ++ back) ↔ EndsInBracket back := by
  have hne : back.toList ≠ [] := fun hnil => hback (String.toList_injective hnil)
  rw [EndsInBracket, EndsInBracket, String.toList_append, List.getLast?_append_of_ne_nil _ hne]

theorem endsInBracket_parameter (scope name : String) :
    EndsInBracket (scope ++ "<" ++ name ++ ">") := (endsInBracket_append (by decide) _).mpr rfl

theorem not_endsInBracket_toString (n : Nat) : ¬ EndsInBracket (toString n) := fun hends =>
  absurd (isDigit_of_mem_toString (List.mem_of_getLast? hends)) (by decide)

/-- No name of a type ends like that of a type parameter. -/
def Java.Node.NamesTypesPlainly (tree : Node) : Prop :=
  ∀ x ∈ tree.nodes, x.kind.isType = true → ∀ name ∈ x.child? .name, ¬ EndsInBracket name.text

instance (tree : Node) : Decidable tree.NamesTypesPlainly :=
  inferInstanceAs (Decidable (∀ _ ∈ _, _))

theorem Java.Node.NamesTypesPlainly.child {node c : Node} (h : node.NamesTypesPlainly)
    (hc : c ∈ node.children) : c.NamesTypesPlainly := fun x hx => h x (nodes_subset_of_child hc hx)

/-- No type has a binary name like that of a type parameter. -/
def TypeDecl.IsPlain (decl : TypeDecl) : Prop := ¬ EndsInBracket decl.binaryName

instance (decl : TypeDecl) : Decidable decl.IsPlain := inferInstanceAs (Decidable (¬ _))

namespace Place

variable {place : Place} {node : Node}

theorem isPlain_declareType {kind : TypeKind} (hname : SourceFile.nameOf node ≠ "")
    (hplain : ¬ EndsInBracket (SourceFile.nameOf node)) (numbering : Numbering) :
    (place.declareType kind node numbering).1.IsPlain := by
  have hends (front : String) : ¬ EndsInBracket (front ++ SourceFile.nameOf node) :=
    fun h => hplain ((endsInBracket_append hname front).mp h)
  unfold TypeDecl.IsPlain declareType namesOf
  cases place.owner with
  | none =>
      change ¬ EndsInBracket (if place.package = "" then _ else _)
      split
      · exact hplain
      · exact hends _
  | some owner =>
      cases place.method with
      | none => exact hends _
      | some method => exact hends _

theorem isPlain_declareAnonymous (owner : TypeDecl) (superclass : Option String) (node : Node)
    (numbering : Numbering) :
    (place.declareAnonymous owner superclass node numbering).1.IsPlain := fun hends =>
  not_endsInBracket_toString _ ((endsInBracket_append (toString_ne_empty _) _).mp hends)

end Place

mutual

theorem arePlain_survey (place : Place) (before : Option Node) : ∀ (node : Node)
    (numbering : Numbering), node.HasNoEmptyName → node.NamesTypesPlainly →
    EveryType TypeDecl.IsPlain (survey place before node numbering).1
  | ⟨kind, role, span, text, children⟩, numbering, hnames, hplain => by
    let node : Node := ⟨kind, role, span, text, children⟩
    have hchildren (inner : Place) (isRead : Node → Bool) (numbering : Numbering) :
        EveryType TypeDecl.IsPlain (surveyAll inner isRead none children numbering).1 :=
      arePlain_surveyAll inner isRead none children numbering fun _ hc =>
        ⟨hnames.child hc, hplain.child hc⟩
    have houtcome := place.outcome_survey before node numbering
    generalize survey place before node numbering = result at houtcome ⊢
    cases houtcome with
    | nameless => exact .nil
    | type htype hdecl hnext hname =>
        subst hdecl
        obtain ⟨name, hname⟩ := hname
        have hends : ¬ EndsInBracket (SourceFile.nameOf node) := by
          rw [SourceFile.nameOf, hname]
          exact hplain node (Node.self_mem_nodes node) htype name hname
        exact .type (Place.isPlain_declareType (SourceFile.nameOf_ne_empty hnames htype hname)
          hends numbering) (hchildren _ _ _)
    | method hkind howner hdecl => exact .method _ (hchildren _ _ _)
    | construct htype hmethod hown hread =>
        exact (EveryType.of_states hown).append (hchildren _ _ _)
    | withClass hkind howner hown hread hdecl hnext =>
        subst hdecl
        exact ((EveryType.of_states hown).append (hchildren _ _ _)).append
          (.type (Place.isPlain_declareAnonymous _ _ _ _) (hchildren _ _ _))

theorem arePlain_surveyAll (place : Place) (isRead : Node → Bool) : ∀ (before : Option Node)
    (nodes : List Node) (numbering : Numbering),
    (∀ c ∈ nodes, c.HasNoEmptyName ∧ c.NamesTypesPlainly) →
    EveryType TypeDecl.IsPlain (surveyAll place isRead before nodes numbering).1
  | _, [], _, _ => .nil
  | before, node :: rest, numbering, hnodes => by
    have hnode : EveryType TypeDecl.IsPlain
        (if isRead node then survey place before node numbering else ([], numbering)).1 := by
      split
      · obtain ⟨hnames, hplain⟩ := hnodes node List.mem_cons_self
        exact arePlain_survey place before node numbering hnames hplain
      · exact .nil
    unfold surveyAll
    exact hnode.append (arePlain_surveyAll place isRead _ rest _
      fun c hc => hnodes c (List.mem_cons_of_mem node hc))

end

namespace FileFacts

/-- No type of the file has a binary name like that of a type parameter. -/
def NamesPlainly (file : FileFacts) : Prop := ∀ decl ∈ file.types, decl.IsPlain

instance (file : FileFacts) : Decidable file.NamesPlainly :=
  inferInstanceAs (Decidable (∀ _ ∈ _, _))

theorem namesPlainly_ofTree (file : SourceFile) (relativePath : String) {tree : Node}
    (hnames : tree.HasNoEmptyName) (hplain : tree.NamesTypesPlainly) :
    (ofTree file relativePath tree).NamesPlainly := fun decl hdecl =>
  arePlain_survey _ none tree ∅ hnames hplain decl (type_mem_factsOf hdecl)

end FileFacts

/-! ## Type parameters -/

namespace CodeIndex

/-- A type parameter as it is found in a scope, with bounds that are named. -/
structure IsScoped (index : CodeIndex) (t : TypeSymbol) : Prop where
  parameter : t.isTypeParameter = true
  internal : t.isExternal = false
  binaryName : ∃ scope name, t.binaryName = scope ++ "<" ++ name ++ ">"
  bounds : ∀ bound ∈ t.bounds, index.IsNamed bound

variable {index : CodeIndex}

theorem isScoped_of_typeParameter {name : String} {view : Viewpoint} {t : TypeSymbol}
    (ht : index.typeParameter name view = some t) : index.IsScoped t := by
  unfold typeParameter at ht
  obtain ⟨⟨scope, parameters⟩, -, hscope⟩ := List.exists_of_findSome?_eq_some ht
  obtain ⟨bounds, -, rfl⟩ := Option.map_eq_some_iff.mp hscope
  refine ⟨rfl, rfl, ⟨scope, name, rfl⟩, fun bound hbound => ?_⟩
  obtain ⟨text, -, htext⟩ := List.mem_filterMap.mp hbound
  exact isNamed_of_resolveBound htext

theorem IsScoped.isResolved {t : TypeSymbol} (ht : index.IsScoped t) : index.IsResolved t := by
  obtain ⟨scope, name, hbinary⟩ := ht.binaryName
  refine .inr ⟨ht.parameter, ht.internal, ?_, ht.bounds⟩
  rw [hbinary]
  simp

theorem IsScoped.directSupertypes_eq {t : TypeSymbol} (ht : index.IsScoped t) :
    index.directSupertypes t = t.bounds := by
  unfold directSupertypes
  rw [if_pos ht.parameter]

/-- A text names a type that is declared or belongs to the library, or a type parameter. -/
theorem isNamed_or_isScoped_of_resolveType {text : String} {view : Viewpoint} {t : TypeSymbol}
    (ht : index.resolveType text view = some t) : index.IsNamed t ∨ index.IsScoped t := by
  unfold resolveType at ht
  simp only at ht
  split at ht
  · cases ht
  · simp only [Option.orElse_eq_orElse, Option.orElse_eq_or, Option.or_eq_some_iff] at ht
    rcases ht with ht | ⟨-, ht⟩
    · split at ht
      · exact .inr (isScoped_of_typeParameter ht)
      · cases ht
    · cases ht
      exact .inl (isNamed_resolveName _ view)

variable {files : List FileFacts}

theorem isNamed_or_isScoped_of_mem_directSupertypes {t u : TypeSymbol}
    (ht : (ofFiles files).IsNamed t ∨ (ofFiles files).IsScoped t)
    (hu : u ∈ (ofFiles files).directSupertypes t) :
    (ofFiles files).IsNamed u ∨ (ofFiles files).IsScoped u := by
  unfold directSupertypes at hu
  split at hu
  · rcases ht with ht | ht
    · rw [bounds_eq_nil_of_isNamed ht] at hu
      cases hu
    · exact .inl (ht.bounds u hu)
  · split at hu
    · cases hu
    · split at hu
      · obtain ⟨text, -, htext⟩ := List.mem_filterMap.mp hu
        exact isNamed_or_isScoped_of_resolveType (Option.filter_eq_some_iff.mp htext).1
      · cases hu

theorem isNamed_or_isScoped_of_isAbove {t u : TypeSymbol}
    (ht : (ofFiles files).IsNamed t ∨ (ofFiles files).IsScoped t)
    (hu : (ofFiles files).IsAbove t u) :
    (ofFiles files).IsNamed u ∨ (ofFiles files).IsScoped u := by
  induction hu with
  | refl => exact ht
  | tail _ hstep ih => exact isNamed_or_isScoped_of_mem_directSupertypes ih hstep

/-- Nothing is declared under the name of a type parameter. -/
theorem declaredMethods_of_isScoped (hfiles : ∀ file ∈ files, file.NamesPlainly) {t : TypeSymbol}
    (ht : (ofFiles files).IsScoped t) : (ofFiles files).declaredMethods t = [] := by
  obtain ⟨scope, name, hbinary⟩ := ht.binaryName
  unfold declaredMethods
  rw [ht.internal, if_neg Bool.false_ne_true, List.eq_nil_iff_forall_not_mem]
  intro m hm
  obtain ⟨⟨entry, hentry, -⟩, -⟩ := owner_of_mem_methodsDeclaredBy hm
  obtain ⟨hfile, hdecl, -⟩ := mem_typeEntries.mp (mem_typeEntries_of_type? hentry)
  have hends := endsInBracket_parameter scope name
  rw [← hbinary, ← (symbol_of_type? hentry).1] at hends
  exact hfiles _ hfile entry.decl hdecl hends

/-- What a type above a named one declares belongs to the very type. -/
theorem owner_eq_of_mem_declaredMethods (hfiles : ∀ file ∈ files, file.NamesPlainly)
    {t : TypeSymbol} (ht : (ofFiles files).IsNamed t ∨ (ofFiles files).IsScoped t) {m : Method}
    (hm : m ∈ (ofFiles files).declaredMethods t) : m.owner = t := by
  rcases ht with (⟨name, rfl⟩ | ⟨k, entry, hentry, rfl⟩) | ht
  · obtain ⟨found, -, rfl⟩ := Option.map_eq_some_iff.mp (Option.mem_toList.mp hm)
    rfl
  · obtain ⟨hk, hsymbol⟩ := symbol_of_type? hentry
    have hinternal : entry.symbol.isExternal = false := by
      rw [hsymbol]
      rfl
    have hbinary : entry.symbol.binaryName = k := by
      rw [hsymbol]
      exact hk
    unfold declaredMethods at hm
    rw [hinternal, if_neg Bool.false_ne_true, hbinary] at hm
    obtain ⟨⟨found, hfound, howner⟩, -⟩ := owner_of_mem_methodsDeclaredBy hm
    rw [hentry, Option.some.injEq] at hfound
    rw [howner, hfound]
  · rw [declaredMethods_of_isScoped hfiles ht] at hm
    cases hm

end CodeIndex

end EntryPoints
