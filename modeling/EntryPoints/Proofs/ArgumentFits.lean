import EntryPoints.Index.Overloads

/-!
# How arguments fit parameters

Java has rules by which an argument of one type can be passed for a parameter of another:
subtypes of classes and wider primitive types, and, where these do not help, boxing and
unboxing.  They are stated here for primitive types, their boxes, `String`, `Object` and the
types of the index.

The index does not follow these rules: it tells how well an argument fits from the names of
the two types.  Where the names tell the types apart, what converts fits, exactly if nothing
needs to be converted; the one exception is a box whose content would have to be widened.
What does not convert fits at most in a way that cannot be told.  So an argument fits a
parameter the better the more specific its type is.
-/

namespace EntryPoints

/-! ## Types -/

inductive Primitive where
  | boolean
  | byte
  | char
  | short
  | int
  | long
  | float
  | double
deriving DecidableEq, Repr, Inhabited

namespace Primitive

def all : List Primitive := [.boolean, .byte, .char, .short, .int, .long, .float, .double]

def text : Primitive → String
  | .boolean => "boolean"
  | .byte => "byte"
  | .char => "char"
  | .short => "short"
  | .int => "int"
  | .long => "long"
  | .float => "float"
  | .double => "double"

def boxName : Primitive → String
  | .boolean => "Boolean"
  | .byte => "Byte"
  | .char => "Character"
  | .short => "Short"
  | .int => "Integer"
  | .long => "Long"
  | .float => "Float"
  | .double => "Double"

/-- The types to which a value widens. -/
def wider : Primitive → List Primitive
  | .boolean => []
  | .byte => [.short, .int, .long, .float, .double]
  | .char => [.int, .long, .float, .double]
  | .short => [.int, .long, .float, .double]
  | .int => [.long, .float, .double]
  | .long => [.float, .double]
  | .float => [.double]
  | .double => []

theorem not_mem_wider_of_mem {p q : Primitive} (h : q ∈ p.wider) : p ∉ q.wider ∧ p ≠ q := by
  revert h
  cases p <;> cases q <;> decide

end Primitive

/-- A type of which Java's rules for invocations are stated here. -/
inductive JavaType where
  | primitive (p : Primitive)
  | box (p : Primitive)
  | string
  | object
  | declared (t : TypeSymbol)

namespace JavaType

def name : JavaType → String
  | .primitive p => p.text
  | .box p => p.boxName
  | .string => "String"
  | .object => "Object"
  | .declared t => t.name

def IsReference : JavaType → Prop
  | .primitive _ => False
  | _ => True

/-- The types of the library that are not just mentioned but known. -/
def ofLibrary : List JavaType := .string :: .object :: Primitive.all.map .box

def ofSymbol? (t : TypeSymbol) : Option JavaType :=
  if t.isTypeParameter then none
  else if t.isExternal then ofLibrary.find? fun known => "java.lang." ++ known.name == t.binaryName
  else some (.declared t)

/-! ## Conversions -/

/-- What can be passed without boxing: nothing is converted but primitive values, which widen. -/
inductive IsSubtype (index : CodeIndex) : JavaType → JavaType → Prop
  | refl (t : JavaType) : IsSubtype index t t
  | widening {p q : Primitive} (hwider : q ∈ p.wider) :
      IsSubtype index (.primitive p) (.primitive q)
  | object {t : JavaType} (hreference : t.IsReference) : IsSubtype index t .object
  | declared {t u : TypeSymbol} (hsubtype : index.isSubtypeOrSelf t u = true) :
      IsSubtype index (.declared t) (.declared u)

/-- What can be passed when values are put into boxes and taken out of them where necessary. -/
inductive Converts (index : CodeIndex) : JavaType → JavaType → Prop
  | subtype {t u : JavaType} (hsubtype : IsSubtype index t u) : Converts index t u
  | boxing {p : Primitive} {u : JavaType} (hbox : IsSubtype index (.box p) u) :
      Converts index (.primitive p) u
  | unboxing {p : Primitive} {u : JavaType} (hcontent : IsSubtype index (.primitive p) u) :
      Converts index (.box p) u

/-! ## Fits -/

/-- How an argument of one type fits a parameter of another in the index. -/
def fit (index : CodeIndex) : JavaType → JavaType → Option Fit
  | .primitive p, .primitive q =>
    if p = q then some .exact else if q ∈ p.wider then some .convertible else none
  | .primitive p, .box q => if p = q then some .convertible else none
  | .primitive _, .object => some .convertible
  | .primitive _, _ => none
  | .box p, .primitive q => if p = q then some .convertible else none
  | _, .primitive _ => none
  | .object, .object => some .exact
  | _, .object => some .convertible
  | .box p, .box q => if p = q then some .exact else none
  | .string, .string => some .exact
  | .box _, _ | .string, _ => none
  | .declared t, .declared u =>
    if t.name = u.name then some .exact
    else if index.isSubtypeOrSelf t u then some .convertible
    else none
  | _, _ => some .unknown

/-- Declared types are told apart by their simple names, and none inherits from itself. -/
structure ToldApart (index : CodeIndex) (a b : JavaType) : Prop where
  names : ∀ t u, a = .declared t → b = .declared u → t.name = u.name → t = u
  acyclic : ∀ t u, a = .declared t → b = .declared u → index.isSubtypeOrSelf t u = true →
    index.isSubtypeOrSelf u t = true → t = u

variable {index : CodeIndex}

attribute [local simp] fit in
theorem fit_self (a : JavaType) : fit index a a = some .exact := by
  cases a <;> simp

/-- What converts fits, unless the content of a box would have to be widened. -/
theorem fit_of_converts {a b : JavaType} (h : Converts index a b) :
    fit index a b = some .exact ∨ fit index a b = some .convertible ∨
      ∃ p q, a = .box p ∧ b = .primitive q ∧ q ∈ p.wider := by
  cases h with
  | subtype hsubtype =>
      cases hsubtype with
      | refl => exact .inl (fit_self a)
      | widening hwider =>
          have hne := (Primitive.not_mem_wider_of_mem hwider).2
          exact .inr (.inl (by simp [fit, hne, hwider]))
      | object hreference =>
          cases a with
          | primitive p => cases hreference
          | object => exact .inl rfl
          | _ => exact .inr (.inl rfl)
      | declared hsubtype =>
          simp only [fit, hsubtype, if_true]
          split
          · exact .inl rfl
          · exact .inr (.inl rfl)
  | boxing hbox =>
      cases hbox with
      | refl => exact .inr (.inl (by simp [fit]))
      | object => exact .inr (.inl rfl)
  | unboxing hcontent =>
      cases hcontent with
      | refl => exact .inr (.inl (by simp [fit]))
      | widening hwider => exact .inr (.inr ⟨_, _, rfl, rfl, hwider⟩)
      | object hreference => cases hreference

/-- What does not convert fits at most in a way that cannot be told. -/
theorem fit_of_not_converts {a b : JavaType} (hapart : ToldApart index a b)
    (h : ¬ Converts index a b) : fit index a b = none ∨ fit index a b = some .unknown := by
  have hne : a ≠ b := fun hab => h (hab ▸ .subtype (.refl a))
  have hobject (hreference : a.IsReference) : b ≠ .object :=
    fun hb => h (hb ▸ .subtype (.object hreference))
  cases a with
  | primitive p =>
      cases b with
      | primitive q =>
          have hpq : p ≠ q := fun hpq => hne (congrArg _ hpq)
          have hwider : q ∉ p.wider := fun hwider => h (.subtype (.widening hwider))
          exact .inl (by simp [fit, hpq, hwider])
      | box q =>
          have hpq : p ≠ q := fun hpq => h (hpq ▸ .boxing (.refl _))
          exact .inl (by simp [fit, hpq])
      | object => exact absurd (.boxing (.object trivial)) h
      | _ => exact .inl rfl
  | box p =>
      cases b with
      | primitive q =>
          have hpq : p ≠ q := fun hpq => h (hpq ▸ .unboxing (.refl _))
          exact .inl (by simp [fit, hpq])
      | box q =>
          have hpq : p ≠ q := fun hpq => hne (congrArg _ hpq)
          exact .inl (by simp [fit, hpq])
      | object => exact absurd rfl (hobject trivial)
      | _ => exact .inl rfl
  | string =>
      cases b with
      | string => exact absurd rfl hne
      | object => exact absurd rfl (hobject trivial)
      | _ => exact .inl rfl
  | object =>
      cases b with
      | primitive q => exact .inl rfl
      | object => exact absurd rfl hne
      | _ => exact .inr rfl
  | declared t =>
      cases b with
      | primitive q => exact .inl rfl
      | object => exact absurd rfl (hobject trivial)
      | declared u =>
          have hnames : t.name ≠ u.name :=
            fun hname => hne (congrArg _ (hapart.names t u rfl rfl hname))
          have hsubtype : index.isSubtypeOrSelf t u ≠ true :=
            fun hsubtype => h (.subtype (.declared hsubtype))
          exact .inl (by simp [fit, hnames, hsubtype])
      | _ => exact .inr rfl

theorem eq_of_fit_eq_exact {a b : JavaType} (hapart : ToldApart index a b)
    (h : fit index a b = some .exact) : a = b := by
  cases a with
  | primitive p =>
      cases b with
      | primitive q =>
          simp only [fit] at h
          split at h
          next hpq => rw [hpq]
          next => split at h <;> cases h
      | box q =>
          simp only [fit] at h
          split at h <;> cases h
      | _ => cases h
  | box p =>
      cases b with
      | primitive q =>
          simp only [fit] at h
          split at h <;> cases h
      | box q =>
          simp only [fit] at h
          split at h
          next hpq => rw [hpq]
          next => cases h
      | _ => cases h
  | string =>
      cases b with
      | string => rfl
      | _ => cases h
  | object =>
      cases b with
      | object => rfl
      | _ => cases h
  | declared t =>
      cases b with
      | declared u =>
          simp only [fit] at h
          split at h
          next hname => rw [hapart.names t u rfl rfl hname]
          next => split at h <;> cases h
      | _ => cases h

/-- Nothing that is more specific than the type of an argument takes it, but that type itself. -/
theorem eq_of_isSubtype_of_converts {a b : JavaType} (hapart : ToldApart index a b)
    (hsubtype : IsSubtype index b a) (hconverts : Converts index a b) : a = b := by
  cases hsubtype with
  | refl => rfl
  | widening hwider =>
      cases hconverts with
      | subtype hback =>
          cases hback with
          | refl => rfl
          | widening hback => exact absurd hback (Primitive.not_mem_wider_of_mem hwider).1
      | boxing hbox => cases hbox
  | object hreference =>
      cases hconverts with
      | subtype hback =>
          cases hback with
          | refl => rfl
          | object => rfl
  | declared hup =>
      cases hconverts with
      | subtype hback =>
          cases hback with
          | refl => rfl
          | declared hdown => rw [hapart.acyclic _ _ rfl rfl hdown hup]

theorem score_le_of_ne_exact {f : Option Fit} (h : f ≠ some .exact) :
    f.map Fit.score ≤ some Fit.convertible.score := by
  cases f with
  | none => exact Option.none_le
  | some f =>
      rw [Option.map_some, Option.some_le_some]
      cases f with
      | exact => exact absurd rfl h
      | convertible => exact Nat.le_refl _
      | unknown => exact Nat.zero_le _

theorem score_le_exact (f : Option Fit) : f.map Fit.score ≤ some Fit.exact.score := by
  cases f with
  | none => exact Option.none_le
  | some f => exact Option.some_le_some.mpr (by cases f <;> decide)

theorem fit_box_ne_unknown (p : Primitive) (b : JavaType) :
    fit index (.box p) b ≠ some .unknown := by
  cases b with
  | primitive q =>
      simp only [fit]
      split <;> simp
  | box q =>
      simp only [fit]
      split <;> simp
  | _ => simp [fit]

/-- An argument that a parameter takes fits it no worse than one of a wider type. -/
theorem fit_mono {a b c : JavaType} (hab : ToldApart index a b) (hac : ToldApart index a c)
    (hconverts : Converts index a b) (hsubtype : IsSubtype index b c) :
    (fit index a c).map Fit.score ≤ (fit index a b).map Fit.score := by
  by_cases hexact : fit index a c = some .exact
  · obtain rfl := eq_of_fit_eq_exact hac hexact
    obtain rfl := eq_of_isSubtype_of_converts hab hsubtype hconverts
    rw [hexact]
    exact Option.some_le_some.mpr (Nat.le_refl _)
  · rcases fit_of_converts hconverts with h | h | ⟨p, q, rfl, rfl, hwider⟩
    · rw [h]
      exact score_le_exact _
    · rw [h]
      exact score_le_of_ne_exact hexact
    · -- The content of the box would have to be widened for the wider parameter, too.
      have hnone : ∀ r, r = q ∨ r ∈ q.wider → fit index (.box p) (.primitive r) = none := by
        intro r hr
        have hpr : p ≠ r := by
          rintro rfl
          rcases hr with rfl | hr
          · exact (Primitive.not_mem_wider_of_mem hwider).2 rfl
          · exact (Primitive.not_mem_wider_of_mem hwider).1 hr
        simp [fit, hpr]
      cases hsubtype with
      | refl =>
          rw [hnone q (.inl rfl)]
          exact Option.none_le
      | widening hmore =>
          rw [hnone _ (.inr hmore)]
          exact Option.none_le
      | object hreference => cases hreference

/-- What cannot be passed without boxing fits no better than what can. -/
theorem fit_le_of_not_isSubtype {a b c : JavaType} (hac : ToldApart index a c)
    (hsubtype : IsSubtype index a b) (h : ¬ IsSubtype index a c) :
    (fit index a c).map Fit.score ≤ (fit index a b).map Fit.score := by
  have hless : fit index a c ≠ some .exact := by
    intro hexact
    obtain rfl := eq_of_fit_eq_exact hac hexact
    exact h (.refl a)
  rcases fit_of_converts (.subtype hsubtype) with hfit | hfit | ⟨p, q, rfl, rfl, -⟩
  · rw [hfit]
    exact score_le_exact _
  · rw [hfit]
    exact score_le_of_ne_exact hless
  · cases hsubtype

/-- What cannot be passed fits no better than what can. -/
theorem fit_le_of_not_converts {a b c : JavaType} (hac : ToldApart index a c)
    (hconverts : Converts index a b) (h : ¬ Converts index a c) :
    (fit index a c).map Fit.score ≤ (fit index a b).map Fit.score := by
  have hless := fit_of_not_converts hac h
  have hne : fit index a c ≠ some .exact := by
    rcases hless with hnone | hunknown
    · simp [hnone]
    · simp [hunknown]
  rcases fit_of_converts hconverts with hfit | hfit | ⟨p, q, rfl, rfl, -⟩
  · rw [hfit]
    exact score_le_exact _
  · rw [hfit]
    exact score_le_of_ne_exact hne
  · -- With a box it can always be told.
    rw [hless.resolve_right (fit_box_ne_unknown p c)]
    exact Option.none_le

end JavaType

/-! ## Types that are written -/

/-- Names that mean the same to the index wherever they stand. -/
def reservedNames : List String :=
  "null" :: Library.primitives ++ Library.finalTypes ++ Library.finalAncestors

/-- A type that bears no name of the library. -/
def JavaType.IsPlain (a : JavaType) : Prop :=
  ∀ t, a = .declared t → t.name ∉ reservedNames

namespace CodeIndex

variable (index : CodeIndex)

/-- The type that a text means, if it is one of which the rules are stated here.  The last name
in the text is that of the type. -/
def javaType? (text : String) (view : Viewpoint) : Option JavaType :=
  let name := TypeText.erase text
  if TypeText.isArray text ∨ TypeText.isArray name then none
  else
    match Primitive.all.find? (·.text == name) with
    | some p => some (.primitive p)
    | none => ((index.resolveType text view).bind JavaType.ofSymbol?).filter (·.name == name)

variable {index}

theorem ofSymbol?_eq_some {t : TypeSymbol} {a : JavaType}
    (h : JavaType.ofSymbol? t = some a) :
    a = .declared t ∧ t.isExternal = false ∨ a ∈ JavaType.ofLibrary ∧ t.isExternal = true := by
  unfold JavaType.ofSymbol? at h
  split at h
  · cases h
  · split at h
    next hexternal => exact .inr ⟨List.mem_of_find?_eq_some h, hexternal⟩
    next hexternal =>
      cases h
      exact .inl ⟨rfl, Bool.eq_false_iff.mpr hexternal⟩

/-- How two types fit that are told apart by what they inherit from. -/
def referenceFitOf (index : CodeIndex) : JavaType → JavaType → Option Fit
  | .declared t, .declared u => if index.isSubtypeOrSelf t u then some .convertible else none
  | _, _ => some .unknown

theorem referenceFitOf_of_mem {a b : JavaType}
    (h : a ∈ JavaType.ofLibrary ∨ b ∈ JavaType.ofLibrary) :
    referenceFitOf index a b = some .unknown := by
  cases a with
  | declared t =>
      cases b with
      | declared u => simp [JavaType.ofLibrary] at h
      | _ => rfl
  | _ => rfl

/-- A text that means a type is no array, has the name of the type, and is resolved unless the
type is primitive. -/
structure Means (index : CodeIndex) (text : String) (view : Viewpoint) (a : JavaType) :
    Prop where
  notArray : TypeText.isArray text = false
  name : TypeText.erase text = a.name
  nameNotArray : TypeText.isArray a.name = false
  resolved : (∃ p, a = .primitive p) ∨
    ∃ t, index.resolveType text view = some t ∧
      (a = .declared t ∧ t.isExternal = false ∨ a ∈ JavaType.ofLibrary ∧ t.isExternal = true)

theorem means_of_javaType? {text : String} {view : Viewpoint} {a : JavaType}
    (h : index.javaType? text view = some a) : index.Means text view a := by
  unfold javaType? at h
  simp only at h
  split at h
  next => cases h
  next harray =>
    rw [not_or, Bool.not_eq_true, Bool.not_eq_true] at harray
    split at h
    next p hp =>
      cases h
      have hname := List.find?_some hp
      simp only [beq_iff_eq] at hname
      rw [← hname] at harray
      exact ⟨harray.1, hname.symm, harray.2, .inl ⟨p, rfl⟩⟩
    next =>
      obtain ⟨hbind, hname⟩ := Option.filter_eq_some_iff.mp h
      obtain ⟨t, ht, hsymbol⟩ := Option.bind_eq_some_iff.mp hbind
      have hname : a.name = TypeText.erase text := by simpa using hname
      exact ⟨harray.1, hname.symm, hname ▸ harray.2, .inr ⟨t, ht, ofSymbol?_eq_some hsymbol⟩⟩

/-- The type of a parameter, seen from where its method is declared. -/
def javaParameterType? (index : CodeIndex) (m : Method) (parameter : String) : Option JavaType :=
  if index.isTypeVariable parameter m then none
  else
    (index.entryOf m).bind fun entry =>
      index.javaType? parameter ⟨entry.file, some entry.decl.owner, some entry.decl⟩

theorem means_of_javaParameterType? {m : Method} {parameter : String} {b : JavaType}
    (h : index.javaParameterType? m parameter = some b) :
    index.isTypeVariable parameter m = false ∧ ∃ view, index.Means parameter view b ∧
      index.parameterType m parameter = index.resolveType parameter view := by
  unfold javaParameterType? at h
  split at h
  next => cases h
  next hvariable =>
    obtain ⟨entry, hentry, hb⟩ := Option.bind_eq_some_iff.mp h
    refine ⟨Bool.eq_false_iff.mpr hvariable, _, means_of_javaType? hb, ?_⟩
    rw [parameterType, hentry, Option.bind_some]

/-! ## The fits of the index -/

section Names

variable (p q : Primitive)

theorem text_eq_iff : p.text = q.text ↔ p = q := by
  cases p <;> cases q <;> decide

theorem boxName_eq_iff : p.boxName = q.boxName ↔ p = q := by
  cases p <;> cases q <;> decide

theorem primitiveFit_text : primitiveFit p.text q.text =
    if q ∈ p.wider then some .convertible else none := by
  cases p <;> cases q <;> decide

theorem primitiveFit_boxName : primitiveFit p.text q.boxName =
    if p = q then some .convertible else none := by
  cases p <;> cases q <;> decide

theorem primitiveFit_content : primitiveFit p.boxName q.text =
    if p = q then some .convertible else none := by
  cases p <;> cases q <;> decide

/-- Primitive types are listed as such, and fit nothing else than their boxes and `Object`. -/
theorem of_text : p.text ∈ Library.primitives ∧ p.text ∈ reservedNames ∧ p.text ≠ "Object" ∧
    p.text ≠ "String" ∧ p.text ≠ q.boxName ∧
    primitiveFit p.text "Object" = some .convertible ∧ primitiveFit p.text "String" = none ∧
    primitiveFit "Object" p.text = none ∧ primitiveFit "String" p.text = none := by
  cases p <;> cases q <;> decide

theorem of_boxName : p.boxName ∉ Library.primitives ∧ p.boxName ∈ Library.finalTypes ∧
    p.boxName ∉ Library.finalAncestors ∧ p.boxName ∈ reservedNames ∧ p.boxName ≠ "Object" ∧
    p.boxName ≠ "String" := by
  cases p <;> decide

theorem listed_string_object :
    ("String" ∉ Library.primitives ∧ "String" ∈ Library.finalTypes ∧
      "String" ∉ Library.finalAncestors) ∧
    "Object" ∉ Library.primitives ∧ "Object" ∉ Library.finalTypes ∧
      "Object" ∈ Library.finalAncestors := by
  decide

/-- A name without a meaning of its own. -/
theorem of_not_mem_reservedNames {name : String} (h : name ∉ reservedNames) :
    name ≠ "null" ∧ name ∉ Library.primitives ∧ name ∉ Library.finalTypes ∧
      name ∉ Library.finalAncestors ∧ name ≠ "Object" ∧ name ≠ "String" := by
  obtain ⟨hstring, hobject⟩ := listed_string_object
  simp only [reservedNames, List.cons_append, List.mem_cons, List.mem_append, not_or] at h
  exact ⟨h.1, h.2.1.1, h.2.1.2, h.2.2, fun hname => h.2.2 (hname ▸ hobject.2.2),
    fun hname => h.2.1.2 (hname ▸ hstring.2.1)⟩

theorem primitiveFit_of_not_reserved {name : String} (h : name ∉ reservedNames) :
    primitiveFit p.text name = none ∧ primitiveFit name p.text = none := by
  obtain ⟨-, hprimitive, -, hancestor, -⟩ := of_not_mem_reservedNames h
  have hbox : Library.boxOf p.text = some p.boxName := by cases p <;> decide
  have hname : p.boxName ≠ name := fun hname => h (hname ▸ (of_boxName p).2.2.2.1)
  have hlisted := (of_text p p).1
  unfold primitiveFit
  simp [hlisted, hprimitive, hancestor, hbox, hname]

end Names

/-! ### Fits of names -/

/-- The fit of two types that are no arrays, told from their names. -/
def nameFit (given wanted : String) (reference : Option Fit) : Option Fit :=
  if given = wanted then some .exact
  else if given ∈ Library.primitives ∨ wanted ∈ Library.primitives then primitiveFit given wanted
  else if wanted = "Object" then some .convertible
  else if given ∈ Library.finalTypes then
    if wanted ∈ Library.finalAncestors then some .convertible else none
  else reference

section NameFits

open JavaType (name fit)

variable {b : JavaType} (hb : b.IsPlain) {reference : Option Fit}

include hb

theorem nameFit_primitive (p : Primitive) :
    nameFit p.text b.name reference = fit index (.primitive p) b := by
  cases b with
  | primitive q => simp [nameFit, name, fit, text_eq_iff, primitiveFit_text, (of_text p q).1]
  | box q => simp [nameFit, name, fit, primitiveFit_boxName, of_text p q]
  | string => simp [nameFit, name, fit, of_text p p]
  | object => simp [nameFit, name, fit, of_text p p]
  | declared u =>
      have hne : p.text ≠ u.name := fun hname => hb u rfl (hname ▸ (of_text p p).2.1)
      simp [nameFit, name, fit, hne, (of_text p p).1, primitiveFit_of_not_reserved p (hb u rfl)]

theorem nameFit_box (p : Primitive) :
    nameFit p.boxName b.name reference = fit index (.box p) b := by
  obtain ⟨hstring, hobject⟩ := listed_string_object
  cases b with
  | primitive q =>
      have hne := (of_text q p).2.2.2.2.1
      simp [nameFit, name, fit, primitiveFit_content, (of_text q p).1, hne.symm]
  | box q => simp [nameFit, name, fit, boxName_eq_iff, of_boxName]
  | string => simp [nameFit, name, fit, of_boxName p, hstring]
  | object => simp [nameFit, name, fit, of_boxName p, hobject]
  | declared u =>
      have hne : p.boxName ≠ u.name := fun hname => hb u rfl (hname ▸ (of_boxName p).2.2.2.1)
      simp [nameFit, name, fit, hne, of_boxName p, of_not_mem_reservedNames (hb u rfl)]

theorem nameFit_string : nameFit "String" b.name reference = fit index .string b := by
  obtain ⟨hstring, hobject⟩ := listed_string_object
  cases b with
  | primitive q => simp [nameFit, name, fit, of_text q q, (of_text q q).2.2.2.1.symm]
  | box q => simp [nameFit, name, fit, of_boxName q, hstring, (of_boxName q).2.2.2.2.2.symm]
  | string => simp [nameFit, name, fit]
  | object => simp [nameFit, name, fit, hstring, hobject]
  | declared u =>
      have hplain := of_not_mem_reservedNames (hb u rfl)
      simp [nameFit, name, fit, hstring, hplain, hplain.2.2.2.2.2.symm]

theorem nameFit_object (hreference : b.IsReference → reference = some .unknown) :
    nameFit "Object" b.name reference = fit index .object b := by
  obtain ⟨hstring, hobject⟩ := listed_string_object
  cases b with
  | primitive q => simp [nameFit, name, fit, of_text q q, (of_text q q).2.2.1.symm]
  | box q =>
      simp [nameFit, name, fit, of_boxName q, hobject, hreference trivial,
        (of_boxName q).2.2.2.2.1.symm]
  | string => simp [nameFit, name, fit, hobject, hstring, hreference trivial]
  | object => simp [nameFit, name, fit]
  | declared u =>
      have hplain := of_not_mem_reservedNames (hb u rfl)
      simp [nameFit, name, fit, hobject, hplain, hreference trivial, hplain.2.2.2.2.1.symm]

theorem nameFit_declared {t : TypeSymbol} (ht : t.name ∉ reservedNames)
    (hreference : b.IsReference → reference = referenceFitOf index (.declared t) b) :
    nameFit t.name b.name reference = fit index (.declared t) b := by
  obtain ⟨hstring, hobject⟩ := listed_string_object
  have hplain := of_not_mem_reservedNames ht
  cases b with
  | primitive q =>
      have hne : t.name ≠ q.text := fun hname => ht (hname ▸ (of_text q q).2.1)
      simp [nameFit, name, fit, hne, (of_text q q).1, primitiveFit_of_not_reserved q ht]
  | box q =>
      have hne : t.name ≠ q.boxName := fun hname => ht (hname ▸ (of_boxName q).2.2.2.1)
      simp [nameFit, name, fit, hne, hplain, of_boxName q, hreference trivial, referenceFitOf]
  | string =>
      simp [nameFit, name, fit, hplain, hstring, hreference trivial, referenceFitOf]
  | object => simp [nameFit, name, fit, hplain, hobject]
  | declared u =>
      have huPlain := of_not_mem_reservedNames (hb u rfl)
      simp [nameFit, name, fit, hplain, huPlain, hreference trivial, referenceFitOf]

end NameFits

/-! ### Fits of texts -/

section Fits

variable {m : Method} {argument parameter : String} {view : Viewpoint}

theorem argumentFit_eq_nameFit {given wanted : String}
    (hvariable : index.isTypeVariable parameter m = false) (hnull : argument ≠ "null")
    (hgiven : TypeText.erase argument = given) (hwanted : TypeText.erase parameter = wanted)
    (harrays : TypeText.isArray given = false ∧ TypeText.isArray wanted = false) :
    index.argumentFit argument parameter m view =
      nameFit given wanted (index.referenceFit argument parameter m view) := by
  rw [argumentFit]
  simp [hvariable, hnull, hgiven, hwanted, harrays, nameFit]

/-- The index knows the supertypes of what it declares, and of nothing else. -/
theorem referenceFit_eq {a b : JavaType} {view' : Viewpoint}
    (hgiven : index.Means argument view a) (hwanted : index.Means parameter view' b)
    (hparameter : index.parameterType m parameter = index.resolveType parameter view')
    (ha : a.IsReference) (hb : b.IsReference) :
    index.referenceFit argument parameter m view = referenceFitOf index a b := by
  obtain ⟨t, ht, ha⟩ := hgiven.resolved.resolve_left (by rintro ⟨p, rfl⟩; exact ha)
  obtain ⟨u, hu, hb⟩ := hwanted.resolved.resolve_left (by rintro ⟨p, rfl⟩; exact hb)
  unfold referenceFit
  rw [ht, hparameter, hu]
  rcases ha with ⟨rfl, ht⟩ | ⟨hlibrary, ht⟩
  · rcases hb with ⟨rfl, hu⟩ | ⟨hlibrary, hu⟩
    · simp [ht, hu, referenceFitOf]
    · simp [hu, referenceFitOf_of_mem (.inr hlibrary)]
  · simp [ht, referenceFitOf_of_mem (.inl hlibrary)]

theorem name_ne_null {a : JavaType} (ha : a.IsPlain) : a.name ≠ "null" := by
  cases a with
  | primitive p => cases p <;> decide
  | box p => cases p <;> decide
  | string => decide
  | object => decide
  | declared t => exact (of_not_mem_reservedNames (ha t rfl)).1

/-- The index tells from the names how an argument fits a parameter. -/
theorem argumentFit_eq {a b : JavaType} (ha : index.javaType? argument view = some a)
    (hb : index.javaParameterType? m parameter = some b) (haPlain : a.IsPlain)
    (hbPlain : b.IsPlain) :
    index.argumentFit argument parameter m view = a.fit index b := by
  have hgiven := means_of_javaType? ha
  obtain ⟨hvariable, view', hwanted, hparameter⟩ := means_of_javaParameterType? hb
  have hnull : argument ≠ "null" := by
    rintro rfl
    exact name_ne_null haPlain (hgiven.name.symm.trans (by decide))
  have hreference := referenceFit_eq hgiven hwanted hparameter
  rw [argumentFit_eq_nameFit hvariable hnull hgiven.name hwanted.name
    ⟨hgiven.nameNotArray, hwanted.nameNotArray⟩]
  cases a with
  | primitive p => exact nameFit_primitive hbPlain p
  | box p => exact nameFit_box hbPlain p
  | string => exact nameFit_string hbPlain
  | object => exact nameFit_object hbPlain fun h => hreference trivial h
  | declared t => exact nameFit_declared hbPlain (haPlain t rfl) (hreference trivial)

end Fits

end CodeIndex

end EntryPoints
