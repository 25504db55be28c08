import EntryPoints.Code.Location
import EntryPoints.Text.Pieces

/-!
# Types and methods

A type is known by a binary name, which every type has (`p.Outer$1`), and by a
qualified name, which anonymous and local classes lack.  A method is known by
its declaring type, its name and its signature.

Two symbols are the same when they agree in everything but where they are
declared.  `bare` forgets the declaration sites, and `same_iff` says that
sameness is equality of the bare symbols; hence it is an equivalence, and every
function of this module other than `bare` respects it.
-/

namespace EntryPoints

inductive TypeKind where
  | classType
  | interfaceType
  | enumType
  | recordType
  | annotationType
  | typeParameter
  | other (label : String)
deriving DecidableEq, Repr, Inhabited

def TypeKind.label : TypeKind → String
  | .classType => "class"
  | .interfaceType => "interface"
  | .enumType => "enum"
  | .recordType => "record"
  | .annotationType => "annotation"
  | .typeParameter => "type_parameter"
  | .other label => label

def TypeKind.ofLabel (label : String) : TypeKind :=
  match [TypeKind.classType, .interfaceType, .enumType, .recordType, .annotationType,
      .typeParameter].find? (·.label == label) with
  | some kind => kind
  | none => .other label

/-- A type, or a type parameter with its bounds. -/
structure TypeSymbol where
  qualifiedName : Option String := none
  name : String := ""
  binaryName : String := ""
  kind : TypeKind := .classType
  isAnonymous : Bool := false
  /-- Whether the type is mentioned but not declared in the indexed sources. -/
  isExternal : Bool := false
  bounds : List TypeSymbol := []
  location : Option Location := none
deriving Repr, Inhabited

namespace TypeSymbol

mutual

/-- The type without its declaration site and those of its bounds. -/
def bare : TypeSymbol → TypeSymbol
  | ⟨qualifiedName, name, binaryName, kind, isAnonymous, isExternal, bounds, _⟩ =>
    ⟨qualifiedName, name, binaryName, kind, isAnonymous, isExternal, bareAll bounds, none⟩

def bareAll : List TypeSymbol → List TypeSymbol
  | [] => []
  | t :: ts => bare t :: bareAll ts

end

mutual

/-- Whether two types agree in everything but declaration sites. -/
def same : TypeSymbol → TypeSymbol → Bool
  | ⟨q, n, b, k, a, e, bounds, _⟩, ⟨q', n', b', k', a', e', bounds', _⟩ =>
    b == b' && n == n' && q == q' && k == k' && a == a' && e == e' && sameAll bounds bounds'

def sameAll : List TypeSymbol → List TypeSymbol → Bool
  | [], [] => true
  | t :: ts, u :: us => same t u && sameAll ts us
  | _, _ => false

end

mutual

theorem same_iff : ∀ t u : TypeSymbol, t.same u = true ↔ t.bare = u.bare
  | ⟨q, n, b, k, a, e, bounds, _⟩, ⟨q', n', b', k', a', e', bounds', _⟩ => by
    have ih := sameAll_iff bounds bounds'
    simp only [same, bare, Bool.and_eq_true, beq_iff_eq, ih, TypeSymbol.mk.injEq]
    constructor
    · rintro ⟨⟨⟨⟨⟨⟨hb, hn⟩, hq⟩, hk⟩, ha⟩, he⟩, hs⟩
      exact ⟨hq, hn, hb, hk, ha, he, hs, trivial⟩
    · rintro ⟨hq, hn, hb, hk, ha, he, hs, _⟩
      exact ⟨⟨⟨⟨⟨⟨hb, hn⟩, hq⟩, hk⟩, ha⟩, he⟩, hs⟩

theorem sameAll_iff : ∀ ts us : List TypeSymbol, sameAll ts us = true ↔ bareAll ts = bareAll us
  | [], [] => by simp [sameAll, bareAll]
  | [], _ :: _ => by simp [sameAll, bareAll]
  | _ :: _, [] => by simp [sameAll, bareAll]
  | t :: ts, u :: us => by
    simp [sameAll, bareAll, same_iff t u, sameAll_iff ts us]

end

instance : BEq TypeSymbol := ⟨same⟩

theorem beq_iff {t u : TypeSymbol} : (t == u) = true ↔ t.bare = u.bare := same_iff t u

instance : EquivBEq TypeSymbol where
  rfl := beq_iff.2 rfl
  symm h := beq_iff.2 (beq_iff.1 h).symm
  trans h k := beq_iff.2 ((beq_iff.1 h).trans (beq_iff.1 k))

instance : Hashable TypeSymbol := ⟨fun t => mixHash (hash t.binaryName) (hash t.name)⟩

theorem binaryName_eq_of_beq {t u : TypeSymbol} (h : (t == u) = true) :
    t.binaryName = u.binaryName := by
  have := beq_iff.1 h
  cases t; cases u; simp only [bare, TypeSymbol.mk.injEq] at this; exact this.2.2.1

theorem name_eq_of_beq {t u : TypeSymbol} (h : (t == u) = true) : t.name = u.name := by
  have := beq_iff.1 h
  cases t; cases u; simp only [bare, TypeSymbol.mk.injEq] at this; exact this.2.1

theorem qualifiedName_eq_of_beq {t u : TypeSymbol} (h : (t == u) = true) :
    t.qualifiedName = u.qualifiedName := by
  have := beq_iff.1 h
  cases t; cases u; simp only [bare, TypeSymbol.mk.injEq] at this; exact this.1

instance : LawfulHashable TypeSymbol where
  hash_eq t u h := by
    simp [hash, binaryName_eq_of_beq h, name_eq_of_beq h]

def isInterface (t : TypeSymbol) : Bool :=
  t.kind == .interfaceType || t.kind == .annotationType

def isTypeParameter (t : TypeSymbol) : Bool := t.kind == .typeParameter

end TypeSymbol

def firstNonempty : List String → Option String := List.find? (· ≠ "")

/-- The name by which a type is shown: the first of its names that is not empty. -/
def TypeSymbol.displayName (t : TypeSymbol) : String :=
  (firstNonempty [t.qualifiedName.getD "", t.binaryName]).getD t.name

/-- A method or constructor declaration. -/
structure Method where
  owner : TypeSymbol
  name : String
  parameters : List String := []
  /-- Absent for constructors. -/
  returnType : Option String := none
  isConstructor : Bool := false
  isAbstract : Bool := false
  isStatic : Bool := false
  location : Option Location := none
deriving Repr, Inhabited

namespace Method

/-- Everything that tells two methods apart. -/
def identity (m : Method) :
    TypeSymbol × String × List String × Option String × Bool × Bool × Bool :=
  (m.owner.bare, m.name, m.parameters, m.returnType, m.isConstructor, m.isAbstract, m.isStatic)

instance : BEq Method where
  beq m n :=
    m.name == n.name && m.parameters == n.parameters && m.returnType == n.returnType &&
      m.isConstructor == n.isConstructor && m.isAbstract == n.isAbstract &&
      m.isStatic == n.isStatic && m.owner == n.owner

theorem beq_iff {m n : Method} : (m == n) = true ↔ m.identity = n.identity := by
  change (_ && _) = true ↔ _
  simp only [Bool.and_eq_true, beq_iff_eq, TypeSymbol.beq_iff, identity, Prod.mk.injEq]
  constructor
  · rintro ⟨⟨⟨⟨⟨⟨hn, hp⟩, hr⟩, hc⟩, ha⟩, hs⟩, ho⟩
    exact ⟨ho, hn, hp, hr, hc, ha, hs⟩
  · rintro ⟨ho, hn, hp, hr, hc, ha, hs⟩
    exact ⟨⟨⟨⟨⟨⟨hn, hp⟩, hr⟩, hc⟩, ha⟩, hs⟩, ho⟩

instance : EquivBEq Method where
  rfl := beq_iff.2 rfl
  symm h := beq_iff.2 (beq_iff.1 h).symm
  trans h k := beq_iff.2 ((beq_iff.1 h).trans (beq_iff.1 k))

instance : Hashable Method :=
  ⟨fun m => mixHash (hash m.owner) (mixHash (hash m.name) (hash m.parameters))⟩

instance : LawfulHashable Method where
  hash_eq m n h := by
    have id := beq_iff.1 h
    simp only [identity, Prod.mk.injEq] at id
    have owner : hash m.owner = hash n.owner :=
      LawfulHashable.hash_eq _ _ (TypeSymbol.beq_iff.2 id.1)
    change mixHash (hash m.owner) _ = mixHash (hash n.owner) _
    rw [owner, id.2.1, id.2.2.1]

def qualifiedName (m : Method) : String := m.owner.displayName ++ "." ++ m.name

/-- The name with its parameter types, as written in a declaration. -/
def signature (m : Method) : String :=
  m.name ++ "(" ++ Text.joinWith ", " m.parameters ++ ")"

def arity (m : Method) : Nat := m.parameters.length

/-- Whether the last parameter takes any number of arguments. -/
def isVarargs (m : Method) : Bool :=
  match m.parameters.getLast? with
  | some last => Text.endsWith "..." last
  | none => false

def keyOwner (m : Method) : String :=
  (firstNonempty [m.owner.qualifiedName.getD "", m.owner.binaryName]).getD "UnknownClass"

/-- The text by which searches tell methods apart: return type, owner, name and
parameter types. -/
def key (m : Method) : String :=
  (firstNonempty [m.returnType.getD ""]).getD "void" ++ " " ++ m.keyOwner ++ "." ++ m.name ++
    "(" ++ Text.joinWith "," m.parameters ++ ")"

/-- Methods that are the same have the same key, wherever they are declared. -/
theorem key_eq_of_beq {m n : Method} (h : (m == n) = true) : m.key = n.key := by
  have id := beq_iff.1 h
  simp only [identity, Prod.mk.injEq] at id
  have owner : (m.owner == n.owner) = true := TypeSymbol.beq_iff.2 id.1
  simp [key, keyOwner, TypeSymbol.qualifiedName_eq_of_beq owner,
    TypeSymbol.binaryName_eq_of_beq owner, id.2.1, id.2.2.1, id.2.2.2.1]

end Method

end EntryPoints
