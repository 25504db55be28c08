import EntryPoints.Proofs.MatchingIndexes
import EntryPoints.Proofs.OverrideDispatch

/-!
# Answers of matching indexes

Snapshots whose indexes match agree on everything that a search asks about methods and
types: on roots, on subtypes and on the method around a place.  They may differ in the call
sites and lambdas that they list.  Whether a site counts, and which method it counts for,
is decided alike by both.
-/

namespace EntryPoints

/-- Two records that may differ in the call sites and lambdas that they list. -/
structure Answers.Alike (first second : Answers) : Prop where
  overriddenRoots : ∀ m, second.overriddenRoots m = first.overriddenRoots m
  enclosingMethod : ∀ place, second.enclosingMethod place = first.enclosingMethod place
  isSubtypeOrSelf : ∀ sub sup, second.isSubtypeOrSelf sub sup = first.isSubtypeOrSelf sub sup
  isInDocComment : ∀ place, second.isInDocComment place = first.isInDocComment place
  productionScope : second.productionScope = first.productionScope

namespace Answers.Alike

variable {first second : Answers} (h : first.Alike second)

include h

theorem comparable (a b : TypeSymbol) : second.comparable a b = first.comparable a b := by
  unfold Answers.comparable
  rw [h.isSubtypeOrSelf, h.isSubtypeOrSelf]

theorem related (expected receiver : TypeSymbol) :
    second.related expected receiver = first.related expected receiver := by
  unfold Answers.related
  rw [h.comparable, funext (h.comparable expected)]

omit h in
mutual

theorem compatible (h : first.Alike second) (implementation : TypeSymbol) : ∀ receiver,
    second.compatible implementation receiver = first.compatible implementation receiver
  | ⟨qualifiedName, name, binaryName, kind, isAnonymous, isExternal, bounds, location⟩ => by
    unfold Answers.compatible
    rw [h.anyCompatible implementation bounds, h.isSubtypeOrSelf]

theorem anyCompatible (h : first.Alike second) (implementation : TypeSymbol) : ∀ bounds,
    second.anyCompatible implementation bounds = first.anyCompatible implementation bounds
  | [] => by
    unfold Answers.anyCompatible
    rfl
  | bound :: rest => by
    unfold Answers.anyCompatible
    rw [h.compatible implementation bound, h.anyCompatible implementation rest]

end

theorem accepts (expected : TypeSymbol) (implementation : Option TypeSymbol) (site : CallSite) :
    second.accepts expected implementation site = first.accepts expected implementation site := by
  unfold Answers.accepts
  simp only [h.isInDocComment, h.related, h.compatible]

theorem callerAt (expected : TypeSymbol) (implementation : Option TypeSymbol) (site : CallSite) :
    second.callerAt expected implementation site =
      first.callerAt expected implementation site := by
  unfold Answers.callerAt
  rw [h.accepts, h.enclosingMethod]

theorem expressionOwner (expression : FunctionalExpression) :
    second.expressionOwner expression = first.expressionOwner expression := by
  unfold Answers.expressionOwner
  rw [h.isInDocComment, h.enclosingMethod]

theorem creatorOf (m : Method) : second.creatorOf m = first.creatorOf m := by
  unfold Answers.creatorOf
  rw [funext h.enclosingMethod]

theorem isFunctional (names : List String) (m : Method) :
    second.isFunctional names m = first.isFunctional names m := by
  unfold Answers.isFunctional
  rw [h.overriddenRoots]

end Answers.Alike

namespace CodeIndex.Matches

variable {change : FileFacts → FileFacts} {index other : CodeIndex}
  (h : Matches change index other)

include h

theorem resolveCall (file : FileFacts) (call : Invocation) :
    other.resolve (other.viewOf (change file) call.owner call.method) call =
      index.resolve (index.viewOf file call.owner call.method) call := by
  rw [h.viewOf, h.resolve]

theorem resolveUse (file : FileFacts) (use : FunctionalUse) :
    other.targetType use (other.viewOf (change file) use.owner use.method) =
      index.targetType use (index.viewOf file use.owner use.method) := by
  rw [h.viewOf, h.targetType]

end CodeIndex.Matches

theorem Snapshot.docComments_ofFiles (files : List FileFacts) (scope : Scope) (path : String) :
    (ofFiles files scope).docComments[path]? =
      ((files.filter fun file => !file.docComments.isEmpty).reverse.find? (·.file == path)).map
        (·.docComments) := by
  change (Std.HashMap.ofList _)[path]? = _
  rw [getElem?_ofList, ← List.map_reverse, List.find?_map, Option.map_map]
  rfl

/-- Snapshots of matching indexes give records that are alike. -/
theorem Snapshot.alike_answers {change : FileFacts → FileFacts} {snapshot other : Snapshot}
    (h : snapshot.index.Matches change other.index)
    (hcomments : ∀ place, other.isInDocComment place = snapshot.isInDocComment place)
    (hscope : other.scope = snapshot.scope) : snapshot.answers.Alike other.answers where
  overriddenRoots := h.roots
  enclosingMethod place := congrArg (narrowestAround place) (h.methodsOfFile place.file)
  isSubtypeOrSelf := h.isSubtypeOrSelf
  isInDocComment := hcomments
  productionScope := hscope

end EntryPoints
