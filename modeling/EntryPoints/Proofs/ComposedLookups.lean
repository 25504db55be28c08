import EntryPoints.Search.Callers

/-!
# Lookups composed of lookups

A search asks about a call site in several lookups, where each one decides whether and about what
the next one asks.  What holds of every answer given without a lookup, and passes from lookups to
their composition, holds of these as well once it holds of the single lookups.
-/

namespace EntryPoints

variable {σ : Type}

/-- The property holds of lookups that ask nothing, and of one lookup after another. -/
structure IsComposable (P : {α : Type} → Lookup σ α → Prop) : Prop where
  pure : ∀ {α : Type} (a : α), P (Pure.pure a : Lookup σ α)
  bind : ∀ {α β : Type} {question : Lookup σ α} {next : α → Lookup σ β},
    P question → (∀ a, P (next a)) → P (question >>= next)

namespace IsComposable

variable {P : {α : Type} → Lookup σ α → Prop} (h : IsComposable P)

section Relations

variable {isSubtype : TypeSymbol → TypeSymbol → Lookup σ Bool}

include h

/-- After a lookup that says yes or no. -/
theorem test {α : Type} {question : Lookup σ Bool} {yes no : Lookup σ α} (hquestion : P question)
    (hyes : P yes) (hno : P no) :
    P (do if ← question then yes else no) := by
  refine h.bind hquestion fun found => ?_
  cases found with
  | true => exact hyes
  | false => exact hno

theorem comparable (hsubtype : ∀ a b, P (isSubtype a b)) (a b : TypeSymbol) :
    P (comparable isSubtype a b) :=
  h.test (hsubtype a b) (h.pure true) (hsubtype b a)

theorem anyComparable (hsubtype : ∀ a b, P (isSubtype a b)) (a : TypeSymbol)
    (bounds : List TypeSymbol) : P (anyComparable isSubtype a bounds) := by
  induction bounds with
  | nil => exact h.pure false
  | cons b rest ih => exact h.test (h.comparable hsubtype a b) (h.pure true) ih

theorem related (hsubtype : ∀ a b, P (isSubtype a b)) (expected receiver : TypeSymbol) :
    P (related isSubtype expected receiver) := by
  refine h.test (h.comparable hsubtype expected receiver) (h.pure true) ?_
  cases receiver.isTypeParameter with
  | true => exact h.anyComparable hsubtype expected receiver.bounds
  | false => exact h.pure false

omit h

mutual

theorem compatible (h : IsComposable P) (hsubtype : ∀ a b, P (isSubtype a b))
    (implementation : TypeSymbol) :
    ∀ receiver : TypeSymbol, P (compatible isSubtype implementation receiver)
  | ⟨qualifiedName, name, binaryName, kind, isAnonymous, isExternal, bounds, location⟩ => by
    unfold EntryPoints.compatible
    by_cases hinterface : kind = .interfaceType ∨ kind = .annotationType
    · rw [if_pos hinterface]
      exact h.pure true
    rw [if_neg hinterface]
    by_cases hparameter : kind = .typeParameter
    · rw [if_pos hparameter]
      cases bounds with
      | nil => exact h.pure true
      | cons bound rest =>
          exact h.test (h.compatible hsubtype implementation bound) (h.pure true)
            (h.anyCompatible hsubtype implementation rest)
    · rw [if_neg hparameter]
      exact hsubtype _ _

theorem anyCompatible (h : IsComposable P) (hsubtype : ∀ a b, P (isSubtype a b))
    (implementation : TypeSymbol) :
    ∀ bounds : List TypeSymbol, P (anyCompatible isSubtype implementation bounds)
  | [] => h.pure false
  | bound :: rest =>
    h.test (h.compatible hsubtype implementation bound) (h.pure true)
      (h.anyCompatible hsubtype implementation rest)

end

end Relations

include h in
theorem callerAt {base : KnowledgeBase σ} {site : CallSite}
    (hcomment : P (base.isInDocComment site.location))
    (henclosing : P (base.enclosingMethod site.location))
    (hsubtype : ∀ a b, P (base.isSubtypeOrSelf a b)) (expected : TypeSymbol)
    (implementation : Option TypeSymbol) : P (callerAt base expected implementation site) := by
  unfold EntryPoints.callerAt
  refine h.test hcomment (h.pure none) ?_
  cases site.receiver with
  | none => exact henclosing
  | some receiver =>
      refine h.test (h.related hsubtype expected receiver) ?_ (h.pure none)
      cases implementation with
      | none => exact henclosing
      | some owner =>
          exact h.test (h.compatible hsubtype owner receiver) henclosing (h.pure none)

end IsComposable

end EntryPoints
