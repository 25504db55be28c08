import EntryPoints.Search.Run
import EntryPoints.Code.MethodSet

/-!
# Methods that are never called by name

A method of an anonymous or local class runs where the object was created, and the
method of a functional interface runs where the lambda or method reference was
written.  Such a method is replaced by the methods from which the call really
starts; the first of the two rules wins.

Failures count as "nothing found", unless they ask the search to stop.
-/

namespace EntryPoints

variable {σ ρ : Type}

/-- Methods of well-known interfaces that are implemented by lambdas. -/
def functionalMethods : List String :=
  [ "java.util.function.Consumer.accept",
    "java.util.function.BiConsumer.accept",
    "java.util.function.Function.apply",
    "java.util.function.BiFunction.apply",
    "java.util.function.Supplier.get",
    "java.util.function.Predicate.test",
    "java.util.function.BiPredicate.test",
    "java.util.function.UnaryOperator.apply",
    "java.util.function.BinaryOperator.apply",
    "java.lang.Runnable.run",
    "java.util.concurrent.Callable.call",
    "java.util.stream.Stream.forEach",
    "java.util.stream.Stream.map",
    "java.util.stream.Stream.filter",
    "java.util.stream.Stream.flatMap",
    "org.springframework.transaction.support.TransactionCallback.doInTransaction",
    "org.springframework.jdbc.core.RowMapper.mapRow",
    "org.springframework.jdbc.core.ResultSetExtractor.extractData" ]

/-- Whether a list of names has the method under its owner's qualified name. -/
def Method.isListedIn (names : List String) (m : Method) : Bool :=
  match m.owner.qualifiedName with
  | none => false
  | some owner => names.contains (owner ++ "." ++ m.name)

/-- Turns a failure into an answer, unless it asks the search to stop. -/
def Run.recover {α : Type} (answer : α) (action : Run σ ρ α) : Run σ ρ α :=
  tryCatch action fun failure =>
    if failure.isCancellation then throw failure else return answer

namespace Setting

variable (setting : Setting σ ρ)

/-- The method that creates the objects of an anonymous or local class. -/
def creatorOf (m : Method) : Run σ ρ (Option Method) :=
  if m.owner.isAnonymous || m.owner.qualifiedName.isNone then
    match m.owner.location with
    | none => return none
    | some place => Run.recover none (Run.lookup (setting.base.enclosingMethod place))
  else return none

/-- Whether a method, or one that it overrides, is implemented by lambdas. -/
def isFunctional (m : Method) : Run σ ρ Bool :=
  if m.isListedIn setting.functional then return true
  else Run.recover false do
    let roots ← Run.lookup (setting.base.overriddenRoots m)
    return roots.any (Method.isListedIn setting.functional)

/-- The method that encloses a functional expression, unless the expression stands in
a documentation comment. -/
def expressionOwner (expression : FunctionalExpression) : Run σ ρ (Option Method) := do
  if ← Run.lookup (setting.base.isInDocComment expression.location) then return none
  Run.lookup (setting.base.enclosingMethod expression.location)

def gatherExpressions :
    List FunctionalExpression → MethodSet → StateM (RunState σ ρ) (MethodSet × Option Failure)
  | [], owners => return (owners, none)
  | expression :: rest, owners => do
    match ← setting.checkpoint.run with
    | .error failure => return (owners, some failure)
    | .ok () =>
      match ← (expressionOwner setting expression).run with
      | .error failure => return (owners, some failure)
      | .ok none => gatherExpressions rest owners
      | .ok (some owner) => gatherExpressions rest (owners.insert owner)

/-- The methods that hold a lambda or method reference for the interface of `m`. -/
def lambdaOwners (m : Method) : Run σ ρ (List Method) := do
  setting.checkpoint
  let expressions ←
    Run.askBase (setting.base.functionalImplementations m.owner setting.scope)
  match ← ExceptT.lift (gatherExpressions setting expressions.items .empty) with
  | (owners, failure) =>
    match failure <|> expressions.failure with
    | some failure =>
      if failure.isCancellation then throw failure else return owners.toList
    | none => return owners.toList

/-- The methods that stand in for `m`, or nothing when `m` stands for itself. -/
def substitutes (m : Method) : Run σ ρ (Option (List Method)) := do
  match ← setting.creatorOf m with
  | some creator => return some [creator]
  | none =>
    if ← setting.isFunctional m then
      match ← setting.lambdaOwners m with
      | [] => return none
      | owners => return some owners
    else return none

end Setting

end EntryPoints
