import EntryPoints.Code.TypeText
import EntryPoints.Index.Basic
import EntryPoints.Java.Library

/-!
# What a type text names

A type is resolved from where it is written.  Type parameters of the method and of the
types around come first, then qualified names, and then the first segment of the name is
looked up: among the types around and their members, the imports, the package, the
wildcard imports, the library, and last among all types if only one has that name.  What
cannot be found is taken for a type of the library.

Primitive types, arrays and lists of arguments name no type.
-/

namespace EntryPoints

/-- Where a name is written: in a file, in the body of a type, and maybe in a method. -/
structure Viewpoint where
  file : FileFacts
  owner : Option String
  method : Option MethodDecl := none
deriving Inhabited

/-- The types that a parameter has as bounds, or nothing when there is no such
parameter; a later parameter of the same name replaces an earlier one. -/
def boundsOf (name : String) (parameters : List (String × List String)) : Option (List String) :=
  (parameters.reverse.find? (·.1 == name)).map (·.2)

namespace CodeIndex

variable (index : CodeIndex)

def lookupQualified (name : String) : TypeSymbol :=
  match index.qualified? name with
  | some entry => entry.symbol
  | none => Library.externalType name

/-- The type that a simple name means in the body of a type: a member, or the type itself. -/
def seenFrom (name : String) (owner : TypeEntry) : Option TypeSymbol :=
  match index.type? (owner.decl.binaryName ++ "$" ++ name) with
  | some nested => some nested.symbol
  | none => if owner.decl.name = name ∧ !owner.decl.isAnonymous then some owner.symbol else none

def wildcardImport (name package : String) : Option TypeSymbol :=
  let candidate := package ++ "." ++ name
  match index.qualified? candidate with
  | some entry => some entry.symbol
  | none =>
    if Library.interfaces.contains candidate then some (Library.externalType candidate) else none

/-- The type that a simple name means in a file. -/
def seenInFile (name : String) (file : FileFacts) : Option TypeSymbol :=
  match file.imports.find? fun imported => TypeText.lastSegment imported == name with
  | some imported => some (index.lookupQualified imported)
  | none =>
    let sibling := if file.package = "" then name else file.package ++ "." ++ name
    match index.qualified? sibling with
    | some entry => some entry.symbol
    | none => file.wildcardImports.findSome? (index.wildcardImport name)

def onlyNamed (name : String) : Option TypeSymbol :=
  match index.simple.getD name [] with
  | [binaryName] => (index.type? binaryName).map (·.symbol)
  | _ => none

def resolveSimple (name : String) (view : Viewpoint) : Option TypeSymbol :=
  (index.ownersFrom view.owner).findSome? (index.seenFrom name)
    <|> index.seenInFile name view.file
    <|> if Library.languageTypes.contains name then
          some (Library.externalType ("java.lang." ++ name))
        else index.onlyNamed name

/-- The type that a dotted name means, given the meaning of its first segment. -/
def resolveNested (resolved : TypeSymbol) (rest : String) : Option TypeSymbol :=
  if rest = "" then some resolved
  else
    let inner := String.ofList (rest.toList.map fun c => if c = '.' then '$' else c)
    match index.type? (resolved.binaryName ++ "$" ++ inner) with
    | some nested => some nested.symbol
    | none =>
      if resolved.isExternal then
        some (Library.externalType (resolved.qualifiedName.getD "" ++ "." ++ rest))
      else none

def namesNoType (base : String) : Bool :=
  base == "" || Text.endsWith "]" base || TypeText.isVarargs base || Library.primitives.contains base

/-- Resolves a dotted name that is no type parameter. -/
def resolveName (base : String) (view : Viewpoint) : TypeSymbol :=
  match index.qualified? base with
  | some entry => entry.symbol
  | none =>
    let (head, rest) := Text.cutFirst '.' base.toList
    ((index.resolveSimple (String.ofList head) view).bind fun resolved =>
      index.resolveNested resolved (String.ofList rest)).getD (Library.externalType base)

/-- Resolves a type that cannot be a type parameter. -/
def resolveBound (text : String) (view : Viewpoint) : Option TypeSymbol :=
  let base := TypeText.base text
  if namesNoType base then none else some (index.resolveName base view)

/-- The type parameters in scope, those of the method first, then outwards. -/
def parameterScopes (view : Viewpoint) : List (String × List (String × List String)) :=
  (view.method.map fun m => (m.owner ++ "#" ++ m.name, m.typeParameters)).toList ++
    (index.ownersFrom view.owner).map fun owner =>
      (owner.decl.binaryName, owner.decl.typeParameters)

/-- The type parameter of a name that is in scope. -/
def typeParameter (name : String) (view : Viewpoint) : Option TypeSymbol :=
  (index.parameterScopes view).findSome? fun (scope, parameters) =>
    (boundsOf name parameters).map fun bounds =>
      { name
        binaryName := scope ++ "<" ++ name ++ ">"
        kind := .typeParameter
        bounds := bounds.filterMap fun text => index.resolveBound text view }

def resolveType (text : String) (view : Viewpoint) : Option TypeSymbol :=
  let base := TypeText.base text
  if namesNoType base then none
  else
    let (head, rest) := Text.cutFirst '.' base.toList
    (if rest = [] then index.typeParameter (String.ofList head) view else none)
      <|> some (index.resolveName base view)

end CodeIndex

end EntryPoints
