import EntryPoints.Code.Symbol

/-!
# What is known of the library

The types that every Java file can mention without declaring or importing them, the
interfaces of the library that matter to a call graph, and the conversions between
primitive types and their boxes.

A functional interface is one with a single method that lambdas implement.  Library
methods that are known to take a callback are listed by name with the interface of that
callback; where the name is not enough, the type of the receiver decides.
-/

namespace EntryPoints.Library

def primitives : List String :=
  ["boolean", "byte", "char", "short", "int", "long", "float", "double", "void", "var"]

/-- The types of the package `java.lang` that are recognised by their simple names. -/
def languageTypes : List String :=
  ["Object", "String", "Runnable", "Thread", "Integer", "Long", "Boolean", "Double", "Float",
    "Short", "Byte", "Character", "Number", "Math", "System", "Iterable", "Comparable",
    "Exception", "RuntimeException", "Throwable", "Error", "StringBuilder", "Class", "Enum",
    "Record", "Void", "AutoCloseable", "CharSequence"]

/-- The one method of a functional interface. -/
structure InterfaceMethod where
  owner : String
  name : String
  returnType : String
  parameters : List String
deriving DecidableEq, Repr

def functionalInterfaces : List InterfaceMethod :=
  [ ⟨"java.util.function.Consumer", "accept", "void", ["T"]⟩,
    ⟨"java.util.function.BiConsumer", "accept", "void", ["T", "U"]⟩,
    ⟨"java.util.function.Function", "apply", "R", ["T"]⟩,
    ⟨"java.util.function.BiFunction", "apply", "R", ["T", "U"]⟩,
    ⟨"java.util.function.Supplier", "get", "T", []⟩,
    ⟨"java.util.function.Predicate", "test", "boolean", ["T"]⟩,
    ⟨"java.util.function.BiPredicate", "test", "boolean", ["T", "U"]⟩,
    ⟨"java.util.function.UnaryOperator", "apply", "T", ["T"]⟩,
    ⟨"java.util.function.BinaryOperator", "apply", "T", ["T", "T"]⟩,
    ⟨"java.lang.Runnable", "run", "void", []⟩,
    ⟨"java.util.concurrent.Callable", "call", "V", []⟩,
    ⟨"org.springframework.transaction.support.TransactionCallback", "doInTransaction", "T",
      ["TransactionStatus"]⟩,
    ⟨"org.springframework.jdbc.core.RowMapper", "mapRow", "T", ["ResultSet", "int"]⟩,
    ⟨"org.springframework.jdbc.core.ResultSetExtractor", "extractData", "T", ["ResultSet"]⟩ ]

def interfaces : List String :=
  ["java.lang.Iterable", "java.lang.Comparable", "java.lang.CharSequence",
    "java.lang.AutoCloseable", "java.util.Collection", "java.util.List", "java.util.Set",
    "java.util.Map", "java.util.Queue", "java.util.Deque", "java.util.Iterator",
    "java.util.Comparator", "java.util.stream.Stream", "java.util.concurrent.Executor",
    "java.util.concurrent.ExecutorService"] ++ functionalInterfaces.map (·.owner)

/-- A type that is mentioned but not declared in the indexed sources. -/
def externalType (qualifiedName : String) : TypeSymbol where
  qualifiedName := some qualifiedName
  name := String.ofList (Text.afterLast '.' qualifiedName.toList)
  binaryName := qualifiedName
  kind := if interfaces.contains qualifiedName then .interfaceType else .classType
  isExternal := true

/-- The method of a functional interface, if a type is one. -/
def methodOf (type : TypeSymbol) : Option Method :=
  (functionalInterfaces.find? fun i => some i.owner == type.qualifiedName).map fun i =>
    { owner := type
      name := i.name
      parameters := i.parameters
      returnType := some i.returnType
      isAbstract := true }

/-- The type parameters of the library are single capitals. -/
def isTypeVariable (name : String) : Bool :=
  match name.toList with
  | [c] => c.isUpper
  | _ => false

/-! ## Callbacks -/

def callbacks : List (String × String) :=
  [ ("forEach", "java.util.function.Consumer"),
    ("forEachOrdered", "java.util.function.Consumer"),
    ("forEachRemaining", "java.util.function.Consumer"),
    ("peek", "java.util.function.Consumer"),
    ("ifPresent", "java.util.function.Consumer"),
    ("thenAccept", "java.util.function.Consumer"),
    ("map", "java.util.function.Function"),
    ("flatMap", "java.util.function.Function"),
    ("computeIfAbsent", "java.util.function.Function"),
    ("thenApply", "java.util.function.Function"),
    ("filter", "java.util.function.Predicate"),
    ("anyMatch", "java.util.function.Predicate"),
    ("allMatch", "java.util.function.Predicate"),
    ("noneMatch", "java.util.function.Predicate"),
    ("removeIf", "java.util.function.Predicate"),
    ("orElseGet", "java.util.function.Supplier"),
    ("supplyAsync", "java.util.function.Supplier"),
    ("generate", "java.util.function.Supplier"),
    ("runAsync", "java.lang.Runnable"),
    ("execute", "java.lang.Runnable"),
    ("submit", "java.lang.Runnable"),
    ("Thread", "java.lang.Runnable"),
    ("query", "org.springframework.jdbc.core.RowMapper") ]

/-- The callback of a library method, by the simple name of its receiver. -/
def callbackOf (receiver method : String) : Option String :=
  if receiver = "TransactionTemplate" ∧ method = "execute" then
    some "org.springframework.transaction.support.TransactionCallback"
  else callbacks.lookup method

/-! ## Conversions -/

def boxes : List (String × String) :=
  [("boolean", "Boolean"), ("byte", "Byte"), ("char", "Character"), ("short", "Short"),
    ("int", "Integer"), ("long", "Long"), ("float", "Float"), ("double", "Double")]

def boxOf (primitive : String) : Option String := boxes.lookup primitive

def widerThan (primitive : String) : List String :=
  match primitive with
  | "byte" => ["short", "int", "long", "float", "double"]
  | "short" | "char" => ["int", "long", "float", "double"]
  | "int" => ["long", "float", "double"]
  | "long" => ["float", "double"]
  | "float" => ["double"]
  | _ => []

/-- Types without subtypes; they fit nothing but the ancestors that follow. -/
def finalTypes : List String := "String" :: boxes.map (·.2)

def finalAncestors : List String :=
  ["Object", "Serializable", "Comparable", "CharSequence", "Number"]

end EntryPoints.Library
