import EntryPoints.Json.Basic
import EntryPoints.Service

/-!
# Results as records

The records in which methods, search results and statement callers are reported and
saved.
-/

namespace EntryPoints

def TypeSymbol.report (t : TypeSymbol) : List (String × Json) :=
  [("qualified_name", .ofOption .string t.qualifiedName),
    ("name", .string t.name),
    ("binary_name", .string t.binaryName),
    ("kind", .string t.kind.label),
    ("is_anonymous", .bool t.isAnonymous),
    ("is_external", .bool t.isExternal)]

def Method.report (m : Method) : Json :=
  .object
    [("qualified_name", .string m.qualifiedName),
      ("owner", .string m.owner.displayName),
      ("name", .string m.name),
      ("parameter_types", .strings m.parameters),
      ("return_type", .ofOption .string m.returnType),
      ("is_constructor", .bool m.isConstructor),
      ("file_path", .ofOption (fun l => .string l.file) m.location),
      ("start_line", .ofOption (fun l => .int l.line) m.location)]

/-- Whether one method is listed before another: by qualified name, then by
parameter types. -/
def Method.listedBefore (m n : Method) : Bool :=
  if m.qualifiedName = n.qualifiedName then
    !(n.parameters.lex m.parameters fun a b => decide (a < b))
  else decide (m.qualifiedName < n.qualifiedName)

def sortMethods (ms : List Method) : List Method := ms.mergeSort Method.listedBefore

def SearchResult.report (r : SearchResult) : Json :=
  .object
    [("query", r.start.report),
      ("top_callers", .array ((sortMethods r.topCallers).map Method.report)),
      ("summary", .object
        [("total_top_callers", .ofNat r.topCallers.length),
          ("visited_methods", .ofNat r.visitedCount),
          ("processed_items", .ofNat r.processedCount),
          ("truncated", .bool r.truncated),
          ("truncated_methods", .strings r.truncatedKeys)])]

def StatementCaller.report (c : StatementCaller) : Json :=
  .object
    [("statement_id", .string c.statementId),
      ("simple_statement_id", .string c.simpleId),
      ("statement_comment", .string c.comment),
      ("method", c.method.report)]

def Snapshot.Summary.report (s : Snapshot.Summary) : List (String × Json) :=
  [("total_files", .ofNat s.files),
    ("production_files", .ofNat s.productionFiles),
    ("total_types", .ofNat s.types),
    ("total_methods", .ofNat s.methods),
    ("total_invocations", .ofNat s.invocations),
    ("total_functional_expressions", .ofNat s.functionalExpressions)]

def Service.Summary.report (s : Service.Summary) : List (String × Json) :=
  s.index.report ++
    [("repository_path", .ofOption .string s.repository),
      ("cached_caller_sets", .ofNat s.cachedCallerSets)]

end EntryPoints
