import EntryPoints.Json.Access

/-!
# Drawings of search results

A drawing shows the query of a search and its top callers as a directed graph in the DOT
language.  The query and every caller have a node, named by the qualified name with the
parameters, and an edge leads from each caller to the query.  A caller is labelled with
the last two segments of its qualified name.

Names and labels stand between quotes as they are.
-/

namespace EntryPoints

structure Drawing.Node where
  id : String
  label : String
deriving DecidableEq, Repr, Inhabited

structure Drawing where
  query : Drawing.Node
  callers : List Drawing.Node
deriving DecidableEq, Repr, Inhabited

namespace Drawing

/-- The last two pieces of a qualified name, or the whole name when it has fewer. -/
def shortName (qualifiedName : String) : String :=
  let pieces := Text.splitOn '.' qualifiedName.toList
  String.ofList (['.'].intercalate (pieces.drop (pieces.length - 2)))

/-! ## Reading records -/

/-- The name of the node for the record of a method. -/
def idOf (method : Json) : Except ShapeFault String := do
  let name ← method.memberNamed "qualified_name"
  let parameters ← (← method.memberNamed "parameter_types").joined ", "
  return name.display ++ "(" ++ parameters ++ ")"

def queryNode (query : Json) : Except ShapeFault Node := do
  let id ← idOf query
  let name ← query.memberNamed "name"
  return ⟨id, name.display⟩

def callerNode (caller : Json) : Except ShapeFault Node := do
  let id ← idOf caller
  let name ← (← caller.memberNamed "qualified_name").asText
  return ⟨id, shortName name⟩

/-- The list of callers in the record of a search, which may be left out. -/
def callersOf (results : Json) : Except ShapeFault (List Json) :=
  match results.memberNamed "top_callers" with
  | .ok callers => callers.parts
  | .error _ => .ok []

def ofRecord (results : Json) : Except ShapeFault Drawing := do
  let query ← queryNode (← results.memberNamed "query")
  let callers ← (← callersOf results).mapM callerNode
  return ⟨query, callers⟩

/-! ## Writing DOT -/

def quote (text : String) : String := "\"" ++ text ++ "\""

def Node.declaration (node : Node) (style : String) : String :=
  "  " ++ quote node.id ++ " [label=" ++ quote node.label ++ style ++ "];\n"

def edge (start target : Node) : String :=
  "  " ++ quote start.id ++ " -> " ++ quote target.id ++ ";\n"

def callerLines (query caller : Node) : String := caller.declaration "" ++ edge caller query

def header : String := "digraph TopCallers \x7b\n  rankdir=LR;\n  node [shape=box];\n\n"

def dot (drawing : Drawing) : String :=
  header ++ drawing.query.declaration ", style=filled, fillcolor=lightgrey" ++
    String.join (drawing.callers.map (callerLines drawing.query)) ++ "\x7d\n"

end Drawing

end EntryPoints
