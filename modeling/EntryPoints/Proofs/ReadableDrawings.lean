import EntryPoints.Proofs.DotLanguage
import EntryPoints.Proofs.DrawableRecords
import EntryPoints.Report

/-!
# Drawings that can be read back

A drawing is put together from fixed phrases and from names and labels between quotes.  So its
names and labels end where they were meant to end exactly when they are plain texts, and then the
drawing is read as the graph that is meant.

The record of a search can hold any texts, and it is drawn whatever they are.  A parameter type with
an annotation in it can already have quotes.
-/

namespace EntryPoints

open Dot

namespace Drawing

/-! ## A drawing in pieces -/

def opening : Phrase where
  text := header
  tokens := [.word "digraph", .word "TopCallers", .openBrace, .word "rankdir", .equals, .word "LR",
    .semicolon, .word "node", .openBracket, .word "shape", .equals, .word "box", .closeBracket,
    .semicolon]

def indent : Phrase where
  text := "  "
  tokens := []

def labelled : Phrase where
  text := " [label="
  tokens := [.openBracket, .word "label", .equals]

def queryStyle : Phrase where
  text := ", style=filled, fillcolor=lightgrey];\n"
  tokens := [.comma, .word "style", .equals, .word "filled", .comma, .word "fillcolor", .equals,
    .word "lightgrey", .closeBracket, .semicolon]

def callerStyle : Phrase where
  text := "];\n"
  tokens := [.closeBracket, .semicolon]

def pointing : Phrase where
  text := " -> "
  tokens := [.arrow]

def ending : Phrase where
  text := ";\n"
  tokens := [.semicolon]

def closing : Phrase where
  text := "\x7d\n"
  tokens := [.closeBrace]

def declarationPieces (node : Node) (style : Phrase) : List Piece :=
  [.fixed indent, .quoted node.id, .fixed labelled, .quoted node.label, .fixed style]

def edgePieces (start target : Node) : List Piece :=
  [.fixed indent, .quoted start.id, .fixed pointing, .quoted target.id, .fixed ending]

def callerPieces (query caller : Node) : List Piece :=
  declarationPieces caller callerStyle ++ edgePieces caller query

def pieces (drawing : Drawing) : List Piece :=
  .fixed opening :: declarationPieces drawing.query queryStyle ++
    drawing.callers.flatMap (callerPieces drawing.query) ++ [.fixed closing]

theorem toList_quote (text : String) : (quote text).toList = (Piece.quoted text).chars := by
  simp [quote, Piece.chars]

theorem toList_declaration (node : Node) (style : Phrase) {text : String}
    (hstyle : style.text = text ++ "];\n") :
    (node.declaration text).toList = (declarationPieces node style).flatMap Piece.chars := by
  simp [Node.declaration, toList_quote, declarationPieces, Piece.chars, indent, labelled, hstyle]

theorem toList_callerLines (query caller : Node) :
    (callerLines query caller).toList = (callerPieces query caller).flatMap Piece.chars := by
  rw [callerLines, String.toList_append, toList_declaration caller callerStyle rfl]
  simp [edge, callerPieces, edgePieces, toList_quote, Piece.chars, indent, pointing, ending]

theorem toList_dot (drawing : Drawing) :
    drawing.dot.toList = drawing.pieces.flatMap Piece.chars := by
  rw [dot, String.toList_append, String.toList_append, String.toList_append, String.toList_join,
    toList_declaration drawing.query queryStyle rfl, List.flatMap_map, pieces]
  simp [toList_callerLines, List.flatMap_assoc, Piece.chars, opening, closing]

/-! ## The graph of a drawing -/

/-- The tokens that are meant, with every name and label as a token of its own. -/
def tokens (drawing : Drawing) : List Token := drawing.pieces.flatMap Piece.tokens

/-- The graph that is meant. -/
def asGraph (drawing : Drawing) : Graph where
  name := "TopCallers"
  statements :=
    [.setting ⟨"rankdir", "LR"⟩, .defaults "node" [⟨"shape", "box"⟩],
      .path drawing.query.id []
        [⟨"label", drawing.query.label⟩, ⟨"style", "filled"⟩, ⟨"fillcolor", "lightgrey"⟩]] ++
    drawing.callers.flatMap fun caller =>
      [.path caller.id [] [⟨"label", caller.label⟩], .path caller.id [drawing.query.id] []]

variable {rest : List Token}

theorem statements_declaration (node : Node) (style : Phrase) (styling : List Attribute)
    (hstyle : attributes (.word "label" :: .equals :: .quoted node.label ::
      (style.tokens ++ rest)) = some (⟨"label", node.label⟩ :: styling, .semicolon :: rest)) :
    statements ((declarationPieces node style).flatMap Piece.tokens ++ rest) =
      (statements rest).map fun read =>
        (.path node.id [] (⟨"label", node.label⟩ :: styling) :: read.1, read.2) := by
  refine statements_cons ?_ ?_
  · simp [declarationPieces, Piece.tokens, indent, labelled, statement, targets, attributeList,
      Token.name?, hstyle]
  · simp [declarationPieces, Piece.tokens, indent, labelled]
    omega

theorem statements_edge (start target : Node) :
    statements ((edgePieces start target).flatMap Piece.tokens ++ rest) =
      (statements rest).map fun read => (.path start.id [target.id] [] :: read.1, read.2) := by
  refine statements_cons ?_ ?_
  · simp [edgePieces, Piece.tokens, indent, pointing, ending, statement, targets, attributeList,
      Token.name?]
  · simp [edgePieces, Piece.tokens, indent, pointing, ending]
    omega

theorem statements_query (node : Node) :
    statements ((declarationPieces node queryStyle).flatMap Piece.tokens ++ rest) =
      (statements rest).map fun read =>
        (.path node.id []
          [⟨"label", node.label⟩, ⟨"style", "filled"⟩, ⟨"fillcolor", "lightgrey"⟩] :: read.1,
          read.2) :=
  statements_declaration node queryStyle [⟨"style", "filled"⟩, ⟨"fillcolor", "lightgrey"⟩]
    (by simp [queryStyle, attributes, entry?, Token.name?, keywords])

theorem statements_caller (query caller : Node) :
    statements ((callerPieces query caller).flatMap Piece.tokens ++ rest) =
      (statements rest).map fun read =>
        (.path caller.id [] [⟨"label", caller.label⟩] :: .path caller.id [query.id] [] :: read.1,
          read.2) := by
  rw [callerPieces, List.flatMap_append, List.append_assoc,
    statements_declaration caller callerStyle []
      (by simp [callerStyle, attributes, entry?, Token.name?, keywords]), statements_edge]
  simp [Function.comp_def]

theorem statements_callers (query : Node) (callers : List Node) :
    statements ((callers.flatMap (callerPieces query)).flatMap Piece.tokens ++ rest) =
      (statements rest).map fun read =>
        ((callers.flatMap fun caller =>
          [.path caller.id [] [⟨"label", caller.label⟩], .path caller.id [query.id] []]) ++ read.1,
          read.2) := by
  induction callers with
  | nil => simp
  | cons caller callers ih =>
      rw [List.flatMap_cons, List.flatMap_append, List.append_assoc, statements_caller, ih]
      simp [Function.comp_def]

theorem statements_opening :
    statements (opening.tokens.drop 3 ++ rest) =
      (statements rest).map fun read =>
        (.setting ⟨"rankdir", "LR"⟩ :: .defaults "node" [⟨"shape", "box"⟩] :: read.1, read.2) := by
  have hrankdir : statement (opening.tokens.drop 3 ++ rest) =
      some (.setting ⟨"rankdir", "LR"⟩, .semicolon :: (opening.tokens.drop 7 ++ rest)) := by
    simp [opening, statement, entry?, Token.name?, keywords]
  have hnode : statement (opening.tokens.drop 7 ++ rest) =
      some (.defaults "node" [⟨"shape", "box"⟩], .semicolon :: rest) := by
    simp [opening, statement, statement.defaults, attributes, entry?, Token.name?, keywords]
  rw [statements_cons hrankdir (by simp [opening]), statements_cons hnode (by simp [opening]; omega)]
  simp [Function.comp_def]

theorem graph_tokens (drawing : Drawing) : graph drawing.tokens = some drawing.asGraph := by
  have htokens : drawing.tokens = .word "digraph" :: .word "TopCallers" :: .openBrace ::
      (opening.tokens.drop 3 ++
        ((declarationPieces drawing.query queryStyle).flatMap Piece.tokens ++
          ((drawing.callers.flatMap (callerPieces drawing.query)).flatMap Piece.tokens ++
            [.closeBrace]))) := by
    simp [tokens, pieces, Piece.tokens, opening, closing]
  have hclosing : statements [.closeBrace] = some ([], []) := by rw [statements]
  rw [htokens, graph, statements_opening, statements_query, statements_callers, hclosing]
  simp [Token.name?, keywords, asGraph]

theorem edges_asGraph (drawing : Drawing) :
    drawing.asGraph.edges = drawing.callers.map fun caller => (caller.id, drawing.query.id) := by
  simp [asGraph, Graph.edges, Statement.edges, List.flatMap_assoc, ← List.map_eq_flatMap]

/-- The texts between quotes, some of which are there more than once. -/
def texts (drawing : Drawing) : List String :=
  drawing.query.id :: drawing.query.label ::
    drawing.callers.flatMap fun caller => [caller.id, caller.label]

theorem quoted_mem_pieces_iff {drawing : Drawing} {text : String} :
    .quoted text ∈ drawing.pieces ↔ text ∈ drawing.texts := by
  simp only [pieces, declarationPieces, callerPieces, edgePieces, texts, List.mem_append,
    List.mem_cons, List.mem_flatMap, Piece.quoted.injEq, reduceCtorEq, List.not_mem_nil, or_false,
    false_or]
  grind

end Drawing

/-! ## Records with arbitrary texts -/

theorem joined_strings (separator : String) (texts : List String) :
    (Json.strings texts).joined separator = .ok (Text.joinWith separator texts) := by
  have htexts : Json.textsFrom 0 (texts.map .string) = .ok texts :=
    Json.textsFrom_eq_ok_iff.mpr rfl
  simp [Json.joined, Json.strings, Json.parts?, htexts, Except.map]

/-- The texts in the record of a method. -/
structure MethodTexts where
  qualifiedName : String
  parameterTypes : List String

namespace MethodTexts

/-- The qualified name with the parameters. -/
def signature (method : MethodTexts) : String :=
  method.qualifiedName ++ "(" ++ Text.joinWith ", " method.parameterTypes ++ ")"

def ofMethod (method : Method) : MethodTexts := ⟨method.qualifiedName, method.parameters⟩

/-- Whether a value is a record of a method with these texts. -/
structure IsIn (method : MethodTexts) (value : Json) : Prop where
  qualifiedName : value.HasMember "qualified_name" (· = .string method.qualifiedName)
  parameterTypes : value.HasMember "parameter_types" (· = .strings method.parameterTypes)

variable {method : MethodTexts} {value : Json}

theorem isIn_report (method : Method) : (ofMethod method).IsIn method.report where
  qualifiedName := ⟨_, _, rfl, rfl, rfl⟩
  parameterTypes := ⟨_, _, rfl, rfl, rfl⟩

theorem IsIn.idOf_eq (h : method.IsIn value) : Drawing.idOf value = .ok method.signature :=
  Drawing.idOf_eq_ok_iff.mpr ⟨_, _, _, Json.memberNamed_eq_ok_iff.mpr h.qualifiedName,
    Json.memberNamed_eq_ok_iff.mpr h.parameterTypes, joined_strings _ _, rfl⟩

theorem IsIn.callerNode_eq (h : method.IsIn value) : Drawing.callerNode value =
    .ok ⟨method.signature, Drawing.shortName method.qualifiedName⟩ := by
  rw [Drawing.callerNode, h.idOf_eq, Json.memberNamed_eq_ok_iff.mpr h.qualifiedName]
  rfl

end MethodTexts

/-- The texts in the record of a search. -/
structure SearchTexts where
  query : MethodTexts
  name : String
  callers : List MethodTexts

namespace SearchTexts

def ofResult (result : SearchResult) : SearchTexts where
  query := .ofMethod result.start
  name := result.start.name
  callers := (sortMethods result.topCallers).map .ofMethod

/-- Whether a value is a record of a search with these texts. -/
structure IsIn (search : SearchTexts) (results : Json) : Prop where
  query : results.HasMember "query" fun query =>
    search.query.IsIn query ∧ query.HasMember "name" (· = .string search.name)
  callers : results.HasMember "top_callers" fun callers =>
    ∃ records, callers = .array records ∧
      List.Forall₂ (fun record caller => caller.IsIn record) records search.callers

def drawing (search : SearchTexts) : Drawing where
  query := ⟨search.query.signature, search.name⟩
  callers := search.callers.map fun caller =>
    ⟨caller.signature, Drawing.shortName caller.qualifiedName⟩

/-- Whether a text is read as a graph in which every name and label of a search ends where it was
meant to end, and with one edge from every caller to the query, in order. -/
structure ReadsBack (search : SearchTexts) (text : String) : Prop where
  tokens : Dot.tokens text.toList = some search.drawing.tokens
  edges : ∃ graph, Dot.read text = some graph ∧
    graph.edges = search.callers.map fun caller => (caller.signature, search.query.signature)

variable {search : SearchTexts} {results : Json}

/-- A search is reported with the texts of its methods. -/
theorem isIn_report (result : SearchResult) : (ofResult result).IsIn result.report where
  query := ⟨_, _, rfl, rfl, MethodTexts.isIn_report result.start, ⟨_, _, rfl, rfl, rfl⟩⟩
  callers := ⟨_, _, rfl, rfl, _, rfl, by
    simp [ofResult, List.forall₂_map_left_iff, List.forall₂_map_right_iff, List.forall₂_same,
      MethodTexts.isIn_report]⟩

theorem ofRecord_eq (h : search.IsIn results) : Drawing.ofRecord results = .ok search.drawing := by
  obtain ⟨query, hquery, hmethod, hname⟩ := Json.exists_memberNamed_iff.mpr h.query
  obtain ⟨_, hcallers, records, rfl, hrecords⟩ := Json.exists_memberNamed_iff.mpr h.callers
  have hnode : Drawing.queryNode query = .ok search.drawing.query := by
    rw [Drawing.queryNode, hmethod.idOf_eq, Json.memberNamed_eq_ok_iff.mpr hname]
    rfl
  have hnodes : records.mapM Drawing.callerNode = .ok search.drawing.callers := by
    rw [mapM_eq_ok_iff, drawing, List.forall₂_map_right_iff]
    exact hrecords.imp fun record caller hcaller => hcaller.callerNode_eq
  have hlist : Drawing.callersOf results = .ok records := by
    rw [Drawing.callersOf, hcallers]
    rfl
  simp [Drawing.ofRecord, hquery, hnode, hlist, hnodes, bind, Except.bind, pure, Except.pure]

/-- The record of a search is drawn, and the drawing can be read back exactly when its names and
labels are plain. -/
theorem readsBack_iff (h : search.IsIn results) :
    ∃ drawing, Drawing.ofRecord results = .ok drawing ∧
      (search.ReadsBack drawing.dot ↔ ∀ text ∈ search.drawing.texts, Dot.isPlain text.toList) := by
  refine ⟨search.drawing, ofRecord_eq h, ?_⟩
  simp only [← Drawing.quoted_mem_pieces_iff]
  rw [← Dot.tokens_pieces_iff, ← Drawing.toList_dot]
  constructor
  · exact fun hreads => hreads.tokens
  · intro htokens
    refine ⟨htokens, search.drawing.asGraph, ?_, ?_⟩
    · rw [Dot.read, htokens]
      exact Drawing.graph_tokens search.drawing
    · simp [Drawing.edges_asGraph, drawing, Function.comp_def]

/-! ## A parameter type between quotes -/

/-- A search for the callers of a method with a parameter of some type. -/
def forParameter (type : String) : SearchTexts := ⟨⟨"A.f", [type]⟩, "f", [⟨"B.g", []⟩]⟩

def parameterRecord (type : String) : Json :=
  .object
    [("query", .object
      [("qualified_name", .string "A.f"), ("name", .string "f"),
        ("parameter_types", .strings [type])]),
      ("top_callers", .array
        [.object [("qualified_name", .string "B.g"), ("parameter_types", .strings [])]])]

theorem isIn_parameterRecord (type : String) : (forParameter type).IsIn (parameterRecord type) where
  query := ⟨_, _, rfl, rfl, ⟨⟨_, _, rfl, rfl, rfl⟩, ⟨_, _, rfl, rfl, rfl⟩⟩, ⟨_, _, rfl, rfl, rfl⟩⟩
  callers := ⟨_, _, rfl, rfl, _, rfl, .cons ⟨⟨_, _, rfl, rfl, rfl⟩, ⟨_, _, rfl, rfl, rfl⟩⟩ .nil⟩

theorem readsBack_parameter :
    (forParameter "List<String>").IsIn (parameterRecord "List<String>") ∧
      ∃ drawing, Drawing.ofRecord (parameterRecord "List<String>") = .ok drawing ∧
        (forParameter "List<String>").ReadsBack drawing.dot := by
  have hrecord := isIn_parameterRecord "List<String>"
  obtain ⟨drawing, hdrawing, hreads⟩ := readsBack_iff hrecord
  exact ⟨hrecord, drawing, hdrawing, hreads.mpr (by decide +kernel)⟩

/-- The text of an annotation ends the name of the query, which is then cut off. -/
theorem annotated_parameter_cut_off :
    ∃ drawing, Drawing.ofRecord (parameterRecord "List<@N(\"x\") String>") = .ok drawing ∧
      (Dot.read drawing.dot).map Dot.Graph.edges = some [("B.g()", "A.f(List<@N(")] ∧
      ¬(forParameter "List<@N(\"x\") String>").ReadsBack drawing.dot := by
  have hread : (Dot.read (forParameter "List<@N(\"x\") String>").drawing.dot).map
      Dot.Graph.edges = some [("B.g()", "A.f(List<@N(")] := by
    rw [Dot.read, Drawing.toList_dot]
    decide +kernel
  refine ⟨_, ofRecord_eq (isIn_parameterRecord _), hread, fun hback => ?_⟩
  obtain ⟨graph, hgraph, hedges⟩ := hback.edges
  rw [hgraph, Option.map_some, hedges] at hread
  exact absurd hread (by decide +kernel)

end SearchTexts

end EntryPoints
