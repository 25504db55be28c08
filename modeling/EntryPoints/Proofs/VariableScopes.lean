import EntryPoints.Proofs.Sites

/-!
# The scopes of variables

A declaration of a variable has a scope, the part of the text in which its name stands for it.  A
local variable is in scope from its own declarator to the end of its block, a resource from its own
declaration to the end of the block of its try, the variable of a loop, a parameter and the
variable of a catch in the body that belongs to it, and a field in the whole body of its type.

The analysis asks the constructs around a name, the innermost first, whether they declare it, and
not where in them the name stands.  So it overlooks no such declaration that is in scope, but it
may find one that is not.
-/

namespace EntryPoints

open Java

namespace Java

/-- Whether an offset lies in a part of the text. -/
def Span.Covers (span : Span) (offset : Nat) : Prop := span.start ≤ offset ∧ offset < span.stop

instance (span : Span) (offset : Nat) : Decidable (span.Covers offset) :=
  inferInstanceAs (Decidable (_ ∧ _))

/-- Whether a part of the text lies in another one. -/
def Span.IsIn (inner outer : Span) : Prop := outer.start ≤ inner.start ∧ inner.stop ≤ outer.stop

instance (inner outer : Span) : Decidable (inner.IsIn outer) :=
  inferInstanceAs (Decidable (_ ∧ _))

theorem Span.IsIn.trans {a b c : Span} (hab : a.IsIn b) (hbc : b.IsIn c) : a.IsIn c :=
  ⟨Nat.le_trans hbc.1 hab.1, Nat.le_trans hab.2 hbc.2⟩

theorem Span.Covers.mono {inner outer : Span} {offset : Nat} (h : inner.Covers offset)
    (hin : inner.IsIn outer) : outer.Covers offset :=
  ⟨Nat.le_trans hin.1 h.1, Nat.lt_of_lt_of_le h.2 hin.2⟩

end Java

/-! ## Declarations and their scopes -/

/-- A declaration of a name: what it says about the type, the construct that makes it, and where
it is in scope. -/
structure Binding where
  meaning : Declared
  construct : Span
  scope : Span
deriving DecidableEq

namespace Java

/-- The kinds of constructs behind which no name is bound by a pattern in them. -/
def Kind.endsPatterns (kind : Kind) : Bool :=
  [Kind.block, .constructorBody, .switchGroup, .switchRule, .lambda, .fieldDeclaration,
    .constantDeclaration, .classBody, .interfaceBody, .enumBody, .annotationBody].contains kind

namespace Node

/-- Where the body of a construct is; behind the construct if it has none. -/
def bodySpan (whole : Node) : Span :=
  ((whole.child? .body).map (·.span)).getD { whole.span with start := whole.span.stop }

/-- The body of a type that has supertypes; a class without a name always has one. -/
def heirBody (whole : Node) : Option Node :=
  if whole.kind.isInstance then whole.ofKind? .classBody
  else if whole.kind.isType && whole.children.any fun c =>
      c.kind == .superclass || c.kind == .implementedTypes || c.kind == .extendedTypes then
    whole.child? .body
  else none

end Node

end Java

namespace Binding

variable (b : Binding) (offset : Nat) (all : List Binding)

/-- No declaration that is in scope is further in. -/
def IsInner : Prop := ∀ other ∈ all, other.scope.Covers offset → b.construct.IsIn other.construct

/-- The declaration that a name stands for. -/
structure IsInnermost : Prop where
  mem : b ∈ all
  inScope : b.scope.Covers offset
  inner : b.IsInner offset all

/-- A declaration that is not in scope, but whose construct is around the name, and no declaration
in scope is further in. -/
structure IsInTheWay : Prop where
  around : b.construct.Covers offset
  inner : b.IsInner offset all
  outOfScope : ¬ b.scope.Covers offset

instance : Decidable (b.IsInner offset all) := inferInstanceAs (Decidable (∀ _ ∈ all, _))

instance : Decidable (b.IsInnermost offset all) :=
  decidable_of_iff (b ∈ all ∧ b.scope.Covers offset ∧ b.IsInner offset all)
    ⟨fun h => ⟨h.1, h.2.1, h.2.2⟩, fun h => ⟨h.mem, h.inScope, h.inner⟩⟩

instance : Decidable (b.IsInTheWay offset all) :=
  decidable_of_iff (b.construct.Covers offset ∧ b.IsInner offset all ∧ ¬ b.scope.Covers offset)
    ⟨fun h => ⟨h.1, h.2.1, h.2.2⟩, fun h => ⟨h.around, h.inner, h.outOfScope⟩⟩

end Binding

namespace SourceFile

variable (file : SourceFile) (name : String)

/-- The variables that statements declare, each from its declarator on. -/
def localBindings (whole : Node) (statements : List Node) : List Binding :=
  (statements.filter (·.kind == .localDeclaration)).flatMap fun declaration =>
    ((declaration.childrenOf .declarator).filter (·.isCalled name)).map fun declarator =>
      { meaning := file.variableOf (file.typeOf? declaration) declarator
        construct := whole.span
        scope := { whole.span with start := declarator.span.start } }

def parameterBindings (whole : Node) : List Binding :=
  ((whole.child? .parameters).toList.flatMap fun list =>
    list.children.filterMap (file.inParameter name)).map fun meaning =>
      { meaning, construct := whole.span, scope := whole.bodySpan }

/-- The declarations of a name that a construct makes and the analysis looks for. -/
def bindings (whole : Node) : List Binding :=
  let inBody (meaning : Declared) : Binding :=
    { meaning, construct := whole.span, scope := whole.bodySpan }
  match whole.kind with
  | .block | .constructorBody | .switchGroup | .switchRule | .forStatement =>
    file.localBindings name whole whole.children
  | .methodDeclaration | .constructorDeclaration => file.parameterBindings name whole
  | .lambda => (file.inLambda name whole).toList.map inBody
  | .forEachStatement =>
    if whole.isCalled name then [inBody (typedOr (file.typeOf? whole))] else []
  | .catchClause => (file.inCatch name whole).toList.map inBody
  | .tryWithResources =>
    (whole.child? .resources).toList.flatMap fun list =>
      (list.children.filter (·.isCalled name)).map fun resource =>
        { meaning := typedOr (file.typeOf? resource)
          construct := whole.span
          scope := { whole.bodySpan with start := resource.span.start } }
  | .classBody | .interfaceBody | .enumBody | .annotationBody =>
    ((file.fieldsIn whole).filter (·.1 == name)).map fun field =>
      { meaning := .typed field.2, construct := whole.span, scope := whole.span }
  | _ => []

/-- The declarations of a name that the analysis does not look for, or not everywhere: variables
of a switch in later groups, the components of records, the constants of enums, and what patterns
bind.  Which way a test goes decides how far the name that a pattern binds reaches; it is taken to
reach up to an offset. -/
def overlookedBindings (stop : Nat) (whole : Node) : List Binding :=
  match whole.kind with
  | .switchBlock =>
    (whole.children.filter (·.kind == .switchGroup)).flatMap fun group =>
      (file.localBindings name whole group.children).map fun later =>
        { later with scope := { whole.span with start := group.span.stop } }
  | .recordDeclaration => file.parameterBindings name whole
  | .enumDeclaration =>
    ((whole.child? .body).toList.flatMap fun body =>
      body.children.filter fun c => c.kind == .enumConstant && c.isCalled name).map fun _ =>
        { meaning := .typed (nameOf whole), construct := whole.span, scope := whole.bodySpan }
  | .instanceTest | .pattern =>
    (whole.children.filter fun c =>
      c.kind == .identifier && c.role == .plain && c.text == name).map fun _ =>
        { meaning := typedOr ((whole.parts.filter fun c =>
            c.role != .left && c.kind != .identifier).getLast?.map file.typeText)
          construct := whole.span
          scope := { whole.span with stop } }
  | _ => []

/-- Declarations that the analysis does not find, those included that a type with supertypes may
inherit. -/
def hiddenBindings (stop : Nat) (whole : Node) : List Binding :=
  file.overlookedBindings name stop whole ++ whole.heirBody.toList.map fun body =>
    { meaning := .untyped, construct := body.span, scope := body.span }

/-- The declarations of a name in a tree that the analysis looks for. -/
def lookedFor (tree : Node) : List Binding := tree.nodes.flatMap (file.bindings name)

/-- A pattern binds a name at most up to the end of the innermost block or body around it. -/
def hiddenIn (tree : Node) : List Binding :=
  (tree.sites []).flatMap fun site => file.hiddenBindings name
    ((site.around.find? (·.kind.endsPatterns)).getD tree).span.stop site.node

end SourceFile

/-! ## What is found in a construct -/

namespace SourceFile

variable {file : SourceFile} {name : String} {whole : Node}

theorem mem_localBindings {statements : List Node} {b : Binding} :
    b ∈ file.localBindings name whole statements ↔ ∃ declaration ∈ statements,
      declaration.kind = .localDeclaration ∧ ∃ declarator ∈ declaration.childrenOf .declarator,
        declarator.isCalled name = true ∧ b =
          { meaning := file.variableOf (file.typeOf? declaration) declarator
            construct := whole.span
            scope := { whole.span with start := declarator.span.start } } := by
  simp only [localBindings, List.mem_flatMap, List.mem_filter, List.mem_map, beq_iff_eq]
  constructor
  · rintro ⟨declaration, ⟨hmem, hkind⟩, declarator, ⟨hdeclarator, hcalled⟩, rfl⟩
    exact ⟨declaration, hmem, hkind, declarator, hdeclarator, hcalled, rfl⟩
  · rintro ⟨declaration, hmem, hkind, declarator, hdeclarator, hcalled, rfl⟩
    exact ⟨declaration, ⟨hmem, hkind⟩, declarator, ⟨hdeclarator, hcalled⟩, rfl⟩

/-- What is found among declarations: the meaning of one of them, if there is one. -/
structure Finds (found : Option Declared) (made : List Binding) : Prop where
  none : found = none → made = []
  some : ∀ meaning, found = some meaning → ∃ b ∈ made, b.meaning = meaning

theorem finds_map {α : Type} {found : Option Declared} {made : List α} {bind : α → Binding}
    (hnone : found = none → made = [])
    (hsome : ∀ meaning, found = some meaning → ∃ a ∈ made, (bind a).meaning = meaning) :
    Finds found (made.map bind) := by
  refine ⟨fun h => by rw [hnone h, List.map_nil], fun meaning h => ?_⟩
  obtain ⟨a, ha, hmeaning⟩ := hsome meaning h
  exact ⟨bind a, List.mem_map_of_mem ha, hmeaning⟩

theorem finds_toList (found : Option Declared) (construct scope : Span) :
    Finds found (found.toList.map fun meaning => { meaning, construct, scope }) := by
  apply finds_map
  · rintro rfl
    rfl
  · intro meaning hfound
    exact ⟨meaning, Option.mem_toList.mpr hfound, rfl⟩

theorem finds_inStatements (file : SourceFile) (name : String) (whole : Node)
    (statements : List Node) :
    Finds (file.inStatements name statements) (file.localBindings name whole statements) := by
  constructor
  · intro hnone
    rw [List.eq_nil_iff_forall_not_mem]
    intro b hb
    obtain ⟨declaration, hmem, hkind, declarator, hdeclarator, hcalled, -⟩ :=
      mem_localBindings.mp hb
    have hdeclaration := List.findSome?_eq_none_iff.mp hnone declaration
      (List.mem_filter.mpr ⟨hmem, beq_iff_eq.mpr hkind⟩)
    rw [Option.map_eq_none_iff, List.find?_eq_none] at hdeclaration
    exact hdeclaration declarator hdeclarator hcalled
  · intro meaning hsome
    obtain ⟨declaration, hdeclaration, hfound⟩ := List.exists_of_findSome?_eq_some hsome
    obtain ⟨hmem, hkind⟩ := List.mem_filter.mp hdeclaration
    obtain ⟨declarator, hdeclarator, rfl⟩ := Option.map_eq_some_iff.mp hfound
    exact ⟨_, mem_localBindings.mpr ⟨declaration, hmem, beq_iff_eq.mp hkind, declarator,
      List.mem_of_find?_eq_some hdeclarator, List.find?_some hdeclarator, rfl⟩, rfl⟩

theorem finds_inParameters (file : SourceFile) (name : String) (whole : Node) :
    Finds (file.inParameters name (whole.child? .parameters))
      (file.parameterBindings name whole) := by
  apply finds_map
  · intro hnone
    cases hlist : whole.child? .parameters with
    | none => rfl
    | some list =>
        rw [hlist] at hnone
        have hparameters : list.children.findSome? (file.inParameter name) = none := hnone
        simpa using hparameters
  · intro meaning hsome
    obtain ⟨list, hlist, hfound⟩ := Option.bind_eq_some_iff.mp hsome
    obtain ⟨parameter, hparameter, hmeaning⟩ := List.exists_of_findSome?_eq_some hfound
    refine ⟨meaning, ?_, rfl⟩
    rw [hlist]
    exact List.mem_flatMap.mpr ⟨list, List.mem_singleton_self _,
      List.mem_filterMap.mpr ⟨parameter, hparameter, hmeaning⟩⟩

theorem finds_inResources (file : SourceFile) (name : String) (resources : Option Node)
    (construct : Span) (scopeOf : Node → Span) :
    Finds (file.inResources name resources) (resources.toList.flatMap fun list =>
      (list.children.filter (·.isCalled name)).map fun resource =>
        { meaning := typedOr (file.typeOf? resource), construct, scope := scopeOf resource }) := by
  cases resources with
  | none => exact ⟨fun _ => rfl, fun _ h => by cases h⟩
  | some list =>
      simp only [Option.toList_some, List.flatMap_cons, List.flatMap_nil, List.append_nil]
      apply finds_map
      · intro hnone
        simpa [inResources] using hnone
      · intro meaning hsome
        obtain ⟨resource, hresource, rfl⟩ := Option.map_eq_some_iff.mp hsome
        have hmem := List.mem_reverse.mp (List.mem_of_find?_eq_some hresource)
        exact ⟨resource, List.mem_filter.mpr ⟨hmem, List.find?_some hresource⟩, rfl⟩

theorem finds_inBody (file : SourceFile) (name : String) (whole : Node) :
    Finds ((file.inBody name whole).map .typed)
      (((file.fieldsIn whole).filter (·.1 == name)).map fun field =>
        { meaning := .typed field.2, construct := whole.span, scope := whole.span }) := by
  apply finds_map
  · intro hnone
    simpa [inBody] using hnone
  · intro meaning hsome
    obtain ⟨type, htype, rfl⟩ := Option.map_eq_some_iff.mp hsome
    obtain ⟨field, hfield, rfl⟩ := Option.map_eq_some_iff.mp htype
    have hmem := List.mem_reverse.mp (List.mem_of_find?_eq_some hfield)
    have hname : (field.1 == name) = true :=
      List.find?_some (p := fun field : String × String => field.1 == name) hfield
    exact ⟨field, List.mem_filter.mpr ⟨hmem, hname⟩, rfl⟩

/-- What a construct is found to declare a name as is what one of its declarations says. -/
theorem finds_declaredBy (file : SourceFile) (name : String) (whole : Node) :
    Finds (file.declaredBy name whole) (file.bindings name whole) := by
  unfold declaredBy bindings
  cases hkind : whole.kind
  case block | constructorBody | switchGroup | switchRule | forStatement =>
    exact finds_inStatements file name whole whole.children
  case methodDeclaration | constructorDeclaration => exact finds_inParameters file name whole
  case lambda => exact finds_toList _ _ _
  case catchClause => exact finds_toList _ _ _
  case tryWithResources => exact finds_inResources file name _ _ _
  case classBody | interfaceBody | enumBody | annotationBody => exact finds_inBody file name whole
  case forEachStatement =>
    simp only
    split
    · exact finds_toList (some (typedOr (file.typeOf? whole))) _ _
    · exact ⟨fun _ => rfl, fun _ h => by cases h⟩
  all_goals exact ⟨fun _ => rfl, fun _ h => by cases h⟩

/-! ## Where declarations are in scope -/

theorem bodySpan_isIn {node : Node} (hnested : node.isNested = true) :
    node.bodySpan.IsIn node.span := by
  have hle : node.span.start ≤ node.span.stop := le_of_inOrder (Node.isNested_iff.mp hnested).1
  unfold Node.bodySpan
  cases hbody : node.child? .body with
  | none => exact ⟨hle, Nat.le_refl _⟩
  | some body =>
      have hmem := Node.child_mem_nodes (List.mem_of_find?_eq_some hbody)
      exact (Node.within_of_mem_nodes node hnested body hmem).2

theorem start_le_of_grandchild {node c d : Node} (hnested : node.isNested = true)
    (hc : c ∈ node.children) (hd : d ∈ c.children) : node.span.start ≤ d.span.start := by
  have hmem := Node.nodes_subset_of_child hc (Node.child_mem_nodes hd)
  exact (Node.within_of_mem_nodes node hnested d hmem).2.1

/-- A declaration is made by the construct, and it is in scope nowhere else. -/
theorem isIn_of_mem_bindings {file : SourceFile} {name : String} {whole : Node}
    (hnested : whole.isNested = true) {b : Binding} (hb : b ∈ file.bindings name whole) :
    b.construct = whole.span ∧ b.scope.IsIn whole.span := by
  have hbody := bodySpan_isIn hnested
  have hwhole : whole.span.IsIn whole.span := ⟨Nat.le_refl _, Nat.le_refl _⟩
  have hinBody {declared : List Declared}
      (hmem : b ∈ declared.map fun meaning => ⟨meaning, whole.span, whole.bodySpan⟩) :
      b.construct = whole.span ∧ b.scope.IsIn whole.span := by
    obtain ⟨meaning, -, rfl⟩ := List.mem_map.mp hmem
    exact ⟨rfl, hbody⟩
  have hlocal (hmem : b ∈ file.localBindings name whole whole.children) :
      b.construct = whole.span ∧ b.scope.IsIn whole.span := by
    obtain ⟨declaration, hdeclaration, -, declarator, hdeclarator, -, rfl⟩ :=
      mem_localBindings.mp hmem
    exact ⟨rfl, start_le_of_grandchild hnested hdeclaration (List.mem_filter.mp hdeclarator).1,
      Nat.le_refl _⟩
  unfold bindings at hb
  cases hkind : whole.kind <;> rw [hkind] at hb
  case block | constructorBody | switchGroup | switchRule | forStatement => exact hlocal hb
  case methodDeclaration | constructorDeclaration => exact hinBody hb
  case lambda | catchClause => exact hinBody hb
  case tryWithResources =>
    obtain ⟨list, hlist, hmem⟩ := List.mem_flatMap.mp hb
    obtain ⟨resource, hresource, rfl⟩ := List.mem_map.mp hmem
    have hstart := start_le_of_grandchild hnested
      (List.mem_of_find?_eq_some (Option.mem_toList.mp hlist)) (List.mem_filter.mp hresource).1
    exact ⟨rfl, hstart, hbody.2⟩
  case classBody | interfaceBody | enumBody | annotationBody =>
    obtain ⟨field, -, rfl⟩ := List.mem_map.mp hb
    exact ⟨rfl, hwhole⟩
  case forEachStatement =>
    simp only at hb
    split at hb
    · rw [List.mem_singleton.mp hb]
      exact ⟨rfl, hbody⟩
    · cases hb
  all_goals cases hb

end SourceFile

/-! ## Sites and what is around them -/

namespace Java

mutual

theorem node_mem_of_mem_sites : ∀ (node : Node) (around : List Node),
    ∀ site ∈ node.sites around, site.node ∈ node.nodes ∧
      ∀ outer ∈ site.around, outer ∈ node.nodes ∨ outer ∈ around
  | ⟨kind, role, span, text, children⟩, around => by
    intro site hsite
    unfold Node.sites at hsite
    rcases List.mem_cons.mp hsite with rfl | hsite
    · exact ⟨Node.self_mem_nodes _, fun outer houter => .inr houter⟩
    · obtain ⟨hnode, haround⟩ := node_mem_of_mem_allSites children _ site hsite
      refine ⟨Node.mem_nodes.mpr (.inr hnode), fun outer houter => ?_⟩
      rcases haround outer houter with hinside | houtside
      · exact .inl (Node.mem_nodes.mpr (.inr hinside))
      · rcases List.mem_cons.mp houtside with rfl | houtside
        · exact .inl (Node.self_mem_nodes _)
        · exact .inr houtside

theorem node_mem_of_mem_allSites : ∀ (nodes : List Node) (around : List Node),
    ∀ site ∈ allSites around nodes, site.node ∈ Node.allNodes nodes ∧
      ∀ outer ∈ site.around, outer ∈ Node.allNodes nodes ∨ outer ∈ around
  | [], _ => by simp [allSites]
  | node :: rest, around => by
    intro site hsite
    rw [allSites, List.mem_append] at hsite
    rw [Node.allNodes]
    rcases hsite with hsite | hsite
    · obtain ⟨hnode, haround⟩ := node_mem_of_mem_sites node around site hsite
      exact ⟨List.mem_append_left _ hnode, fun outer houter =>
        (haround outer houter).imp_left (List.mem_append_left _)⟩
    · obtain ⟨hnode, haround⟩ := node_mem_of_mem_allSites rest around site hsite
      exact ⟨List.mem_append_right _ hnode, fun outer houter =>
        (haround outer houter).imp_left (List.mem_append_right _)⟩

end

mutual

/-- The constructs around a site lie in each other. -/
theorem pairwise_way : ∀ (node : Node) (around : List Node), node.isNested = true →
    (node :: around).Pairwise (fun inner outer => inner.span.IsIn outer.span) →
    ∀ site ∈ node.sites around, site.way.Pairwise fun inner outer => inner.span.IsIn outer.span
  | ⟨kind, role, span, text, children⟩, around, hnested, hway => by
    intro site hsite
    unfold Node.sites at hsite
    rcases List.mem_cons.mp hsite with rfl | hsite
    · exact hway
    · refine pairwise_way_of_mem_allSites children _ (Node.isNested_iff.mp hnested).2
        (fun c hc => List.pairwise_cons.mpr ⟨fun outer houter => ?_, hway⟩) site hsite
      have hwithin : c.span.IsIn span :=
        (Node.within_of_mem_nodes _ hnested c (Node.child_mem_nodes hc)).2
      rcases List.mem_cons.mp houter with rfl | houter
      · exact hwithin
      · exact hwithin.trans ((List.pairwise_cons.mp hway).1 outer houter)

theorem pairwise_way_of_mem_allSites : ∀ (nodes : List Node) (around : List Node),
    allNested nodes = true →
    (∀ c ∈ nodes, (c :: around).Pairwise fun inner outer => inner.span.IsIn outer.span) →
    ∀ site ∈ allSites around nodes, site.way.Pairwise fun inner outer => inner.span.IsIn outer.span
  | [], _, _, _ => by simp [allSites]
  | node :: rest, around, hnested, hway => by
    intro site hsite
    rw [allSites, List.mem_append] at hsite
    rw [allNested, Bool.and_eq_true] at hnested
    rcases hsite with hsite | hsite
    · exact pairwise_way node around hnested.1 (hway node List.mem_cons_self) site hsite
    · exact pairwise_way_of_mem_allSites rest around hnested.2
        (fun c hc => hway c (List.mem_cons_of_mem _ hc)) site hsite

end

mutual

/-- Whatever covers the start of a site is around it or in it. -/
theorem mem_way_of_covers : ∀ (node : Node) (around : List Node), node.isNested = true →
    ∀ site ∈ node.sites around, site.node.span.start < site.node.span.stop →
    ∀ x ∈ node.nodes, x.span.Covers site.node.span.start →
    x ∈ site.around ∨ x ∈ site.node.nodes
  | ⟨kind, role, span, text, children⟩, around, hnested => by
    intro site hsite hnonempty x hx hcovers
    unfold Node.sites at hsite
    rcases List.mem_cons.mp hsite with rfl | hsite
    · exact .inr hx
    · rcases Node.mem_nodes.mp hx with rfl | hx
      · exact .inl ((suffix_of_mem_allSites children _ site hsite).subset List.mem_cons_self)
      · exact mem_way_of_covers_of_mem_allSites children _ (.of_isNested hnested) site hsite
          hnonempty x hx hcovers

theorem mem_way_of_covers_of_mem_allSites {start stop : Nat} : ∀ (nodes : List Node)
    (around : List Node), Node.LaidOut start stop nodes →
    ∀ site ∈ allSites around nodes, site.node.span.start < site.node.span.stop →
    ∀ x ∈ Node.allNodes nodes, x.span.Covers site.node.span.start →
    x ∈ site.around ∨ x ∈ site.node.nodes
  | [], _, _ => by simp [allSites]
  | node :: rest, around, hlaid => by
    intro site hsite hnonempty x hx hcovers
    rw [allSites, List.mem_append] at hsite
    rw [Node.allNodes, List.mem_append] at hx
    have hfirst {y : Node} (hy : y ∈ node.nodes) :=
      (Node.within_of_mem_nodes node hlaid.isNested_head y hy).2
    have hothers {y : Node} (hy : y ∈ Node.allNodes rest) :=
      (Node.within_of_mem_allNodes rest hlaid.tail y hy).2
    -- What lies in different parts does not cover the same offset.
    rcases hsite with hsite | hsite
    · have hnode := hfirst (node_mem_of_mem_sites node around site hsite).1
      rcases hx with hx | hx
      · exact mem_way_of_covers node around hlaid.isNested_head site hsite hnonempty x hx hcovers
      · have hbehind := hothers hx
        have hstart := hcovers.1
        omega
    · have hnode := hothers (node_mem_of_mem_allSites rest around site hsite).1
      rcases hx with hx | hx
      · have hbefore := hfirst hx
        have hstop := hcovers.2
        omega
      · exact mem_way_of_covers_of_mem_allSites rest around hlaid.tail site hsite hnonempty x hx
          hcovers

end

end Java

namespace SourceFile

section Names

variable {file : SourceFile} {tree : Node} {site : Site}

/-- The constructs around a name cover the place where it stands. -/
theorem covers_of_mem_around (hnested : tree.isNested = true) (hsite : site ∈ tree.sites [])
    (hcovers : site.node.span.start < site.node.span.stop) {outer : Node}
    (houter : outer ∈ site.around) : outer.span.Covers site.node.span.start := by
  have hway := pairwise_way tree [] hnested (List.pairwise_singleton _ _) site hsite
  have hin := (List.pairwise_cons.mp hway).1 outer houter
  have hself : site.node.span.Covers site.node.span.start := ⟨Nat.le_refl _, hcovers⟩
  exact hself.mono hin

/-- A declaration that is in scope is made by a construct around the name. -/
theorem exists_around_of_covers (hnested : tree.isNested = true) (hsite : site ∈ tree.sites [])
    (hname : site.node.kind = .identifier) (hleaf : site.node.children = [])
    (hcovers : site.node.span.start < site.node.span.stop) {name : String} {b : Binding}
    (hb : b ∈ file.lookedFor name tree) (hscope : b.scope.Covers site.node.span.start) :
    ∃ outer ∈ site.around, b ∈ file.bindings name outer ∧ b.construct = outer.span := by
  obtain ⟨x, hx, hmem⟩ := List.mem_flatMap.mp hb
  obtain ⟨hconstruct, hin⟩ :=
    isIn_of_mem_bindings (Node.within_of_mem_nodes tree hnested x hx).1 hmem
  rcases mem_way_of_covers tree [] hnested site hsite hcovers x hx (hscope.mono hin) with
    haround | hinside
  · exact ⟨x, haround, hmem, hconstruct⟩
  · -- A name declares nothing by itself.
    have hself : x = site.node := by
      rcases Node.mem_nodes.mp hinside with hself | hchild
      · exact hself
      · rw [hleaf] at hchild
        cases hchild
    rw [hself, bindings, hname] at hmem
    cases hmem

/-- The analysis overlooks no declaration that is in scope and further in than the one that it
finds. -/
theorem exists_isInner_of_variableType (hnested : tree.isNested = true)
    (hsite : site ∈ tree.sites []) (hname : site.node.kind = .identifier)
    (hleaf : site.node.children = []) (hcovers : site.node.span.start < site.node.span.stop)
    {name : String} {meaning : Declared}
    (hfound : file.variableType name site.around = some meaning) :
    ∃ b ∈ file.lookedFor name tree, b.meaning = meaning ∧
      b.construct.Covers site.node.span.start ∧
      b.IsInner site.node.span.start (file.lookedFor name tree) := by
  obtain ⟨inner, whole, outer, hway, hdeclared, hnone⟩ := List.findSome?_eq_some_iff.mp hfound
  have hwhole : whole ∈ site.around := by
    rw [hway]
    exact List.mem_append_right _ List.mem_cons_self
  have hmem : whole ∈ tree.nodes :=
    ((node_mem_of_mem_sites tree [] site hsite).2 whole hwhole).resolve_right List.not_mem_nil
  obtain ⟨b, hb, hmeaning⟩ := (finds_declaredBy file name whole).some meaning hdeclared
  have hconstruct :=
    (isIn_of_mem_bindings (Node.within_of_mem_nodes tree hnested whole hmem).1 hb).1
  refine ⟨b, List.mem_flatMap.mpr ⟨whole, hmem, hb⟩, hmeaning, ?_, fun other hother hscope => ?_⟩
  · rw [hconstruct]
    exact covers_of_mem_around hnested hsite hcovers hwhole
  · obtain ⟨further, hfurther, hmade, hsame⟩ :=
      exists_around_of_covers hnested hsite hname hleaf hcovers hother hscope
    rw [hconstruct, hsame]
    -- Further in nothing is declared.
    have hnot : further ∉ inner := by
      intro hin
      rw [(finds_declaredBy file name further).none (hnone further hin)] at hmade
      cases hmade
    have hways := pairwise_way tree [] hnested (List.pairwise_singleton _ _) site hsite
    rw [hway, List.mem_append] at hfurther
    rcases hfurther.resolve_left hnot with _ | ⟨_, hout⟩
    · exact ⟨Nat.le_refl _, Nat.le_refl _⟩
    · have haround := (List.pairwise_cons.mp hways).2
      rw [hway] at haround
      exact (List.pairwise_cons.mp (List.pairwise_append.mp haround).2.1).1 further hout

end Names

/-- The type that a name is given is that of a declaration whose construct is around the name, and
no declaration that is in scope is further in.  A name that is given no type has no declaration in
scope.  As long as no declaration out of scope is in the way, and none in scope that the analysis
does not find is further in than all others, the name is given the type of the innermost
declaration whose scope it stands in.  The tree may be any nested one, and the name any identifier
in it that has no parts and covers some text. -/
theorem variableType_innermost (file : SourceFile) {tree : Node} (hnested : tree.isNested = true)
    {site : Site} (hsite : site ∈ tree.sites []) (hname : site.node.kind = .identifier)
    (hleaf : site.node.children = []) (hcovers : site.node.span.start < site.node.span.stop) :
    let name := site.node.text
    let offset := site.node.span.start
    let looked := file.lookedFor name tree
    let hidden := file.hiddenIn name tree
    (∀ meaning, file.variableType name site.around = some meaning →
      ∃ b ∈ looked, b.meaning = meaning ∧ b.construct.Covers offset ∧ b.IsInner offset looked) ∧
    (file.variableType name site.around = none → ∀ b ∈ looked, ¬ b.scope.Covers offset) ∧
    ((∀ b ∈ looked, ¬ b.IsInTheWay offset looked) →
      (∀ h ∈ hidden, h.scope.Covers offset →
        ∃ b ∈ looked, b.scope.Covers offset ∧ b.construct.IsIn h.construct) →
      ∀ meaning, file.variableType name site.around = some meaning →
        ∃ b : Binding, b.meaning = meaning ∧ b.IsInnermost offset (looked ++ hidden)) := by
  intro name offset looked hidden
  have hfinds (meaning : Declared) (hfound : file.variableType name site.around = some meaning) :
      ∃ b ∈ looked, b.meaning = meaning ∧ b.construct.Covers offset ∧ b.IsInner offset looked :=
    exists_isInner_of_variableType hnested hsite hname hleaf hcovers hfound
  refine ⟨hfinds, fun hnone b hb hscope => ?_, fun hway hhidden meaning hfound => ?_⟩
  · obtain ⟨outer, houter, hmade, -⟩ :=
      exists_around_of_covers hnested hsite hname hleaf hcovers hb hscope
    have hdeclared := List.findSome?_eq_none_iff.mp hnone outer houter
    rw [(finds_declaredBy file name outer).none hdeclared] at hmade
    cases hmade
  · obtain ⟨b, hb, hmeaning, haround, hinner⟩ := hfinds meaning hfound
    have hscope : b.scope.Covers offset := by
      by_cases hin : b.scope.Covers offset
      · exact hin
      · exact absurd ⟨haround, hinner, hin⟩ (hway b hb)
    refine ⟨b, hmeaning, List.mem_append_left _ hb, hscope, fun other hother hin => ?_⟩
    rcases List.mem_append.mp hother with hother | hother
    · exact hinner other hother hin
    · obtain ⟨nearer, hnearer, hnearerScope, hwithin⟩ := hhidden other hother hin
      exact (hinner nearer hnearer hnearerScope).trans hwithin

/-- A field, and in a block a variable of the same name. -/
theorem variableType_innermost_in_block :
    let file : SourceFile :=
      ⟨"T.java", "class T\x7bB x;void f()\x7bx.g();\x7bA x=h();x.g();\x7d\x7d\x7d"⟩
    let tree := parse file.text
    tree.isNested = true ∧ ∀ found ∈ [(21, "B"), (36, "A")],
      ∃ site ∈ tree.sites [], site.node.kind = .identifier ∧ site.node.text = "x" ∧
        site.node.children = [] ∧ site.node.span.start < site.node.span.stop ∧
        site.node.span.start = found.1 ∧ ∃ b : Binding, b.meaning = .typed found.2 ∧
          b.IsInnermost found.1 (file.lookedFor "x" tree ++ file.hiddenIn "x" tree) := by
  intro file tree
  have hnested : tree.isNested = true := by decide +kernel
  have hsites : ∀ found ∈ [(21, "B"), (36, "A")], ∃ site ∈ tree.sites [],
      site.node.kind = .identifier ∧ site.node.text = "x" ∧ site.node.children.isEmpty = true ∧
        site.node.span.start < site.node.span.stop ∧ site.node.span.start = found.1 ∧
        file.variableType "x" site.around = some (.typed found.2) ∧
        (∀ b ∈ file.lookedFor "x" tree, ¬ b.IsInTheWay found.1 (file.lookedFor "x" tree)) ∧
        ∀ h ∈ file.hiddenIn "x" tree, h.scope.Covers found.1 →
          ∃ b ∈ file.lookedFor "x" tree, b.scope.Covers found.1 ∧
            b.construct.IsIn h.construct := by
    decide +kernel
  refine ⟨hnested, fun found hfound => ?_⟩
  obtain ⟨site, hsite, hkind, htext, hleaf, hcovers, hstart, htype, hway, hhidden⟩ :=
    hsites found hfound
  have hleaf : site.node.children = [] := List.isEmpty_iff.mp hleaf
  obtain ⟨-, -, hinnermost⟩ := variableType_innermost file hnested hsite hkind hleaf hcovers
  rw [htext, hstart] at hinnermost
  exact ⟨site, hsite, hkind, htext, hleaf, hcovers, hstart, hinnermost hway hhidden _ htype⟩

/-- A resource does not reach the catch clauses of its try, a variable is not in scope before its
declarator, and that of a loop is not in what the loop runs over.  There the name stands for the
field, but it is given the type of the variable. -/
theorem variableType_out_of_scope :
    let file : SourceFile :=
      ⟨"T.java", "class T\x7bB x;void f()\x7btry(A x=h())\x7b\x7dcatch(E e)\x7bx.g();\x7dx.g();A x=h();" ++
        "\x7dvoid k()\x7bfor(A x:x.l())\x7b\x7d\x7d\x7d"⟩
    let tree := parse file.text
    ∀ offset ∈ [46, 53, 85],
      ∃ site ∈ tree.sites [], site.node.kind = .identifier ∧ site.node.text = "x" ∧
        site.node.span.start = offset ∧ file.variableType "x" site.around = some (.typed "A") ∧
        ∃ b ∈ file.lookedFor "x" tree, b.meaning = .typed "B" ∧
          b.IsInnermost offset (file.lookedFor "x" tree ++ file.hiddenIn "x" tree) := by
  decide +kernel

end SourceFile

end EntryPoints
