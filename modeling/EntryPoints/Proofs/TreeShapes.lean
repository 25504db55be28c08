import EntryPoints.Java.Parser

/-!
# Shapes of trees

What is proved about the tree of a file is proved of every tree, whoever made it, and each
result names the conditions on the tree that it needs.  All of them are about single nodes and
their parts, and can be evaluated on a given tree.

A tree is nested when the parts of every node lie inside of it, in order and without overlap.
Parts of a nested tree lie one in the other or apart, but they may be empty, and a part may cover
just as much as the node around it.
-/

namespace EntryPoints.Java

/-! ## Kinds -/

def Kind.isMethod (kind : Kind) : Bool :=
  kind == .methodDeclaration || kind == .constructorDeclaration

/-- The kinds of declarations of types. -/
def Kind.isType (kind : Kind) : Bool :=
  kind == .classDeclaration || kind == .interfaceDeclaration || kind == .enumDeclaration ||
    kind == .recordDeclaration || kind == .annotationDeclaration

/-- The kinds of constructs that may have the body of a class behind them. -/
def Kind.isInstance (kind : Kind) : Bool := kind == .creation || kind == .enumConstant

/-- The kinds of constructs that run something or say what is to be run. -/
def Kind.isRun (kind : Kind) : Bool :=
  kind == .invocation || kind == .constructorCall || kind == .methodReference ||
    kind == .lambda || kind == .creation

/-- The kinds of keywords, symbols and comments. -/
def Kind.isLeaf (kind : Kind) : Bool := !kind.isNamed || kind.isComment

theorem Kind.of_isInstance {kind : Kind} (h : kind.isInstance = true) :
    kind.isType = false ∧ kind.isMethod = false := by
  cases kind <;> first | exact absurd h (by decide) | decide

/-! ## Nodes of a tree -/

namespace Node

mutual

/-- A node and everything in it. -/
def nodes : Node → List Node
  | ⟨kind, role, span, text, children⟩ =>
    ⟨kind, role, span, text, children⟩ :: allNodes children

def allNodes : List Node → List Node
  | [] => []
  | node :: rest => nodes node ++ allNodes rest

end

section Members

variable {node c x : Node} {nodes : List Node}

theorem self_mem_nodes (node : Node) : node ∈ node.nodes := by
  cases node
  exact List.mem_cons_self

theorem mem_nodes : x ∈ node.nodes ↔ x = node ∨ x ∈ allNodes node.children := by
  cases node
  exact List.mem_cons

theorem mem_allNodes : x ∈ allNodes nodes ↔ ∃ c ∈ nodes, x ∈ c.nodes := by
  induction nodes with
  | nil => simp [allNodes]
  | cons node rest ih => simp [allNodes, ih]

theorem allNodes_subset_nodes (node : Node) : allNodes node.children ⊆ node.nodes :=
  fun _ hx => mem_nodes.mpr (.inr hx)

theorem nodes_subset_of_child (hc : c ∈ node.children) : c.nodes ⊆ node.nodes :=
  fun _ hx => mem_nodes.mpr (.inr (mem_allNodes.mpr ⟨c, hc, hx⟩))

theorem child_mem_nodes (hc : c ∈ node.children) : c ∈ node.nodes :=
  nodes_subset_of_child hc (self_mem_nodes c)

end Members

/-! ## Names -/

/-- A type that has a name has one that is not empty. -/
def HasNoEmptyName (tree : Node) : Prop :=
  ∀ x ∈ tree.nodes, x.kind.isType = true → ∀ name ∈ x.child? .name, name.text ≠ ""

instance (tree : Node) : Decidable tree.HasNoEmptyName :=
  inferInstanceAs (Decidable (∀ _ ∈ _, _))

theorem HasNoEmptyName.child {node c : Node} (h : node.HasNoEmptyName) (hc : c ∈ node.children) :
    c.HasNoEmptyName := fun x hx => h x (nodes_subset_of_child hc hx)

/-- Every type has a name, and it is not empty. -/
def NamesTypes (tree : Node) : Prop :=
  ∀ x ∈ tree.nodes, x.kind.isType = true → ∃ name ∈ x.child? .name, name.text ≠ ""

instance (tree : Node) : Decidable tree.NamesTypes :=
  inferInstanceAs (Decidable (∀ _ ∈ _, _))

theorem NamesTypes.child {node c : Node} (h : node.NamesTypes) (hc : c ∈ node.children) :
    c.NamesTypes := fun x hx => h x (nodes_subset_of_child hc hx)

theorem NamesTypes.hasNoEmptyName {tree : Node} (h : tree.NamesTypes) : tree.HasNoEmptyName := by
  intro x hx htype name hname
  obtain ⟨named, hnamed, hnonempty⟩ := h x hx htype
  cases hname.symm.trans hnamed
  exact hnonempty

/-! ## Types -/

/-- What declares a type covers some text. -/
def HasNoEmptyType (tree : Node) : Prop :=
  ∀ x ∈ tree.nodes, (x.kind.isType || x.kind.isInstance) = true → x.span.start < x.span.stop

instance (tree : Node) : Decidable tree.HasNoEmptyType :=
  inferInstanceAs (Decidable (∀ _ ∈ _, _))

theorem HasNoEmptyType.child {node c : Node} (h : node.HasNoEmptyType) (hc : c ∈ node.children) :
    c.HasNoEmptyType := fun x hx => h x (nodes_subset_of_child hc hx)

end Node

/-! ## Nested trees -/

/-- Whether spans follow each other from `start` on and end by `stop`. -/
def inOrder (start stop : Nat) : List Span → Bool
  | [] => decide (start ≤ stop)
  | span :: rest =>
    decide (start ≤ span.start) && decide (span.start ≤ span.stop) && inOrder span.stop stop rest

mutual

/-- Whether the children of every node lie inside it, in order and without overlap. -/
def Node.isNested : Node → Bool
  | ⟨_, _, span, _, children⟩ =>
    inOrder span.start span.stop (children.map Node.span) && allNested children

def allNested : List Node → Bool
  | [] => true
  | node :: rest => node.isNested && allNested rest

end

theorem le_of_inOrder {start stop : Nat} {spans : List Span}
    (h : inOrder start stop spans = true) : start ≤ stop := by
  induction spans generalizing start with
  | nil => simpa [inOrder] using h
  | cons span spans ih =>
      simp only [inOrder, Bool.and_eq_true, decide_eq_true_eq] at h
      have hrest := ih h.2
      omega

namespace Node

theorem isNested_iff {node : Node} : node.isNested = true ↔
    inOrder node.span.start node.span.stop (node.children.map Node.span) = true ∧
      allNested node.children = true := by
  cases node
  simp [isNested]

/-- Nested trees that follow each other between two offsets. -/
structure LaidOut (start stop : Nat) (nodes : List Node) : Prop where
  nested : allNested nodes = true
  order : inOrder start stop (nodes.map Node.span) = true

namespace LaidOut

variable {start stop : Nat} {node c d : Node} {nodes : List Node}

theorem of_isNested (h : node.isNested = true) :
    LaidOut node.span.start node.span.stop node.children :=
  ⟨(isNested_iff.mp h).2, (isNested_iff.mp h).1⟩

theorem isNested_head (h : LaidOut start stop (node :: nodes)) : node.isNested = true := by
  have hnested := h.nested
  rw [allNested, Bool.and_eq_true] at hnested
  exact hnested.1

theorem le_head (h : LaidOut start stop (node :: nodes)) : start ≤ node.span.start := by
  have horder := h.order
  simp only [List.map_cons, inOrder, Bool.and_eq_true, decide_eq_true_eq] at horder
  exact horder.1.1

theorem tail (h : LaidOut start stop (node :: nodes)) : LaidOut node.span.stop stop nodes := by
  have horder := h.order
  have hnested := h.nested
  simp only [List.map_cons, inOrder, Bool.and_eq_true, decide_eq_true_eq] at horder
  rw [allNested, Bool.and_eq_true] at hnested
  exact ⟨hnested.2, horder.2⟩

theorem head_le (h : LaidOut start stop (node :: nodes)) : node.span.stop ≤ stop :=
  le_of_inOrder h.tail.order

theorem start_le_stop (h : LaidOut start stop (node :: nodes)) :
    node.span.start ≤ node.span.stop :=
  le_of_inOrder (of_isNested h.isNested_head).order

theorem isNested (h : LaidOut start stop nodes) (hc : c ∈ nodes) : c.isNested = true := by
  induction nodes generalizing start with
  | nil => cases hc
  | cons node rest ih =>
      rcases List.mem_cons.mp hc with rfl | hc
      · exact h.isNested_head
      · exact ih h.tail hc

theorem within (h : LaidOut start stop nodes) (hc : c ∈ nodes) :
    start ≤ c.span.start ∧ c.span.start ≤ c.span.stop ∧ c.span.stop ≤ stop := by
  induction nodes generalizing start with
  | nil => cases hc
  | cons node rest ih =>
      have hstart := h.le_head
      have hnode := h.start_le_stop
      rcases List.mem_cons.mp hc with rfl | hc
      · exact ⟨hstart, hnode, h.head_le⟩
      · obtain ⟨hbehind, hrest⟩ := ih h.tail hc
        exact ⟨by omega, hrest⟩

theorem apart (h : LaidOut start stop nodes) (hc : c ∈ nodes) (hd : d ∈ nodes) (hne : c ≠ d) :
    c.span.stop ≤ d.span.start ∨ d.span.stop ≤ c.span.start := by
  induction nodes generalizing start with
  | nil => cases hc
  | cons node rest ih =>
      rcases List.mem_cons.mp hc with rfl | hc
      · rcases List.mem_cons.mp hd with rfl | hd
        · exact absurd rfl hne
        · exact .inl (h.tail.within hd).1
      · rcases List.mem_cons.mp hd with hnode | hd
        · rw [hnode]
          exact .inr (h.tail.within hc).1
        · exact ih h.tail hc hd

end LaidOut

mutual

/-- Everything in a nested tree is nested and lies where the tree does. -/
theorem within_of_mem_nodes : ∀ node : Node, node.isNested = true → ∀ x ∈ node.nodes,
    x.isNested = true ∧ node.span.start ≤ x.span.start ∧ x.span.stop ≤ node.span.stop
  | ⟨kind, role, span, text, children⟩, hnested => by
    intro x hx
    rcases mem_nodes.mp hx with rfl | hx
    · exact ⟨hnested, Nat.le_refl _, Nat.le_refl _⟩
    · exact within_of_mem_allNodes children (.of_isNested hnested) x hx

theorem within_of_mem_allNodes {start stop : Nat} : ∀ nodes : List Node,
    LaidOut start stop nodes → ∀ x ∈ allNodes nodes,
    x.isNested = true ∧ start ≤ x.span.start ∧ x.span.stop ≤ stop
  | [], _ => by simp [allNodes]
  | node :: rest, hlaid => by
    intro x hx
    have hstart := hlaid.le_head
    have hnode := hlaid.start_le_stop
    have hstop := hlaid.head_le
    rw [allNodes, List.mem_append] at hx
    rcases hx with hx | hx
    · obtain ⟨hnested, hinside⟩ := within_of_mem_nodes node hlaid.isNested_head x hx
      exact ⟨hnested, by omega⟩
    · obtain ⟨hnested, hinside⟩ := within_of_mem_allNodes rest hlaid.tail x hx
      exact ⟨hnested, by omega⟩

end

/-! ## First tokens -/

mutual

/-- Whether a node is a token that covers some text, or starts with one.  On the way to it
there is no method and no comment that could belong to one. -/
def startsWithToken : Node → Bool
  | ⟨_, _, span, _, children⟩ => firstIsToken span children

def firstIsToken (span : Span) : List Node → Bool
  | [] => decide (span.start < span.stop)
  | first :: _ => !first.kind.isMethod && first.kind != .blockComment && first.startsWithToken

end

theorem startsWithToken_eq (node : Node) :
    node.startsWithToken = firstIsToken node.span node.children := by
  cases node
  rw [startsWithToken]

/-- What starts with a token covers some text. -/
theorem nonempty_of_startsWithToken : ∀ node : Node, node.isNested = true →
    node.startsWithToken = true → node.span.start < node.span.stop
  | ⟨_, _, _, _, []⟩, _, h => by
    rw [startsWithToken, firstIsToken] at h
    exact of_decide_eq_true h
  | ⟨_, _, _, _, first :: _⟩, hnested, h => by
    rw [startsWithToken, firstIsToken, Bool.and_eq_true] at h
    have hlaid := LaidOut.of_isNested hnested
    have hfirst := nonempty_of_startsWithToken first hlaid.isNested_head h.2
    exact Nat.lt_of_le_of_lt hlaid.le_head (Nat.lt_of_lt_of_le hfirst hlaid.head_le)

/-- Where the methods in a node can start, with the comments in front of them. -/
def front (node : Node) : Nat :=
  if node.startsWithToken then node.span.start + 1 else node.span.start

theorem le_front (node : Node) : node.span.start ≤ node.front := by
  unfold front
  split
  · exact Nat.le_succ _
  · exact Nat.le_refl _

theorem front_le (node : Node) : node.front ≤ node.span.start + 1 := by
  unfold front
  split
  · exact Nat.le_refl _
  · exact Nat.le_succ _

/-- Tokens have no parts, and whatever is run or declares a method starts with a token. -/
structure IsTokenized (tree : Node) : Prop where
  leaves : ∀ x ∈ tree.nodes, x.kind.isLeaf = true → x.children = []
  starts : ∀ x ∈ tree.nodes, (x.kind.isRun || x.kind.isMethod) = true → x.startsWithToken = true

instance (tree : Node) : Decidable tree.IsTokenized :=
  decidable_of_iff ((∀ x ∈ tree.nodes, x.kind.isLeaf = true → x.children.isEmpty = true) ∧
      ∀ x ∈ tree.nodes, (x.kind.isRun || x.kind.isMethod) = true → x.startsWithToken = true)
    (by simp only [List.isEmpty_iff]; exact ⟨fun h => ⟨h.1, h.2⟩, fun h => ⟨h.leaves, h.starts⟩⟩)

theorem IsTokenized.child {node c : Node} (h : node.IsTokenized) (hc : c ∈ node.children) :
    c.IsTokenized :=
  ⟨fun x hx => h.leaves x (nodes_subset_of_child hc hx),
    fun x hx => h.starts x (nodes_subset_of_child hc hx)⟩

end Node

end EntryPoints.Java
