import EntryPoints.Proofs.ReadNodes

/-!
# Types and where they are declared

Bodies, blocks and the file itself are scopes: each declares some types directly.  A type is
outside of the methods of a body when the way from the body to it leads through no method; it
may still lead through a block, such as an initializer or the body of a lambda.

A tree is walked here as the analysis walks it.  A type is not entered, and the body behind a
creation or an enum constant is a scope of its own.
-/

namespace EntryPoints

/-- A name that does not start with a digit and has no dollar sign. -/
def IsPlainName (name : String) : Prop :=
  (∃ c ∈ name.toList.head?, c.isDigit = false) ∧ '$' ∉ name.toList

instance (name : String) : Decidable (IsPlainName name) :=
  decidable_of_iff (name.toList.head?.any (!·.isDigit) = true ∧ '$' ∉ name.toList)
    (by simp [IsPlainName, Option.any_eq_true])

theorem IsPlainName.ne_empty {name : String} (h : IsPlainName name) : name ≠ "" := by
  rintro rfl
  obtain ⟨⟨c, hc, -⟩, -⟩ := h
  cases hc

end EntryPoints

namespace EntryPoints.Java

open SourceFile (nameOf)

/-- The kinds of constructs that hold statements. -/
def Kind.isBlock (kind : Kind) : Bool :=
  kind == .block || kind == .constructorBody || kind == .switchBlock

namespace Node

mutual

/-- The types that are met first on the ways into a node, and those ways end at some kinds. -/
def typesUpTo (stops : Kind → Bool) : Node → List Node
  | ⟨kind, role, span, text, children⟩ =>
    if kind.isType then [⟨kind, role, span, text, children⟩]
    else if stops kind then []
    else typesAmong stops (isOpen kind) children

def typesAmong (stops : Kind → Bool) (isRead : Node → Bool) : List Node → List Node
  | [] => []
  | node :: rest =>
    (if isRead node then typesUpTo stops node else []) ++ typesAmong stops isRead rest

end

/-- The parts of a construct that make up a scope. -/
def isScopePart (kind : Kind) (part : Node) : Bool :=
  if kind.isType then isBodyPart part
  else if kind.isInstance then opensClass kind part
  else kind.isBlock || kind == Kind.program

/-- The kinds behind which nothing is declared directly in the scopes around them. -/
def endsScope (kind : Kind) : Bool := kind.isBlock || kind.isMethod

/-- The kinds that end the reading of the members of a scope.  Only a type has methods. -/
def endsMembers (scope kind : Kind) : Bool := scope != .program && kind.isMethod

/-- The names of the types that a scope declares directly. -/
def directNames (scope : Node) : List String :=
  (typesAmong endsScope (isScopePart scope.kind) scope.children).map nameOf

/-- The names of the types that a scope declares outside of methods. -/
def outerNames (scope : Node) : List String :=
  (typesAmong (endsMembers scope.kind) (isScopePart scope.kind) scope.children).map nameOf

/-- The names of types are plain, and no scope declares two types of a name directly. -/
structure NamesTypesApart (tree : Node) : Prop where
  plain : ∀ node ∈ tree.nodes, node.kind.isType = true → IsPlainName (nameOf node)
  distinct : ∀ scope ∈ tree.nodes, scope.directNames.Nodup

instance (tree : Node) : Decidable tree.NamesTypesApart :=
  decidable_of_iff ((∀ node ∈ tree.nodes, node.kind.isType = true →
      IsPlainName (nameOf node)) ∧ ∀ scope ∈ tree.nodes, scope.directNames.Nodup)
    ⟨fun h => ⟨h.1, h.2⟩, fun h => ⟨h.plain, h.distinct⟩⟩

/-- Blocks that declare types stand in methods of the type around them: outside of methods
types are declared directly. -/
def KeepsLocalTypes (tree : Node) : Prop :=
  ∀ scope ∈ tree.nodes, scope.kind.isBlock = false → scope.outerNames = scope.directNames

instance (tree : Node) : Decidable tree.KeepsLocalTypes :=
  inferInstanceAs (Decidable (∀ _ ∈ _, _))

theorem isScopePart_of_isType {kind : Kind} (h : kind.isType = true) :
    isScopePart kind = isBodyPart ∧ kind ≠ .program ∧ kind.isBlock = false := by
  refine ⟨funext fun part => if_pos h, ?_⟩
  cases kind <;> first | exact absurd h (by decide) | decide

theorem isScopePart_of_isInstance {kind : Kind} (h : kind.isInstance = true) :
    isScopePart kind = opensClass kind ∧ kind ≠ .program ∧ kind.isBlock = false := by
  have htype : ¬kind.isType = true ∧ kind ≠ .program ∧ kind.isBlock = false := by
    cases kind <;> first | exact absurd h (by decide) | decide
  refine ⟨funext fun part => ?_, htype.2⟩
  unfold isScopePart
  rw [if_neg htype.1, if_pos h]

/-! ## Walking -/

section Walking

variable {stops more : Kind → Bool} {isRead isReadToo : Node → Bool}

theorem typesUpTo_of_isType {node : Node} (htype : node.kind.isType = true) :
    typesUpTo stops node = [node] := by
  cases node
  rw [typesUpTo]
  exact if_pos htype

theorem typesUpTo_of_stops {node : Node} (htype : node.kind.isType = false)
    (hstop : stops node.kind = true) : typesUpTo stops node = [] := by
  cases node
  rw [typesUpTo, if_neg (Bool.eq_false_iff.mp htype)]
  exact if_pos hstop

theorem typesUpTo_of_open {node : Node} (htype : node.kind.isType = false)
    (hopen : stops node.kind = false) :
    typesUpTo stops node = typesAmong stops (isOpen node.kind) node.children := by
  cases node
  rw [typesUpTo, if_neg (Bool.eq_false_iff.mp htype)]
  exact if_neg (Bool.eq_false_iff.mp hopen)

mutual

/-- What is met is a type in the tree. -/
theorem of_mem_typesUpTo (stops : Kind → Bool) : ∀ node : Node,
    ∀ x ∈ typesUpTo stops node, x ∈ node.nodes ∧ x.kind.isType = true
  | ⟨kind, role, span, text, children⟩ => by
    intro x hx
    rw [typesUpTo] at hx
    split at hx
    next htype =>
      rw [List.mem_singleton.mp hx]
      exact ⟨self_mem_nodes _, htype⟩
    · split at hx
      · cases hx
      · obtain ⟨hmem, htype⟩ := of_mem_typesAmong stops (isOpen kind) children x hx
        exact ⟨mem_nodes.mpr (.inr hmem), htype⟩

theorem of_mem_typesAmong (stops : Kind → Bool) (isRead : Node → Bool) : ∀ nodes : List Node,
    ∀ x ∈ typesAmong stops isRead nodes, x ∈ allNodes nodes ∧ x.kind.isType = true
  | [] => by simp [typesAmong]
  | node :: rest => by
    intro x hx
    rw [typesAmong, List.mem_append] at hx
    rw [allNodes, List.mem_append]
    rcases hx with hx | hx
    · split at hx
      · obtain ⟨hmem, htype⟩ := of_mem_typesUpTo stops node x hx
        exact ⟨.inl hmem, htype⟩
      · cases hx
    · obtain ⟨hmem, htype⟩ := of_mem_typesAmong stops isRead rest x hx
      exact ⟨.inr hmem, htype⟩

end

theorem typesAmong_sublist_read (stops : Kind → Bool) {nodes : List Node}
    (hread : ∀ c ∈ nodes, isRead c = true → isReadToo c = true) :
    (typesAmong stops isRead nodes).Sublist (typesAmong stops isReadToo nodes) := by
  induction nodes with
  | nil => exact List.Sublist.refl _
  | cons node rest ih =>
      have hrest := ih fun c hc => hread c (List.mem_cons_of_mem node hc)
      rw [typesAmong, typesAmong]
      cases hnode : isRead node with
      | false => exact (List.nil_sublist _).append hrest
      | true =>
          rw [hread node List.mem_cons_self hnode]
          exact (List.Sublist.refl _).append hrest

mutual

/-- Where more kinds end the walk, fewer types are met. -/
theorem length_typesUpTo_le (hstops : ∀ kind, stops kind = true → more kind = true) :
    ∀ node : Node, (typesUpTo more node).length ≤ (typesUpTo stops node).length
  | ⟨kind, role, span, text, children⟩ => by
    rw [typesUpTo, typesUpTo]
    split
    · exact Nat.le_refl _
    · split
      · exact Nat.zero_le _
      next hmore =>
        rw [if_neg fun hstop => hmore (hstops kind hstop)]
        exact length_typesAmong_le hstops (isOpen kind) children

theorem length_typesAmong_le (hstops : ∀ kind, stops kind = true → more kind = true)
    (isRead : Node → Bool) : ∀ nodes : List Node,
    (typesAmong more isRead nodes).length ≤ (typesAmong stops isRead nodes).length
  | [] => Nat.le_refl _
  | node :: rest => by
    have hrest := length_typesAmong_le hstops isRead rest
    rw [typesAmong, typesAmong, List.length_append, List.length_append]
    split
    · have hnode := length_typesUpTo_le hstops node
      omega
    · exact Nat.add_le_add_left hrest 0

end

end Walking

end Node

end EntryPoints.Java
