import EntryPoints.Proofs.ReadNodes

/-!
# Sites in a tree

A site is a node together with the constructs around it.  The way from a site outwards tells in
which bodies of types it stands, whether it stands in the head of a declaration, and which method
or constructor is around it.

The body behind a creation or an enum constant belongs to a class without a name.  Outside of all
types such a body is not read, nor is the head of any type.
-/

namespace EntryPoints.Java

/-- The kinds of declarations that are run when something is called. -/
def Kind.isCallable (kind : Kind) : Bool := kind.isMethod || kind == .compactConstructor

namespace Node

/-- Whether a part of a construct is the body of the type that the construct declares. -/
def opens (whole part : Node) : Bool :=
  whole.kind.isType && isBodyPart part || whole.kind.isInstance && opensClass whole.kind part

/-- Whether a part stands in the head of a type or of an enum constant. -/
def heads (whole part : Node) : Bool :=
  whole.kind.isType && !isBodyPart part ||
    whole.kind == .enumConstant && !isArgumentPart part && !isBodyPart part

section Parts

variable {whole part : Node}

theorem opens_eq_false (htype : whole.kind.isType = false)
    (hinstance : whole.kind.isInstance = false) (part : Node) :
    whole.opens part = false ∧ whole.heads part = false := by
  have henum : (whole.kind == .enumConstant) = false := by
    rw [beq_eq_false_iff_ne]
    intro henum
    rw [henum] at hinstance
    cases hinstance
  rw [opens, heads, htype, hinstance, henum]
  exact ⟨rfl, rfl⟩

/-- Of a type, the body is what is not in the head. -/
theorem opens_of_isType (htype : whole.kind.isType = true) (part : Node) :
    whole.opens part = isBodyPart part ∧ whole.heads part = !isBodyPart part := by
  have hplain : whole.kind.isInstance = false ∧ (whole.kind == .enumConstant) = false := by
    cases hkind : whole.kind <;> rw [hkind] at htype <;>
      first | exact absurd htype (by decide) | decide
  rw [opens, heads, htype, hplain.1, hplain.2]
  simp

/-- What is neither a body nor in a head belongs to the construct. -/
theorem isOwn_iff (htype : whole.kind.isType = false) :
    isOwn whole.kind part = true ↔ whole.opens part = false ∧ whole.heads part = false := by
  rw [isOwn, opens, heads, opensClass, htype]
  by_cases hconstant : whole.kind = .enumConstant
  · have harguments : isArgumentPart part = true → isBodyPart part = false := by
      intro hrole
      rw [isBodyPart, beq_iff_eq.mp hrole]
      rfl
    rw [if_pos hconstant, if_pos hconstant, hconstant]
    cases hrole : isArgumentPart part with
    | true => simp [Kind.isInstance, harguments hrole]
    | false => cases isBodyPart part <;> simp [Kind.isInstance]
  · by_cases hcreation : whole.kind = .creation
    · rw [if_neg hconstant, if_neg hconstant, if_pos hcreation, hcreation]
      simp [Kind.isInstance]
    · rw [if_neg hconstant, if_neg hcreation]
      simp [Kind.isInstance, hconstant, hcreation]

theorem heads_of_opens (h : whole.opens part = true) : whole.heads part = false := by
  by_cases htype : whole.kind.isType = true
  · obtain ⟨hopens, hheads⟩ := opens_of_isType htype part
    rw [hheads, ← hopens, h]
    rfl
  · rw [Bool.not_eq_true] at htype
    rw [opens, htype, Bool.false_and, Bool.false_or, Bool.and_eq_true, opensClass] at h
    rw [heads, htype]
    by_cases hconstant : whole.kind = .enumConstant
    · rw [if_pos hconstant] at h
      simp [h.2]
    · simp [hconstant]

end Parts

/-! ## Parts in front of bodies -/

/-- Whether the first part of a construct stands in front of the type that the construct declares.
It covers some text, and it is no comment that could belong to a method. -/
def startsInFront (whole : Node) : Bool :=
  whole.children.head?.any fun first =>
    !whole.opens first && first.kind != .blockComment && decide (first.span.start < first.span.stop)

/-- Whatever declares a type starts with a part in front of the body of the type. -/
def HeadsTypes (tree : Node) : Prop :=
  ∀ x ∈ tree.nodes, (x.kind.isType || x.kind.isInstance) = true → x.startsInFront = true

instance (tree : Node) : Decidable tree.HeadsTypes :=
  inferInstanceAs (Decidable (∀ _ ∈ _, _))

/-- The body of a class that stands behind a construct covers some text, and it is the last part
of the construct. -/
def ClosesInstances (tree : Node) : Prop :=
  ∀ x ∈ tree.nodes, x.kind.isInstance = true →
    (∀ c ∈ x.children.dropLast, x.opens c = false) ∧
      ∀ c ∈ x.children, x.opens c = true → c.span.start < c.span.stop

instance (tree : Node) : Decidable tree.ClosesInstances :=
  inferInstanceAs (Decidable (∀ _ ∈ _, _))

section Fronts

variable {node c : Node}

theorem HeadsTypes.child (h : node.HeadsTypes) (hc : c ∈ node.children) : c.HeadsTypes :=
  fun x hx => h x (nodes_subset_of_child hc hx)

theorem ClosesInstances.child (h : node.ClosesInstances) (hc : c ∈ node.children) :
    c.ClosesInstances := fun x hx => h x (nodes_subset_of_child hc hx)

theorem exists_front (h : node.startsInFront = true) :
    ∃ first rest, node.children = first :: rest ∧ node.opens first = false ∧
      first.kind ≠ .blockComment ∧ first.span.start < first.span.stop := by
  obtain ⟨first, hfirst, hfront⟩ := (Option.any_eq_true _ _).mp h
  obtain ⟨rest, hrest⟩ := List.head?_eq_some_iff.mp hfirst
  simp only [Bool.and_eq_true, Bool.not_eq_true', bne_iff_ne, decide_eq_true_eq] at hfront
  exact ⟨first, rest, hrest, hfront.1.1, hfront.1.2, hfront.2⟩

theorem HeadsTypes.front (h : node.HeadsTypes)
    (hkind : (node.kind.isType || node.kind.isInstance) = true) :
    ∃ first rest, node.children = first :: rest ∧ node.opens first = false ∧
      first.kind ≠ .blockComment ∧ first.span.start < first.span.stop :=
  exists_front (h node (self_mem_nodes node) hkind)

/-- The body of a class behind a construct is the last part of it. -/
theorem ClosesInstances.exists_body (h : node.ClosesInstances) (hkind : node.kind.isInstance = true)
    (hbody : ∃ c ∈ node.children, node.opens c = true) :
    ∃ front body, node.children = front ++ [body] ∧ node.opens body = true ∧
      ∀ c ∈ front, node.opens c = false := by
  obtain ⟨hfront, -⟩ := h node (self_mem_nodes node) hkind
  obtain ⟨body, hmem, hopens⟩ := hbody
  have hlast := List.dropLast_concat_getLast (List.ne_nil_of_mem hmem)
  refine ⟨node.children.dropLast, _, hlast.symm, ?_, hfront⟩
  rw [← hlast, List.mem_append, List.mem_singleton] at hmem
  rcases hmem with hmem | hlastOf
  · rw [hfront body hmem] at hopens
    cases hopens
  · exact hlastOf ▸ hopens

/-- What declares a type covers some text if its first part does. -/
theorem HeadsTypes.hasNoEmptyType (h : node.HeadsTypes) (hnested : node.isNested = true) :
    node.HasNoEmptyType := by
  intro x hx hkind
  obtain ⟨first, rest, hchildren, -, -, hcovers⟩ := exists_front (h x hx hkind)
  have hlaid := LaidOut.of_isNested (within_of_mem_nodes node hnested x hx).1
  have hfirst := hlaid.within (c := first) (by simp [hchildren])
  omega

end Fronts

end Node

/-! ## Ways outwards -/

/-- The constructs in whose bodies a way starts, the innermost first. -/
def openers : List Node → List Node
  | part :: whole :: way => (if whole.opens part then [whole] else []) ++ openers (whole :: way)
  | _ => []

/-- Whether a way leads through the head of a declaration. -/
def isHeaded : List Node → Bool
  | part :: whole :: way => whole.heads part || isHeaded (whole :: way)
  | _ => false

/-- The innermost method or constructor on a way that stands in the same body. -/
def callable? : List Node → Option Node
  | part :: whole :: way =>
    if whole.opens part then none
    else if whole.kind.isCallable then some whole
    else callable? (whole :: way)
  | _ => none

/-- Whether what stands here is read as part of a type: the outermost body around is that of a
declared type, and no head is around. -/
def isReached (way : List Node) : Bool :=
  (openers way).getLast?.any (·.kind.isType) && !isHeaded way

section Ways

variable {way inner : List Node} {node part whole : Node}

theorem openers_cons (part whole : Node) (way : List Node) :
    openers (part :: whole :: way) =
      (if whole.opens part then [whole] else []) ++ openers (whole :: way) := rfl

theorem openers_suffix (h : way <:+ inner) : openers way <:+ openers inner := by
  induction inner with
  | nil =>
      cases List.suffix_nil.mp h
      exact List.suffix_rfl
  | cons part rest ih =>
      rcases List.suffix_cons_iff.mp h with rfl | hrest
      · exact List.suffix_rfl
      · cases rest with
        | nil =>
            rw [List.suffix_nil.mp hrest]
            exact List.nil_suffix
        | cons whole rest => exact (ih hrest).trans (List.suffix_append _ _)

theorem isHeaded_of_suffix (h : way <:+ inner) (hway : isHeaded way = true) :
    isHeaded inner = true := by
  induction inner with
  | nil =>
      rw [List.suffix_nil.mp h] at hway
      cases hway
  | cons part rest ih =>
      rcases List.suffix_cons_iff.mp h with rfl | hrest
      · exact hway
      · have hinner := ih hrest
        cases rest with
        | nil => cases hinner
        | cons whole rest =>
            unfold isHeaded
            rw [hinner, Bool.or_true]

/-- Nothing is reached through the head of a declaration. -/
theorem isReached_of_heads (hheads : whole.heads part = true)
    (h : part :: whole :: way <:+ inner) : isReached inner = false := by
  have hheaded : isHeaded (part :: whole :: way) = true := by
    unfold isHeaded
    rw [hheads, Bool.true_or]
  unfold isReached
  rw [isHeaded_of_suffix h hheaded, Bool.not_true, Bool.and_false]

/-- Nothing is reached in the body of a class without a name that stands in no type. -/
theorem isReached_of_outermost (hinstance : whole.kind.isType = false)
    (hopens : whole.opens part = true) (houtermost : openers (whole :: way) = [])
    (h : part :: whole :: way <:+ inner) : isReached inner = false := by
  have hsuffix := openers_suffix h
  rw [openers_cons, hopens, if_pos rfl, houtermost, List.append_nil] at hsuffix
  obtain ⟨more, hmore⟩ := hsuffix
  unfold isReached
  rw [← hmore, List.getLast?_concat, Option.any_some, hinstance, Bool.false_and]

end Ways

/-! ## Sites -/

/-- A node with the constructs around it, the innermost first. -/
structure Site where
  node : Node
  around : List Node

def Site.way (site : Site) : List Node := site.node :: site.around

/-- Whether a site is of some kind and is read as part of a type. -/
def Site.isReachedAs (kind : Kind) (site : Site) : Bool :=
  site.node.kind == kind && isReached site.way

mutual

/-- The sites of a node and of everything in it, in the order of the text. -/
def Node.sites (around : List Node) : Node → List Site
  | ⟨kind, role, span, text, children⟩ =>
    let node : Node := ⟨kind, role, span, text, children⟩
    ⟨node, around⟩ :: allSites (node :: around) children

def allSites (around : List Node) : List Node → List Site
  | [] => []
  | node :: rest => Node.sites around node ++ allSites around rest

end

section Sites

variable {around : List Node}

mutual

theorem suffix_of_mem_sites : ∀ (node : Node) (around : List Node),
    ∀ site ∈ node.sites around, node :: around <:+ site.way
  | ⟨kind, role, span, text, children⟩, around => by
    intro site hsite
    unfold Node.sites at hsite
    rcases List.mem_cons.mp hsite with rfl | hsite
    · exact List.suffix_rfl
    · exact (suffix_of_mem_allSites children _ site hsite).trans (List.suffix_cons _ _)

theorem suffix_of_mem_allSites : ∀ (nodes : List Node) (around : List Node),
    ∀ site ∈ allSites around nodes, around <:+ site.around
  | [], _ => by simp [allSites]
  | node :: rest, around => by
    intro site hsite
    rw [allSites, List.mem_append] at hsite
    rcases hsite with hsite | hsite
    · rcases List.suffix_cons_iff.mp (suffix_of_mem_sites node around site hsite) with hsame | hin
      · cases hsame
        exact List.suffix_rfl
      · exact (List.suffix_cons _ _).trans hin
    · exact suffix_of_mem_allSites rest around site hsite

end

theorem allSites_append (nodes more : List Node) :
    allSites around (nodes ++ more) = allSites around nodes ++ allSites around more := by
  induction nodes with
  | nil => rfl
  | cons node nodes ih => rw [List.cons_append, allSites, allSites, ih, List.append_assoc]

/-- Nodes in which nothing is looked for may be left out. -/
theorem allSites_filter_of_unread {wanted : Site → Bool} {isRead : Node → Bool} {nodes : List Node}
    (h : ∀ c ∈ nodes, isRead c = false → ∀ site ∈ c.sites around, wanted site = false) :
    (allSites around nodes).filter wanted =
      (allSites around (nodes.filter isRead)).filter wanted := by
  induction nodes with
  | nil => rfl
  | cons node nodes ih =>
      have hrest := ih fun c hc => h c (List.mem_cons_of_mem _ hc)
      rw [allSites, List.filter_append, hrest]
      by_cases hread : isRead node = true
      · rw [List.filter_cons_of_pos hread, allSites, List.filter_append]
      · have hnone : (node.sites around).filter wanted = [] := by
          rw [List.filter_eq_nil_iff]
          intro site hsite
          rw [h node List.mem_cons_self (Bool.eq_false_iff.mpr hread) site hsite]
          exact Bool.false_ne_true
        rw [List.filter_cons_of_neg hread, hnone, List.nil_append]

end Sites

end EntryPoints.Java
