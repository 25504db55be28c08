import EntryPoints.Proofs.DistinctTypeNames

/-!
# Local types have no qualified names

Inside of a method, and inside of a class without a qualified name, no type has one.  So a type
in a block has none when every block that declares types stands in a method of the type around
it.  The types that are declared elsewhere do not stand in the block: the parts of a tree are
nested or apart.
-/

namespace EntryPoints

open Java

/-- Whether a type stands in a part of the text, behind what opens it. -/
def TypeDecl.StandsIn (decl : TypeDecl) (span : Span) : Prop :=
  ∃ place ∈ decl.location, (span.start : Int) < place.start ∧ place.stop ≤ (span.stop : Int)

instance (decl : TypeDecl) (span : Span) : Decidable (decl.StandsIn span) :=
  inferInstanceAs (Decidable (∃ _ ∈ _, _))

/-! ## Properties of the types of facts -/

/-- Every type that the facts declare has a property. -/
def EveryType (P : TypeDecl → Prop) (facts : List Fact) : Prop :=
  ∀ decl, .type decl ∈ facts → P decl

namespace EveryType

variable {P Q : TypeDecl → Prop} {facts more : List Fact}

theorem nil : EveryType P [] := fun _ hdecl => absurd hdecl List.not_mem_nil

theorem mono (h : EveryType P facts) (hmore : ∀ decl, P decl → Q decl) : EveryType Q facts :=
  fun decl hdecl => hmore decl (h decl hdecl)

theorem append (h : EveryType P facts) (hmore : EveryType P more) :
    EveryType P (facts ++ more) := by
  intro decl hdecl
  rcases List.mem_append.mp hdecl with hdecl | hdecl
  · exact h decl hdecl
  · exact hmore decl hdecl

theorem type {decl : TypeDecl} (hdecl : P decl) (h : EveryType P facts) :
    EveryType P (.type decl :: facts) := by
  intro other hother
  rcases List.mem_cons.mp hother with hother | hother
  · cases hother
    exact hdecl
  · exact h other hother

theorem method (decl : MethodDecl) (h : EveryType P facts) :
    EveryType P (.method decl :: facts) := by
  intro other hother
  rcases List.mem_cons.mp hother with hother | hother
  · cases hother
  · exact h other hother

/-- What a node states declares no types. -/
theorem of_states {place : Place} {node : Node} {own : List Fact}
    (hown : place.States node own) : EveryType P own := by
  intro decl hdecl
  obtain ⟨hstated, -⟩ := hown _ hdecl
  cases hstated

end EveryType

/-! ## Where types are declared -/

/-- A type that is declared between two offsets. -/
def TypeDecl.IsWithin (start stop : Nat) (decl : TypeDecl) : Prop :=
  ∃ place, decl.location = some place ∧ (start : Int) ≤ place.start ∧
    place.start < place.stop ∧ place.stop ≤ (stop : Int)

theorem TypeDecl.IsWithin.mono {start stop start' stop' : Nat} {decl : TypeDecl}
    (h : decl.IsWithin start stop) (hstart : start' ≤ start) (hstop : stop ≤ stop') :
    decl.IsWithin start' stop' := by
  obtain ⟨place, hplace, hfrom, hnonempty, hto⟩ := h
  exact ⟨place, hplace, by omega, hnonempty, by omega⟩

/-- A type does not stand in a part of the text that is apart from where it is declared. -/
theorem TypeDecl.IsWithin.not_standsIn {start stop : Nat} {decl : TypeDecl} {span : Span}
    (h : decl.IsWithin start stop) (hapart : span.stop ≤ start ∨ stop ≤ span.start) :
    ¬ decl.StandsIn span := by
  rintro ⟨place, hplace, hopen, hclose⟩
  obtain ⟨_, hsame, hfrom, hnonempty, hto⟩ := h
  cases hsame.symm.trans hplace
  omega

mutual

theorem areWithin_survey (place : Place) (before : Option Node) : ∀ (node : Node)
    (numbering : Numbering), node.isNested = true → node.HasNoEmptyType →
    EveryType (TypeDecl.IsWithin node.span.start node.span.stop)
      (survey place before node numbering).1
  | ⟨kind, role, span, text, children⟩, numbering, hnested, hnonempty => by
    let node : Node := ⟨kind, role, span, text, children⟩
    have hself (h : (kind.isType || kind.isInstance) = true) : (span.start : Int) < span.stop :=
      Int.ofNat_lt.mpr (hnonempty node (Node.self_mem_nodes node) h)
    have hchildren (inner : Place) (isRead : Node → Bool) (numbering : Numbering) :
        EveryType (TypeDecl.IsWithin span.start span.stop)
          (surveyAll inner isRead none children numbering).1 :=
      areWithin_surveyAll inner isRead none children numbering (.of_isNested hnested)
        fun _ hc => hnonempty.child hc
    have houtcome := place.outcome_survey before node numbering
    generalize survey place before node numbering = result at houtcome ⊢
    cases houtcome with
    | nameless => exact .nil
    | type htype hdecl hnext =>
        subst hdecl
        have hcovers := hself (Bool.or_eq_true_iff.mpr (.inl htype))
        exact .type ⟨place.locate node, rfl, Int.le_refl _, hcovers, Int.le_refl _⟩
          (hchildren _ _ _)
    | method hkind howner hdecl => exact .method _ (hchildren _ _ _)
    | construct htype hmethod hown hopen =>
        exact (EveryType.of_states hown).append (hchildren _ _ _)
    | withClass hkind howner hown hopen hdecl hnext =>
        subst hdecl
        have hcovers := hself (Bool.or_eq_true_iff.mpr (.inr hkind))
        exact ((EveryType.of_states hown).append (hchildren _ _ _)).append
          (.type ⟨place.locate node, rfl, Int.le_refl _, hcovers, Int.le_refl _⟩
            (hchildren _ _ _))

theorem areWithin_surveyAll (place : Place) (isRead : Node → Bool) {start stop : Nat} :
    ∀ (before : Option Node) (nodes : List Node) (numbering : Numbering),
    Node.LaidOut start stop nodes → (∀ c ∈ nodes, c.HasNoEmptyType) →
    EveryType (TypeDecl.IsWithin start stop) (surveyAll place isRead before nodes numbering).1
  | _, [], _, _, _ => .nil
  | before, node :: rest, numbering, hlaid, hnonempty => by
    have hnode : EveryType (TypeDecl.IsWithin node.span.start node.span.stop)
        (if isRead node then survey place before node numbering else ([], numbering)).1 := by
      split
      · exact areWithin_survey place before node numbering hlaid.isNested_head
          (hnonempty node List.mem_cons_self)
      · exact .nil
    have hstart := Nat.le_trans hlaid.le_head hlaid.start_le_stop
    have hrest := areWithin_surveyAll place isRead (Place.latestNamed before node) rest
      (if isRead node then survey place before node numbering else ([], numbering)).2 hlaid.tail
      fun c hc => hnonempty c (List.mem_cons_of_mem node hc)
    unfold surveyAll
    exact (hnode.mono fun decl hdecl => hdecl.mono hlaid.le_head hlaid.head_le).append
      (hrest.mono fun decl hdecl => hdecl.mono hstart (Nat.le_refl _))

end

/-! ## Types without qualified names -/

def TypeDecl.IsUnqualified (decl : TypeDecl) : Prop := decl.qualifiedName = none

/-- A place in a method, or in a type without a qualified name. -/
def Place.IsHidden (place : Place) : Prop :=
  ∃ owner, place.owner = some owner ∧
    (place.method.isSome = true ∨ owner.qualifiedName = none)

theorem Place.IsHidden.inType (place : Place) {decl : TypeDecl} (h : decl.qualifiedName = none) :
    (place.inType decl).IsHidden := ⟨decl, rfl, .inr h⟩

theorem Place.IsHidden.inMethod {place : Place} {owner : TypeDecl}
    (howner : place.owner = some owner) (id : String) : (place.inMethod id).IsHidden :=
  ⟨owner, howner, .inl rfl⟩

theorem Place.IsHidden.declareType {place : Place} (h : place.IsHidden) (kind : TypeKind)
    (node : Node) (numbering : Numbering) :
    (place.declareType kind node numbering).1.qualifiedName = none := by
  obtain ⟨owner, howner, hmethod⟩ := h
  unfold Place.declareType Place.namesOf
  rw [howner]
  cases hmethods : place.method with
  | some method => rfl
  | none =>
      rw [hmethods] at hmethod
      rcases hmethod with hmethod | hmethod
      · cases hmethod
      · change owner.qualifiedName.map _ = none
        rw [hmethod]
        rfl

mutual

/-- Where nothing but local types is declared, no type has a qualified name. -/
theorem areUnqualified_survey (place : Place) (before : Option Node) : ∀ (node : Node)
    (numbering : Numbering), node.HasPlainScopes →
    place.IsHidden ∨ Node.typesUpTo place.stops node = [] →
    EveryType TypeDecl.IsUnqualified (survey place before node numbering).1
  | ⟨kind, role, span, text, children⟩, numbering, hscopes, hplace => by
    let node : Node := ⟨kind, role, span, text, children⟩
    have hchildren (inner : Place) (isRead : Node → Bool) (numbering : Numbering)
        (hinner : inner.IsHidden ∨ Node.typesAmong inner.stops isRead children = []) :
        EveryType TypeDecl.IsUnqualified (surveyAll inner isRead none children numbering).1 :=
      areUnqualified_surveyAll inner isRead none children numbering
        (fun _ hc => hscopes.child hc) hinner
    -- The parts of a construct that ends no reading hold no other types than the construct.
    have hparts (htype : kind.isType = false) (hstop : place.stops kind = false)
        {isRead : Node → Bool} (hopen : Place.AreOpen kind isRead) (numbering : Numbering) :
        EveryType TypeDecl.IsUnqualified (place.readParts node isRead numbering).1 := by
      refine hchildren (place.enter node) isRead numbering (hplace.imp id fun hnone => ?_)
      rw [Node.typesUpTo_of_open htype hstop] at hnone
      have hsub : (Node.typesAmong place.stops isRead children).Sublist _ :=
        Node.typesAmong_sublist_read place.stops fun c _ => hopen c
      exact List.sublist_nil.mp (hnone ▸ hsub)
    have houtcome := place.outcome_survey before node numbering
    generalize survey place before node numbering = result at houtcome ⊢
    cases houtcome with
    | nameless => exact .nil
    | @type typeKind decl next htype hdecl hnext =>
        subst hdecl
        rcases hplace with hhidden | hnone
        · have hunnamed := hhidden.declareType typeKind node numbering
          exact .type hunnamed (hchildren _ _ _ (.inl (.inType _ hunnamed)))
        · rw [Node.typesUpTo_of_isType htype] at hnone
          cases hnone
    | method hkind howner hdecl =>
        exact .method _ (hchildren _ _ _ (.inl (.inMethod howner _)))
    | construct htype hmethod hown hopen =>
        refine (EveryType.of_states hown).append (hparts htype ?_ hopen numbering)
        rw [Place.stops, Bool.and_eq_false_imp]
        exact hmethod
    | withClass hkind howner hown hopen hdecl hnext =>
        subst hdecl
        obtain ⟨htype, hmethod⟩ := Kind.of_isInstance hkind
        refine ((EveryType.of_states hown).append (hparts htype ?_ hopen numbering)).append
          (.type rfl (hchildren _ _ _ (.inl (.inType _ rfl))))
        rw [Place.stops, hmethod, Bool.and_false]

theorem areUnqualified_surveyAll (place : Place) (isRead : Node → Bool) :
    ∀ (before : Option Node) (nodes : List Node) (numbering : Numbering),
    (∀ c ∈ nodes, c.HasPlainScopes) →
    place.IsHidden ∨ Node.typesAmong place.stops isRead nodes = [] →
    EveryType TypeDecl.IsUnqualified (surveyAll place isRead before nodes numbering).1
  | _, [], _, _, _ => .nil
  | before, node :: rest, numbering, hscopes, hplace => by
    rw [Node.typesAmong, List.append_eq_nil_iff] at hplace
    have hnode : EveryType TypeDecl.IsUnqualified
        (if isRead node then survey place before node numbering else ([], numbering)).1 := by
      split
      next hread =>
        rw [if_pos hread] at hplace
        exact areUnqualified_survey place before node numbering (hscopes node List.mem_cons_self)
          (hplace.imp id And.left)
      · exact .nil
    unfold surveyAll
    exact hnode.append (areUnqualified_surveyAll place isRead _ rest _
      (fun c hc => hscopes c (List.mem_cons_of_mem node hc)) (hplace.imp id And.right))

end

/-! ## Types in blocks -/

namespace Java.Node

/-- All types that are met in a node before a kind that stops are declared directly. -/
def IsDirect (stops : Kind → Bool) (node : Node) : Prop :=
  (typesUpTo stops node).length ≤ (typesUpTo endsScope node).length

/-- When all types of some nodes are declared directly, so are those of each node. -/
theorem isDirect_of_typesAmong {stops : Kind → Bool} {isRead : Node → Bool}
    (hstops : ∀ kind, stops kind = true → endsScope kind = true) {nodes : List Node}
    (h : (typesAmong stops isRead nodes).length ≤ (typesAmong endsScope isRead nodes).length) :
    ∀ c ∈ nodes, isRead c = true → c.IsDirect stops := by
  induction nodes with
  | nil => exact fun c hc => absurd hc List.not_mem_nil
  | cons node rest ih =>
      have hrest := length_typesAmong_le hstops isRead rest
      rw [typesAmong, typesAmong, List.length_append, List.length_append] at h
      intro c hc hread
      rcases List.mem_cons.mp hc with rfl | hc
      · rw [if_pos hread, if_pos hread] at h
        unfold IsDirect
        omega
      · refine ih ?_ c hc hread
        split at h
        · have hnode := length_typesUpTo_le hstops node
          omega
        · omega

theorem KeepsLocalTypes.child {node c : Node} (h : node.KeepsLocalTypes)
    (hc : c ∈ node.children) : c.KeepsLocalTypes :=
  fun scope hscope => h scope (allNodes_subset_nodes node (mem_allNodes.mpr ⟨c, hc, hscope⟩))

/-- The parts of a scope that is no block declare all their types directly. -/
theorem KeepsLocalTypes.isDirect {node : Node} (h : node.KeepsLocalTypes)
    (hblock : node.kind.isBlock = false) :
    ∀ c ∈ node.children, isScopePart node.kind c = true →
      c.IsDirect (endsMembers node.kind) := by
  apply isDirect_of_typesAmong
  · intro kind hkind
    rw [endsMembers, Bool.and_eq_true] at hkind
    rw [endsScope, hkind.2, Bool.or_true]
  · have hnames := congrArg List.length (h node (self_mem_nodes node) hblock)
    rw [outerNames, directNames, List.length_map, List.length_map] at hnames
    exact Nat.le_of_eq hnames

end Java.Node

/-- No type in one of the blocks has a qualified name. -/
def HidesLocals (nodes : List Node) (facts : List Fact) : Prop :=
  ∀ block ∈ nodes, block.kind.isBlock = true →
    EveryType (fun decl => decl.StandsIn block.span → decl.IsUnqualified) facts

theorem HidesLocals.of_unqualified {facts : List Fact} (h : EveryType TypeDecl.IsUnqualified facts)
    (nodes : List Node) : HidesLocals nodes facts :=
  fun _ _ _ => h.mono fun _ hdecl _ => hdecl

theorem Place.endsScope_of_stops {place : Place} {kind : Kind} (h : place.stops kind = true) :
    Node.endsScope kind = true := by
  rw [Place.stops, Bool.and_eq_true] at h
  rw [Node.endsScope, h.2, Bool.or_true]

/-- Wherever the children of a node are read, the blocks among them hide their types. -/
def Java.Node.HidesBelow (node : Node) : Prop :=
  ∀ (place : Place) (isRead : Node → Bool) (numbering : Numbering),
    (place.IsHidden ∨ ∀ c ∈ node.children, isRead c = true → c.IsDirect place.stops) →
    HidesLocals (Node.allNodes node.children)
      (surveyAll place isRead none node.children numbering).1

namespace Java.Node.HidesBelow

variable {node : Node} {place : Place}

/-- A construct that is neither a type nor the end of a scope: its parts declare their types
directly when it does. -/
theorem parts (h : node.HidesBelow) (htype : node.kind.isType = false)
    (hend : endsScope node.kind = false)
    (hdirect : node.IsDirect place.stops) {own : List Fact} (hown : place.States node own)
    {isRead : Node → Bool} (hopen : Place.AreOpen node.kind isRead) (numbering : Numbering) :
    HidesLocals (allNodes node.children)
      (own ++ (place.readParts node isRead numbering).1) := by
  have hstop : place.stops node.kind = false := by
    rw [← Bool.not_eq_true]
    intro hstop
    rw [Place.endsScope_of_stops hstop] at hend
    cases hend
  unfold IsDirect at hdirect
  rw [typesUpTo_of_open htype hstop, typesUpTo_of_open htype hend] at hdirect
  have hparts := isDirect_of_typesAmong (fun kind => Place.endsScope_of_stops) hdirect
  intro block hmem hblock
  exact (EveryType.of_states hown).append (h (place.enter node) isRead numbering
    (.inr fun c hc hread => hparts c hc (hopen c hread)) block hmem hblock)

/-- A block in a node that is not one itself, nor a method, lies below the node. -/
theorem mem_allNodes_of_isBlock (hend : ¬(node.kind.isType = false ∧ endsScope node.kind = true))
    {block : Node} (hmem : block ∈ node.nodes) (hblock : block.kind.isBlock = true) :
    block ∈ allNodes node.children := by
  rcases mem_nodes.mp hmem with rfl | hmem
  · refine absurd ⟨?_, by rw [endsScope, hblock, Bool.true_or]⟩ hend
    rw [← Bool.not_eq_true]
    intro htype
    rw [(isScopePart_of_isType htype).2.2] at hblock
    cases hblock
  · exact hmem

/-- A type around a block does not stand in it. -/
theorem not_standsIn_of_mem_allNodes (place : Place)
    (hlaid : LaidOut node.span.start node.span.stop node.children) {block : Node}
    (hmem : block ∈ allNodes node.children) (kind : TypeKind) (numbering : Numbering) :
    ¬(place.declareType kind node numbering).1.StandsIn block.span := by
  rintro ⟨location, hlocation, hopen, -⟩
  have hinside := within_of_mem_allNodes node.children hlaid block hmem
  cases hlocation
  change (block.span.start : Int) < node.span.start at hopen
  omega

/-- The blocks in a node hide their types when those among its children do. -/
theorem hidesLocals (h : node.HidesBelow)
    (hlaid : LaidOut node.span.start node.span.stop node.children)
    (hscopes : node.HasPlainScopes) (hlocal : node.KeepsLocalTypes) (before : Option Node)
    (numbering : Numbering) (hplace : place.IsHidden ∨ node.IsDirect place.stops) :
    HidesLocals node.nodes (survey place before node numbering).1 := by
  rcases hplace with hhidden | hdirect
  · exact .of_unqualified (areUnqualified_survey place before node numbering hscopes
      (.inl hhidden)) _
  by_cases hend : node.kind.isType = false ∧ endsScope node.kind = true
  · -- In a block or a method nothing is declared directly, so nothing but local types is declared.
    have hnone : typesUpTo place.stops node = [] := by
      unfold IsDirect at hdirect
      rw [typesUpTo_of_stops hend.1 hend.2] at hdirect
      exact List.length_eq_zero_iff.mp (Nat.le_zero.mp hdirect)
    exact .of_unqualified (areUnqualified_survey place before node numbering hscopes
      (.inr hnone)) _
  have houtcome := place.outcome_survey before node numbering
  generalize survey place before node numbering = result at houtcome ⊢
  intro block hmem hblock
  have hmem := mem_allNodes_of_isBlock hend hmem hblock
  cases houtcome with
  | nameless => exact .nil
  | @type kind decl next htype hdecl hnext =>
      subst hdecl
      obtain ⟨hpart, hprogram, hnoBlock⟩ := isScopePart_of_isType htype
      have hplain := hscopes.name node (self_mem_nodes node) htype
      have hnamed : (place.declareType kind node numbering).1.binaryName ≠ "" :=
        (Place.isNamed_declareType hplain.ne_empty numbering).1
      have hmembers := hlocal.isDirect hnoBlock
      rw [hpart, ← stops_inType place hnamed node hprogram] at hmembers
      have houtside := not_standsIn_of_mem_allNodes place hlaid hmem kind numbering
      exact .type (fun hstands => absurd hstands houtside)
        (h _ isBodyPart next (.inr hmembers) block hmem hblock)
  | @method owner decl hkind howner hdecl =>
      have hhidden : ((place.enter node).inMethod decl.id).IsHidden := .inMethod howner decl.id
      exact .method _ (h ((place.enter node).inMethod _) _ _ (.inl hhidden) block hmem hblock)
  | construct htype hmethod hown hopen =>
      have hopenScope : endsScope node.kind = false := by simpa [htype] using hend
      exact h.parts htype hopenScope hdirect hown hopen numbering block hmem hblock
  | withClass hkind howner hown hopen hdecl hnext =>
      subst hdecl
      obtain ⟨htype, hmethod⟩ := Kind.of_isInstance hkind
      have hopenScope : endsScope node.kind = false := by simpa [htype] using hend
      exact (h.parts htype hopenScope hdirect hown hopen numbering block hmem hblock).append
        (.type (fun _ => rfl) (h _ _ _ (.inl (.inType _ rfl)) block hmem hblock))

end Java.Node.HidesBelow

mutual

theorem hidesBelow : ∀ node : Node, node.isNested = true → node.HasNoEmptyType →
    node.HasPlainScopes → node.KeepsLocalTypes → node.HidesBelow
  | ⟨_, _, _, _, children⟩, hnested, hnonempty, hscopes, hlocal => fun place isRead numbering =>
    hidesLocals_surveyAll place isRead none children numbering (.of_isNested hnested)
      fun _ hc => ⟨hnonempty.child hc, hscopes.child hc, hlocal.child hc⟩

/-- The types of one node do not stand in the blocks of another one. -/
theorem hidesLocals_surveyAll (place : Place) (isRead : Node → Bool) {start stop : Nat} :
    ∀ (before : Option Node) (nodes : List Node) (numbering : Numbering),
    Node.LaidOut start stop nodes →
    (∀ c ∈ nodes, c.HasNoEmptyType ∧ c.HasPlainScopes ∧ c.KeepsLocalTypes) →
    (place.IsHidden ∨ ∀ c ∈ nodes, isRead c = true → c.IsDirect place.stops) →
    HidesLocals (Node.allNodes nodes) (surveyAll place isRead before nodes numbering).1
  | _, [], _, _, _, _ => fun _ hblock => absurd hblock List.not_mem_nil
  | before, node :: rest, numbering, hlaid, hnodes, hplace => by
    obtain ⟨hnonempty, hscopes, hlocal⟩ := hnodes node List.mem_cons_self
    have hnested := hlaid.isNested_head
    have hfacts : EveryType (TypeDecl.IsWithin node.span.start node.span.stop)
        (if isRead node then survey place before node numbering else ([], numbering)).1 ∧
        HidesLocals node.nodes
          (if isRead node then survey place before node numbering else ([], numbering)).1 := by
      split
      next hread =>
        exact ⟨areWithin_survey place before node numbering hnested hnonempty,
          (hidesBelow node hnested hnonempty hscopes hlocal).hidesLocals (.of_isNested hnested)
            hscopes hlocal before numbering
            (hplace.imp id fun hdirect => hdirect node List.mem_cons_self hread)⟩
      · exact ⟨.nil, fun _ _ _ => .nil⟩
    have hothers := hidesLocals_surveyAll place isRead (Place.latestNamed before node) rest
      (if isRead node then survey place before node numbering else ([], numbering)).2 hlaid.tail
      (fun c hc => hnodes c (List.mem_cons_of_mem node hc))
      (hplace.imp id fun hdirect c hc => hdirect c (List.mem_cons_of_mem node hc))
    have hbehind := areWithin_surveyAll place isRead (Place.latestNamed before node) rest
      (if isRead node then survey place before node numbering else ([], numbering)).2 hlaid.tail
      fun c hc => (hnodes c (List.mem_cons_of_mem node hc)).1
    unfold surveyAll
    intro block hmem hblock
    rw [Node.allNodes, List.mem_append] at hmem
    rcases hmem with hmem | hmem
    · have hinside := (Node.within_of_mem_nodes node hnested block hmem).2
      exact (hfacts.2 block hmem hblock).append
        (hbehind.mono fun _ hdecl hstands => absurd hstands (hdecl.not_standsIn (.inl hinside.2)))
    · have hinside := (Node.within_of_mem_allNodes rest hlaid.tail block hmem).2
      refine EveryType.append ?_ (hothers block hmem hblock)
      exact hfacts.1.mono fun _ hdecl hstands =>
        absurd hstands (hdecl.not_standsIn (.inr hinside.1))

end

/-! ## Files -/

namespace FileFacts

theorem hidesLocals_factsOf (file : SourceFile) {tree : Node} (hkind : tree.kind = .program)
    (hnested : tree.isNested = true) (hnonempty : tree.HasNoEmptyType)
    (hscopes : tree.HasPlainScopes) (hlocal : tree.KeepsLocalTypes) :
    HidesLocals tree.nodes (factsOf file tree) := by
  refine (hidesBelow tree hnested hnonempty hscopes hlocal).hidesLocals (.of_isNested hnested)
    hscopes hlocal none ∅ (.inr ?_)
  have hnames := congrArg List.length
    (hlocal tree (Node.self_mem_nodes tree) (by rw [hkind]; rfl))
  rw [Node.outerNames, Node.directNames, List.length_map, List.length_map, hkind] at hnames
  unfold Node.IsDirect
  rw [Node.typesUpTo_of_open (by rw [hkind]; rfl) (by rw [hkind]; rfl),
    Node.typesUpTo_of_open (by rw [hkind]; rfl) (by rw [hkind]; rfl), hkind]
  exact Nat.le_of_eq hnames

/-- The types of a nested tree have different binary names, and none that stands in a block has a
qualified name, when names are plain, no scope declares two types of a name, and every block that
declares types stands in a method of the type around it. -/
theorem types_apart (file : SourceFile) (relativePath : String) {tree : Node}
    (hkind : tree.kind = .program) (hnested : tree.isNested = true)
    (hnonempty : tree.HasNoEmptyType) (hapart : tree.NamesTypesApart)
    (hlocal : tree.KeepsLocalTypes) :
    ((ofTree file relativePath tree).types.map (·.binaryName)).Nodup ∧
      ∀ block ∈ tree.nodes, block.kind.isBlock = true →
        ∀ decl ∈ (ofTree file relativePath tree).types,
          decl.StandsIn block.span → decl.qualifiedName = none := by
  have hscopes := hapart.hasPlainScopes hlocal
  refine ⟨nodup_binaryNames file relativePath hkind hscopes, fun block hmem hblock decl hdecl => ?_⟩
  exact hidesLocals_factsOf file hkind hnested hnonempty hscopes hlocal block hmem hblock decl
    (type_mem_factsOf hdecl)

/-- A member, a local class of the same name, and an anonymous class. -/
theorem types_apart_nested :
    let text :=
      "class A \x7b class L \x7b \x7d void f() \x7b class L \x7b \x7d new L() \x7b \x7d; \x7d \x7d"
    let tree := parse text
    let facts := ofTree ⟨"A.java", text⟩ "A.java" tree
    tree.kind = .program ∧ tree.isNested = true ∧ tree.HasNoEmptyType ∧ tree.NamesTypesApart ∧
      tree.KeepsLocalTypes ∧
      facts.types.map (fun decl => (decl.name, decl.qualifiedName)) =
        [("A", some "A"), ("L", some "A.L"), ("L", none), ("", none)] ∧
      (facts.types.map (·.binaryName)).Nodup ∧
      ∀ block ∈ tree.nodes, block.kind.isBlock = true → ∀ decl ∈ facts.types,
        decl.StandsIn block.span → decl.qualifiedName = none := by
  intro text tree facts
  have hshape : tree.kind = .program ∧ tree.isNested = true ∧ tree.HasNoEmptyType ∧
      tree.NamesTypesApart ∧ tree.KeepsLocalTypes := by
    decide +kernel
  obtain ⟨hkind, hnested, hnonempty, hapart, hlocal⟩ := hshape
  exact ⟨hkind, hnested, hnonempty, hapart, hlocal, by decide +kernel,
    types_apart _ _ hkind hnested hnonempty hapart hlocal⟩

/-- A class in an initializer is named like a member, and may have the name of one. -/
theorem types_collide_in_initializer :
    let text := "class A \x7b \x7b class L \x7b \x7d \x7d class L \x7b \x7d \x7d"
    let tree := parse text
    let facts := ofTree ⟨"A.java", text⟩ "A.java" tree
    tree.isNested = true ∧ tree.NamesTypesApart ∧
      facts.types.map (·.binaryName) = ["A", "A$L", "A$L"] ∧
      ∃ block ∈ tree.nodes, block.kind.isBlock = true ∧ ∃ decl ∈ facts.types,
        decl.StandsIn block.span ∧ decl.qualifiedName = some "A.L" := by
  decide +kernel

end FileFacts

end EntryPoints
