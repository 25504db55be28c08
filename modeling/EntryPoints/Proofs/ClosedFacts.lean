import EntryPoints.Proofs.FactOrigins

/-!
# Closed facts

The facts of a file are listed in the order in which they are read, and each one names only
what was declared before it: the type around it, and the method around it, which is a method
of that type.  The binary name of a type extends the name of the type around it, so a type
never stands inside of itself.

Whatever is written outside of all types is not recorded, so every invocation and every
functional expression has an owner.
-/

namespace EntryPoints

open Java

/-! ## Names of declared types -/

theorem SourceFile.nameOf_ne_empty {node : Node} (h : node.HasNoEmptyName)
    (htype : node.kind.isType = true) {name : Node} (hname : node.child? .name = some name) :
    SourceFile.nameOf node ≠ "" := by
  rw [nameOf, hname]
  exact h node (Node.self_mem_nodes node) htype name hname

theorem ne_empty_of_append {front back : String} (h : back ≠ "") : front ++ back ≠ "" := by
  intro hempty
  exact h (String.append_eq_empty_iff.mp hempty).2

theorem toString_ne_empty (n : Nat) : toString n ≠ "" := by
  intro hempty
  have hdigits : Nat.toDigits 10 n = [] := by
    rw [← Nat.toList_repr]
    exact congrArg String.toList hempty
  exact Nat.toDigits_ne_nil hdigits

/-! ## Grounded facts -/

/-- The owner is a declared type, and the method, if there is one, a declared method of it. -/
def IsOwned (context : List Fact) (owner method : Option String) : Prop :=
  ∃ decl, .type decl ∈ context ∧ owner = some decl.binaryName ∧
    ∀ id, method = some id →
      ∃ m, .method m ∈ context ∧ m.id = id ∧ m.owner = decl.binaryName

/-- A name that extends the name of a type around it, if there is one. -/
def TypeDecl.IsNamed (decl : TypeDecl) : Prop :=
  decl.binaryName ≠ "" ∧ ∀ outer, decl.outer = some outer →
    ∃ suffix, suffix ≠ "" ∧ decl.binaryName = outer ++ "$" ++ suffix

/-- A fact that names only what other facts declare. -/
def Fact.IsGrounded (context : List Fact) : Fact → Prop
  | .type decl => decl.IsNamed ∧
      ∀ outer, decl.outer = some outer → ∃ t, .type t ∈ context ∧ t.binaryName = outer
  | .method decl => ∃ t, .type t ∈ context ∧ t.binaryName = decl.owner
  | .invocation call => IsOwned context call.owner call.method
  | .functionalUse use => IsOwned context use.owner use.method ∧
      ∀ call position, use.target = some (.argument call position) →
        call.owner = use.owner ∧ call.method = use.method
  | .docComment _ => True

/-- Facts that name only what was declared before them. -/
def AreGrounded : List Fact → List Fact → Prop
  | _, [] => True
  | context, fact :: facts => fact.IsGrounded context ∧ AreGrounded (fact :: context) facts

section Facts

variable {context more facts others : List Fact}

theorem IsOwned.mono {owner method : Option String} (h : IsOwned context owner method)
    (hmore : context ⊆ more) : IsOwned more owner method := by
  obtain ⟨decl, hdecl, howner, hmethod⟩ := h
  refine ⟨decl, hmore hdecl, howner, fun id hid => ?_⟩
  obtain ⟨m, hm, hsame⟩ := hmethod id hid
  exact ⟨m, hmore hm, hsame⟩

theorem Fact.IsGrounded.mono {fact : Fact} (h : fact.IsGrounded context)
    (hmore : context ⊆ more) : fact.IsGrounded more := by
  cases fact with
  | type decl =>
      refine ⟨h.1, fun outer houter => ?_⟩
      obtain ⟨t, ht, hname⟩ := h.2 outer houter
      exact ⟨t, hmore ht, hname⟩
  | method decl =>
      obtain ⟨t, ht, hname⟩ := h
      exact ⟨t, hmore ht, hname⟩
  | invocation call => exact IsOwned.mono h hmore
  | functionalUse use => exact ⟨h.1.mono hmore, h.2⟩
  | docComment location => trivial

theorem AreGrounded.mono (h : AreGrounded context facts) (hmore : context ⊆ more) :
    AreGrounded more facts := by
  induction facts generalizing context more with
  | nil => trivial
  | cons fact facts ih => exact ⟨h.1.mono hmore, ih h.2 (List.cons_subset_cons fact hmore)⟩

theorem AreGrounded.append (h : AreGrounded context facts) (hothers : AreGrounded context others) :
    AreGrounded context (facts ++ others) := by
  induction facts generalizing context with
  | nil => exact hothers
  | cons fact facts ih => exact ⟨h.1, ih h.2 (hothers.mono (List.subset_cons_self fact context))⟩

theorem areGrounded_of_forall (h : ∀ fact ∈ facts, fact.IsGrounded context) :
    AreGrounded context facts := by
  induction facts generalizing context with
  | nil => trivial
  | cons fact facts ih =>
      refine ⟨h fact List.mem_cons_self, ih fun other hother => ?_⟩
      exact (h other (List.mem_cons_of_mem fact hother)).mono (List.subset_cons_self fact context)

/-- Each fact is grounded in those before it. -/
theorem AreGrounded.at (h : AreGrounded context facts) {before after : List Fact} {fact : Fact}
    (hfacts : facts = before ++ fact :: after) : fact.IsGrounded (before ++ context) := by
  induction before generalizing context facts with
  | nil =>
      subst hfacts
      exact h.1
  | cons first before ih =>
      subst hfacts
      exact (ih h.2 rfl).mono (by simp)

end Facts

/-! ## Reading a tree -/

theorem SourceFile.hint_of_targetHint {file : SourceFile} {owner method : Option String}
    {around : List Node} {node : Node} {call : Invocation} {position : Nat}
    (hhint : file.targetHint owner method around node = some (.argument call position)) :
    call.owner = owner ∧ call.method = method := by
  have hargument (argument list : Node) (around : List Node)
      (h : file.argumentTarget owner method argument list around =
        some (.argument call position)) : call.owner = owner ∧ call.method = method := by
    unfold argumentTarget at h
    split at h
    · simp only at h
      split at h
      · cases h
        exact ⟨rfl, rfl⟩
      · cases h
        exact ⟨rfl, rfl⟩
      · cases h
    · cases h
  have hreturn (around : List Node) :
      file.returnTarget around ≠ some (.argument call position) := by
    intro h
    unfold returnTarget at h
    obtain ⟨found, -, h⟩ := Option.bind_eq_some_iff.mp h
    split at h
    · cases h
    · cases h
  unfold targetHint at hhint
  split at hhint
  · cases hhint
  · split at hhint
    · split at hhint
      · split at hhint
        · cases hhint
        · cases hhint
      · cases hhint
    · cases hhint
    · exact absurd hhint (hreturn _)
    · split at hhint
      · cases hhint
      · cases hhint
    · exact hargument _ _ _ hhint
    · cases hhint

namespace Place

variable {place : Place} {context : List Fact} {node : Node}

/-- The type and the method that are being read were declared. -/
structure IsGrounded (place : Place) (context : List Fact) : Prop where
  owner : ∀ decl, place.owner = some decl → .type decl ∈ context
  method : ∀ id, place.method = some id → ∃ decl m, place.owner = some decl ∧
    .method m ∈ context ∧ m.id = id ∧ m.owner = decl.binaryName

theorem IsGrounded.enter (h : place.IsGrounded context) (node : Node) :
    (place.enter node).IsGrounded context := ⟨h.owner, h.method⟩

theorem IsGrounded.inType (place : Place) (decl : TypeDecl) (context : List Fact) :
    (place.inType decl).IsGrounded (.type decl :: context) where
  owner other hother := by
    cases hother
    exact List.mem_cons_self
  method id hid := by cases hid

theorem IsGrounded.inMethod (h : place.IsGrounded context) {owner : TypeDecl}
    (howner : place.owner = some owner) {m : MethodDecl} (hm : m.owner = owner.binaryName) :
    (place.inMethod m.id).IsGrounded (.method m :: context) where
  owner decl hdecl := List.mem_cons_of_mem _ (h.owner decl hdecl)
  method id hid := by
    cases hid
    exact ⟨owner, m, howner, List.mem_cons_self, rfl, hm⟩

theorem IsGrounded.isOwned (h : place.IsGrounded context) (howner : place.owner.isSome = true) :
    IsOwned context place.ownerName place.method := by
  obtain ⟨owner, howner⟩ := Option.isSome_iff_exists.mp howner
  refine ⟨owner, h.owner owner howner, ?_, fun id hid => ?_⟩
  · rw [ownerName, howner]
    rfl
  · obtain ⟨decl, m, hdecl, hm, hsame⟩ := h.method id hid
    cases howner.symm.trans hdecl
    exact ⟨m, hm, hsame⟩

/-- What a node states names the type and the method that are being read. -/
theorem areGrounded_of_states (hplace : place.IsGrounded context) {own : List Fact}
    (hown : place.States node own) : AreGrounded context own := by
  refine areGrounded_of_forall fun fact hfact => ?_
  obtain ⟨hstated, hinside | ⟨location, rfl⟩⟩ := hown fact hfact
  · have howned := hplace.isOwned hinside
    cases hstated with
    | call _ hcallOwner hcallMethod _ =>
        rw [← hcallOwner, ← hcallMethod] at howned
        exact howned
    | use _ => exact ⟨howned, fun _ _ => SourceFile.hint_of_targetHint⟩
    | comment _ => trivial
    | mention _ _ => exact howned
  · trivial

/-! ## Declarations -/

theorem isNamed_declareType {kind : TypeKind} (hname : SourceFile.nameOf node ≠ "")
    (numbering : Numbering) : (place.declareType kind node numbering).1.IsNamed := by
  unfold TypeDecl.IsNamed declareType namesOf ownerName
  cases howner : place.owner with
  | none =>
      refine ⟨?_, fun outer houter => by cases houter⟩
      change (if _ then _ else _) ≠ ""
      split
      · exact hname
      · exact ne_empty_of_append hname
  | some owner =>
      cases place.method with
      | none =>
          refine ⟨ne_empty_of_append hname, fun outer houter => ?_⟩
          cases houter
          exact ⟨_, hname, rfl⟩
      | some method =>
          refine ⟨ne_empty_of_append hname, fun outer houter => ?_⟩
          cases houter
          exact ⟨_, ne_empty_of_append hname, String.append_assoc⟩

theorem isNamed_declareAnonymous (owner : TypeDecl) (superclass : Option String) (node : Node)
    (numbering : Numbering) :
    (place.declareAnonymous owner superclass node numbering).1.IsNamed := by
  refine ⟨ne_empty_of_append (toString_ne_empty _), fun outer houter => ?_⟩
  cases houter
  exact ⟨_, toString_ne_empty _, rfl⟩

theorem isGrounded_declareType (hplace : place.IsGrounded context) (kind : TypeKind)
    (hname : SourceFile.nameOf node ≠ "") (numbering : Numbering) :
    (Fact.type (place.declareType kind node numbering).1).IsGrounded context := by
  refine ⟨isNamed_declareType hname numbering, fun outer houter => ?_⟩
  obtain ⟨owner, howner, rfl⟩ := Option.map_eq_some_iff.mp houter
  exact ⟨owner, hplace.owner owner howner, rfl⟩

theorem isGrounded_declareAnonymous (hplace : place.IsGrounded context) {owner : TypeDecl}
    (howner : place.owner = some owner) (superclass : Option String) (node : Node)
    (numbering : Numbering) :
    (Fact.type (place.declareAnonymous owner superclass node numbering).1).IsGrounded context := by
  refine ⟨isNamed_declareAnonymous owner superclass node numbering, fun outer houter => ?_⟩
  cases houter
  exact ⟨owner, hplace.owner owner howner, rfl⟩

theorem isGrounded_declareMethod (hplace : place.IsGrounded context) {owner : TypeDecl}
    (howner : place.owner = some owner) (before : Option Node) (node : Node) :
    (Fact.method (place.declareMethod owner before node)).IsGrounded context :=
  ⟨owner, hplace.owner owner howner, rfl⟩

end Place

mutual

theorem areGrounded_survey (place : Place) (before : Option Node) {context : List Fact}
    (hplace : place.IsGrounded context) : ∀ (node : Node) (numbering : Numbering),
    node.HasNoEmptyName → AreGrounded context (survey place before node numbering).1
  | ⟨kind, role, span, text, children⟩, numbering, hnames => by
    let node : Node := ⟨kind, role, span, text, children⟩
    have hchildren : ∀ c ∈ children, c.HasNoEmptyName := fun _ hc => hnames.child hc
    have hparts (isRead : Node → Bool) (numbering : Numbering) :
        AreGrounded context (place.readParts node isRead numbering).1 :=
      areGrounded_surveyAll _ isRead (hplace.enter node) none children numbering hchildren
    have hbody (decl : TypeDecl) (isRead : Node → Bool) (numbering : Numbering) :
        AreGrounded (.type decl :: context) (place.readBody node decl isRead numbering).1 :=
      areGrounded_surveyAll _ isRead (.inType _ decl context) none children numbering hchildren
    have houtcome := place.outcome_survey before node numbering
    generalize survey place before node numbering = result at houtcome ⊢
    cases houtcome with
    | nameless => trivial
    | type htype hdecl hnext hname =>
        obtain ⟨name, hname⟩ := hname
        exact ⟨hdecl ▸ Place.isGrounded_declareType hplace _
          (SourceFile.nameOf_ne_empty hnames htype hname) numbering, hbody _ _ _⟩
    | method hkind howner hdecl =>
        have hmethod := Place.isGrounded_declareMethod hplace howner before node
        have hinside := (hplace.enter node).inMethod howner
          (m := place.declareMethod _ before node) rfl
        rw [hdecl] at hmethod hinside
        exact ⟨hmethod, areGrounded_surveyAll _ _ hinside none children numbering hchildren⟩
    | construct htype hmethod hown hread =>
        exact (Place.areGrounded_of_states hplace hown).append (hparts _ _)
    | withClass hkind howner hown hread hdecl hnext =>
        exact ((Place.areGrounded_of_states hplace hown).append (hparts _ _)).append
          ⟨hdecl ▸ Place.isGrounded_declareAnonymous hplace howner _ node _, hbody _ _ _⟩

theorem areGrounded_surveyAll (place : Place) (isRead : Node → Bool) {context : List Fact}
    (hplace : place.IsGrounded context) : ∀ (before : Option Node) (nodes : List Node)
    (numbering : Numbering), (∀ c ∈ nodes, c.HasNoEmptyName) →
    AreGrounded context (surveyAll place isRead before nodes numbering).1
  | _, [], _, _ => trivial
  | before, node :: rest, numbering, hnames => by
    have hnode : AreGrounded context
        (if isRead node then survey place before node numbering else ([], numbering)).1 := by
      split
      · exact areGrounded_survey place before hplace node numbering
          (hnames node List.mem_cons_self)
      · trivial
    unfold surveyAll
    exact hnode.append (areGrounded_surveyAll place isRead hplace _ rest _
      fun c hc => hnames c (List.mem_cons_of_mem node hc))

end

/-! ## Files -/

namespace FileFacts

/-- The owner is a type of the file, and the method, if there is one, a method of that type. -/
def Owns (file : FileFacts) (owner method : Option String) : Prop :=
  ∃ decl ∈ file.types, owner = some decl.binaryName ∧
    ∀ id, method = some id → ∃ m ∈ file.methods, m.id = id ∧ m.owner = decl.binaryName

/-- Whatever the file mentions as an owner or a method is recorded with it, and a type extends
the name of a type that was recorded before it. -/
structure IsClosed (file : FileFacts) : Prop where
  types : ∀ before decl after, file.types = before ++ decl :: after →
    decl.IsNamed ∧ ∀ outer, decl.outer = some outer → outer ∈ before.map (·.binaryName)
  methods : ∀ m ∈ file.methods, m.owner ∈ file.types.map (·.binaryName)
  invocations : ∀ call ∈ file.invocations, file.Owns call.owner call.method
  functionalUses : ∀ use ∈ file.functionalUses, file.Owns use.owner use.method
  hints : ∀ use ∈ file.functionalUses, ∀ call position,
    use.target = some (.argument call position) → file.Owns call.owner call.method

section Tree

variable {file : SourceFile} {relativePath : String} {tree : Node}

theorem owns_of_isOwned {owner method : Option String}
    (h : IsOwned (factsOf file tree) owner method) :
    (ofTree file relativePath tree).Owns owner method := by
  obtain ⟨decl, hdecl, howner, hmethod⟩ := h
  refine ⟨decl, mem_types_ofTree.mpr hdecl, howner, fun id hid => ?_⟩
  obtain ⟨m, hm, hsame⟩ := hmethod id hid
  exact ⟨m, mem_methods_ofTree.mpr hm, hsame⟩

theorem areGrounded_factsOf (file : SourceFile) (hnames : tree.HasNoEmptyName) :
    AreGrounded [] (factsOf file tree) := by
  refine areGrounded_survey _ none ⟨fun _ h => ?_, fun _ h => ?_⟩ tree ∅ hnames
  · cases h
  · cases h

/-- Every fact of a tree is grounded in the facts of the tree. -/
theorem isGrounded_of_mem_factsOf {fact : Fact} (h : AreGrounded [] (factsOf file tree))
    (hfact : fact ∈ factsOf file tree) : fact.IsGrounded (factsOf file tree) := by
  obtain ⟨before, after, hsplit⟩ := List.append_of_mem hfact
  refine (h.at hsplit).mono ?_
  rw [List.append_nil, hsplit]
  exact List.subset_append_left _ _

/-- The facts of a tree are closed, whatever the tree looks like, when no name of a type is
empty. -/
theorem isClosed_ofTree (file : SourceFile) (relativePath : String) (hnames : tree.HasNoEmptyName) :
    (ofTree file relativePath tree).IsClosed := by
  have hgrounded := areGrounded_factsOf file hnames
  refine ⟨fun before decl after hsplit => ?_, fun m hm => ?_, fun call hcall => ?_,
    fun use huse => ?_, fun use huse call position htarget => ?_⟩
  · -- The types before a type are declared by facts before its declaration.
    obtain ⟨front, back, hfacts, rfl, hback⟩ := List.filterMap_eq_append_iff.mp hsplit
    obtain ⟨between, fact, behind, rfl, hnone, hfact, -⟩ := List.filterMap_eq_cons_iff.mp hback
    have hdecl : fact = .type decl := by
      cases fact with
      | type other => exact congrArg Fact.type (Option.some.inj hfact)
      | _ => cases hfact
    subst hdecl
    have hplace : factsOf file tree = (front ++ between) ++ .type decl :: behind := by
      rw [List.append_assoc]
      exact hfacts
    have hat := hgrounded.at hplace
    refine ⟨hat.1, fun outer houter => ?_⟩
    obtain ⟨t, ht, hname⟩ := hat.2 outer houter
    rw [List.append_nil] at ht
    rcases List.mem_append.mp ht with ht | ht
    · exact List.mem_map.mpr ⟨t, List.mem_filterMap.mpr ⟨_, ht, rfl⟩, hname⟩
    · cases hnone _ ht
  · obtain ⟨t, ht, hname⟩ := isGrounded_of_mem_factsOf hgrounded (method_mem_factsOf hm)
    exact List.mem_map.mpr ⟨t, mem_types_ofTree.mpr ht, hname⟩
  · exact owns_of_isOwned (isGrounded_of_mem_factsOf hgrounded (invocation_mem_factsOf hcall))
  · exact owns_of_isOwned (isGrounded_of_mem_factsOf hgrounded (functionalUse_mem_factsOf huse)).1
  · have huse := isGrounded_of_mem_factsOf hgrounded (functionalUse_mem_factsOf huse)
    obtain ⟨howner, hmethod⟩ := huse.2 call position htarget
    rw [howner, hmethod]
    exact owns_of_isOwned huse.1

end Tree

end FileFacts

end EntryPoints
