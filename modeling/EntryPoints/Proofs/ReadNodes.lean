import EntryPoints.Facts.Survey
import EntryPoints.Proofs.TreeShapes

/-!
# Reading one node

There are five outcomes of reading a node.  A type is declared, and its body is read inside of
it; nothing is read of a type without a name.  A method is declared in a type, and everything in
it is read inside of the method.  Any other construct states what it runs or says, and its parts
are read in the same place.  Of a creation or an enum constant in a type there may be a class,
which is declared after the other parts of the construct and before its body.
-/

namespace EntryPoints

open Java

/-- Whether a part of a construct stands in the same scopes as the construct. -/
def Java.Node.isOpen (kind : Kind) (part : Node) : Bool :=
  !(kind.isInstance && opensClass kind part)

/-- Whether a part of a construct that is no type is read in the place of the construct. -/
def Java.Node.isOwn (kind : Kind) (part : Node) : Bool :=
  if kind = .enumConstant then isArgumentPart part
  else if kind = .creation then !isClassBody part
  else true

namespace Place

variable (place : Place)

theorem owner_of_holder {place : Place} {owner : TypeDecl} (h : place.holder = some owner) :
    place.owner = some owner ∧ owner.binaryName ≠ "" := by
  rw [holder, Option.filter_eq_some_iff] at h
  simpa using h

theorem isSome_owner {place : Place} (h : place.holder.isSome = true) :
    place.owner.isSome = true := by
  obtain ⟨owner, howner⟩ := Option.isSome_iff_exists.mp h
  rw [(owner_of_holder howner).1]
  rfl

/-! ## What a node states -/

/-- The facts that a node states by itself: what is run there, or what the comment that it is
says. -/
inductive StatedAt (node : Node) : Fact → Prop
  | call {call : Invocation} (kind : call.kind ≠ .documentation)
      (owner : call.owner = place.ownerName) (method : call.method = place.method)
      (location : call.location = place.locate node) : StatedAt node (.invocation call)
  | use (kind : FunctionKind) : StatedAt node (.functionalUse (place.functionalUse kind node))
  | comment (kind : node.kind = .blockComment) : StatedAt node (.docComment (place.locate node))
  | mention (kind : node.kind = .blockComment) (reference : DocReference) :
      StatedAt node (.invocation (place.mentionOf node reference))

theorem statedAt_chainingOf {owner : TypeDecl} {node : Node} {call : Invocation}
    (hcall : place.chainingOf owner node = some call) :
    place.StatedAt node (.invocation call) := by
  unfold chainingOf at hcall
  split at hcall
  · cases hcall
  · simp only at hcall
    split at hcall
    · split at hcall
      · cases hcall
      · cases hcall
        exact .call CallKind.noConfusion rfl rfl rfl
    · split at hcall
      · cases hcall
      · cases hcall
        exact .call CallKind.noConfusion rfl rfl rfl

theorem statedAt_referenceOf {node : Node} {call : Invocation}
    (hcall : place.referenceOf node = some call) : place.StatedAt node (.invocation call) := by
  unfold referenceOf at hcall
  simp only at hcall
  split at hcall
  · split at hcall
    · cases hcall
      exact .call CallKind.noConfusion rfl rfl rfl
    · split at hcall
      · cases hcall
        exact .call CallKind.noConfusion rfl rfl rfl
      · cases hcall
  · cases hcall

theorem of_mem_commentFacts {node : Node} {fact : Fact} (hfact : fact ∈ place.commentFacts node) :
    fact = .docComment (place.locate node) ∨
      ∃ reference, fact = .invocation (place.mentionOf node reference) := by
  unfold commentFacts at hfact
  split at hfact
  · rcases List.mem_cons.mp hfact with hfact | hfact
    · exact .inl hfact
    · split at hfact
      · obtain ⟨reference, -, hfact⟩ := List.mem_map.mp hfact
        exact .inr ⟨reference, hfact.symm⟩
      · cases hfact
  · cases hfact

theorem statedAt_factsAt (node : Node) :
    ∀ fact ∈ place.factsAt node, place.StatedAt node fact := by
  intro fact hfact
  unfold factsAt at hfact
  split at hfact
  · rw [List.mem_singleton.mp hfact]
    exact .call CallKind.noConfusion rfl rfl rfl
  · obtain ⟨call, hcall, rfl⟩ := List.mem_map.mp hfact
    exact place.statedAt_chainingOf (Option.mem_toList.mp hcall)
  · split at hfact
    · cases hfact
    · rcases List.mem_append.mp hfact with hfact | hfact
      · obtain ⟨call, hcall, rfl⟩ := List.mem_map.mp hfact
        exact place.statedAt_referenceOf (Option.mem_toList.mp hcall)
      · rw [List.mem_singleton.mp hfact]
        exact .use _
  · rw [List.mem_singleton.mp hfact]
    exact .use _
  next _ hkind =>
    rcases place.of_mem_commentFacts hfact with rfl | ⟨reference, rfl⟩
    · exact .comment hkind
    · exact .mention hkind reference
  · cases hfact

theorem statedAt_creationFacts (node : Node) :
    ∀ fact ∈ place.creationFacts node, place.StatedAt node fact := by
  intro fact hfact
  unfold creationFacts at hfact
  split at hfact
  · split at hfact
    · cases hfact
    · rw [List.mem_singleton.mp hfact]
      exact .call CallKind.noConfusion rfl rfl rfl
  · cases hfact

/-- The facts that a node states by itself, the creation of an object included. -/
def ownFacts (node : Node) : List Fact :=
  if node.kind = .creation then place.creationFacts node else place.factsAt node

theorem statedAt_ownFacts (node : Node) :
    ∀ fact ∈ place.ownFacts node, place.StatedAt node fact := by
  unfold ownFacts
  split
  · exact place.statedAt_creationFacts node
  · exact place.statedAt_factsAt node

/-- Outside of all types a node states nothing but that it is a comment. -/
theorem of_mem_ownFacts {place : Place} {node : Node} {fact : Fact}
    (hfact : fact ∈ place.ownFacts node) :
    place.owner.isSome = true ∨ ∃ location, fact = .docComment location := by
  cases hholder : place.holder with
  | some owner => exact .inl (isSome_owner (by rw [hholder]; rfl))
  | none =>
      unfold ownFacts at hfact
      split at hfact
      next =>
        rw [creationFacts, hholder] at hfact
        cases hfact
      next =>
        unfold factsAt at hfact
        rw [hholder] at hfact
        split at hfact
        next _ hsome => cases hsome
        next _ hsome => cases hsome
        next _ hsome => cases hsome
        next _ hsome => cases hsome
        · unfold commentFacts at hfact
          rw [hholder] at hfact
          split at hfact
          · rw [List.mem_singleton.mp hfact]
            exact .inr ⟨_, rfl⟩
          · cases hfact
        · cases hfact

/-! ## Outcomes -/

theorem isType_of_typeKind? {kind : Kind} {typeKind : TypeKind}
    (h : Place.typeKind? kind = some typeKind) : kind.isType = true := by
  cases kind <;> first | rfl | cases h

theorem isType_of_typeKind?_eq_none {kind : Kind} (h : typeKind? kind = none) :
    kind.isType = false := by
  cases kind <;> first | rfl | cases h

/-- The parts of a construct that are read in the same place. -/
def readParts (node : Node) (isRead : Node → Bool) (numbering : Numbering) :
    List Fact × Numbering :=
  surveyAll (place.enter node) isRead none node.children numbering

/-- The body of a type. -/
def readBody (node : Node) (decl : TypeDecl) (isRead : Node → Bool) (numbering : Numbering) :
    List Fact × Numbering :=
  surveyAll ((place.enter node).inType decl) isRead none node.children numbering

/-- Everything in a method. -/
def readMethod (node : Node) (id : String) (numbering : Numbering) : List Fact × Numbering :=
  surveyAll ((place.enter node).inMethod id) (fun _ => true) none node.children numbering

/-- What a node may state here: outside of all types only that it is a comment. -/
def States (node : Node) (own : List Fact) : Prop :=
  ∀ fact ∈ own, place.StatedAt node fact ∧
    (place.owner.isSome = true ∨ ∃ location, fact = .docComment location)

/-- Parts that stand in the same scopes as the construct. -/
def AreOpen (kind : Kind) (isRead : Node → Bool) : Prop :=
  ∀ c, isRead c = true → Node.isOpen kind c = true

/-- What may come of reading a node. -/
inductive Outcome (before : Option Node) (node : Node) (numbering : Numbering) :
    List Fact × Numbering → Prop
  | nameless (htype : node.kind.isType = true) (hname : node.child? .name = none) :
      Outcome before node numbering ([], numbering)
  | type {kind : TypeKind} {decl : TypeDecl} {next : Numbering}
      (htype : node.kind.isType = true)
      (hdecl : (place.declareType kind node numbering).1 = decl)
      (hnext : (place.declareType kind node numbering).2 = next)
      (hname : ∃ name, node.child? .name = some name) :
      Outcome before node numbering (.type decl :: (place.readBody node decl isBodyPart next).1,
        (place.readBody node decl isBodyPart next).2)
  | method {owner : TypeDecl} {decl : MethodDecl} (hkind : node.kind.isMethod = true)
      (howner : place.owner = some owner) (hdecl : place.declareMethod owner before node = decl) :
      Outcome before node numbering (.method decl :: (place.readMethod node decl.id numbering).1,
        (place.readMethod node decl.id numbering).2)
  | construct {own : List Fact} {isRead : Node → Bool} (htype : node.kind.isType = false)
      (hmethod : place.holder.isSome = true → node.kind.isMethod = false)
      (hown : place.States node own) (hread : AreOpen node.kind isRead)
      (hstated : own = place.ownFacts node) (hparts : isRead = Node.isOwn node.kind)
      (hbody : place.holder.isSome = true → node.kind.isInstance = true →
        node.children.any (opensClass node.kind) = false) :
      Outcome before node numbering (own ++ (place.readParts node isRead numbering).1,
        (place.readParts node isRead numbering).2)
  | withClass {owner decl : TypeDecl} {superclass : Option String} {own : List Fact}
      {isRead : Node → Bool} {next : Numbering} (hkind : node.kind.isInstance = true)
      (howner : place.owner = some owner) (hown : place.States node own)
      (hread : AreOpen node.kind isRead)
      (hdecl : (place.declareAnonymous owner superclass node
        (place.readParts node isRead numbering).2).1 = decl)
      (hnext : (place.declareAnonymous owner superclass node
        (place.readParts node isRead numbering).2).2 = next)
      (hstated : own = place.ownFacts node) (hparts : isRead = Node.isOwn node.kind)
      (hbody : node.children.any (opensClass node.kind) = true) :
      Outcome before node numbering
        ((own ++ (place.readParts node isRead numbering).1) ++
          .type decl :: (place.readBody node decl (opensClass node.kind) next).1,
        (place.readBody node decl (opensClass node.kind) next).2)

variable {place}

theorem states_ownFacts (node : Node) : place.States node (place.ownFacts node) :=
  fun fact hfact => ⟨place.statedAt_ownFacts node fact hfact, of_mem_ownFacts hfact⟩

theorem areOpen_isOwn (kind : Kind) : AreOpen kind (Node.isOwn kind) := by
  intro c hread
  unfold Node.isOwn at hread
  unfold Node.isOpen opensClass
  split at hread
  next henum =>
    have hrole : c.role = .arguments := beq_iff_eq.mp hread
    simp [henum, isBodyPart, hrole]
  next henum =>
    split at hread
    next hcreation => simpa [hcreation, Kind.isInstance] using hread
    next hcreation => simp [Kind.isInstance, henum, hcreation]

/-! ### One equation for each outcome -/

section Equations

variable {before : Option Node} {node : Node} {numbering : Numbering} {owner : TypeDecl}

theorem isOwn_of_ne {kind : Kind} (henum : kind ≠ .enumConstant) (hcreation : kind ≠ .creation) :
    Node.isOwn kind = fun _ => true := by
  funext part
  rw [Node.isOwn, if_neg henum, if_neg hcreation]

theorem survey_of_type {kind : TypeKind} (hkind : typeKind? node.kind = some kind) :
    survey place before node numbering =
      if (node.child? .name).isNone then ([], numbering)
      else
        let (decl, next) := place.declareType kind node numbering
        (.type decl :: (place.readBody node decl isBodyPart next).1,
          (place.readBody node decl isBodyPart next).2) := by
  obtain ⟨nodeKind, role, span, text, children⟩ := node
  simp only at hkind
  unfold survey
  simp only [hkind]
  rfl

theorem survey_outside (hkind : typeKind? node.kind = none) (hholder : place.holder = none) :
    survey place before node numbering =
      (place.ownFacts node ++ (place.readParts node (Node.isOwn node.kind) numbering).1,
        (place.readParts node (Node.isOwn node.kind) numbering).2) := by
  obtain ⟨kind, role, span, text, children⟩ := node
  simp only at hkind
  unfold survey
  simp only [hkind, hholder]
  split
  next henum =>
    subst henum
    rfl
  next henum =>
    split
    next hcreation =>
      subst hcreation
      rw [ownFacts, if_pos rfl, creationFacts, hholder]
      rfl
    next hcreation =>
      rw [isOwn_of_ne henum hcreation, ownFacts, if_neg hcreation]
      rfl

theorem survey_of_method (hholder : place.holder = some owner)
    (hmethod : node.kind.isMethod = true) :
    survey place before node numbering =
      let decl := place.declareMethod owner before node
      (.method decl :: (place.readMethod node decl.id numbering).1,
        (place.readMethod node decl.id numbering).2) := by
  obtain ⟨kind, role, span, text, children⟩ := node
  have hkind : typeKind? kind = none := by
    cases kind <;> first | rfl | cases hmethod
  have hdeclares : kind = .methodDeclaration ∨ kind = .constructorDeclaration := by
    simpa [Kind.isMethod] using hmethod
  unfold survey
  simp only [hkind, hholder, if_pos hdeclares]
  rfl

theorem survey_inside (hkind : typeKind? node.kind = none) (hholder : place.holder = some owner)
    (hmethod : node.kind.isMethod = false)
    (hbody : node.kind.isInstance = true → node.children.any (opensClass node.kind) = false) :
    survey place before node numbering =
      (place.ownFacts node ++ (place.readParts node (Node.isOwn node.kind) numbering).1,
        (place.readParts node (Node.isOwn node.kind) numbering).2) := by
  obtain ⟨kind, role, span, text, children⟩ := node
  have hdeclares : ¬ (kind = .methodDeclaration ∨ kind = .constructorDeclaration) := by
    simpa [Kind.isMethod] using hmethod
  simp only at hkind hbody
  unfold survey
  simp only [hkind, hholder, if_neg hdeclares]
  split
  next henum =>
    subst henum
    have hnone : children.any isBodyPart = false := hbody rfl
    rw [hnone]
    rfl
  next henum =>
    split
    next hcreation =>
      subst hcreation
      have hnone : children.any isClassBody = false := hbody rfl
      rw [hnone]
      rfl
    next hcreation =>
      rw [isOwn_of_ne henum hcreation, ownFacts, if_neg hcreation]
      rfl

/-- The class behind a creation or an enum constant is declared after the other parts. -/
theorem survey_withClass (hholder : place.holder = some owner)
    (hinstance : node.kind.isInstance = true)
    (hbody : node.children.any (opensClass node.kind) = true) :
    ∃ superclass, survey place before node numbering =
      let parts := place.readParts node (Node.isOwn node.kind) numbering
      let (decl, next) := place.declareAnonymous owner superclass node parts.2
      ((place.ownFacts node ++ parts.1) ++
          .type decl :: (place.readBody node decl (opensClass node.kind) next).1,
        (place.readBody node decl (opensClass node.kind) next).2) := by
  obtain ⟨kind, role, span, text, children⟩ := node
  have hconstruct : kind = .creation ∨ kind = .enumConstant := by
    simpa [Kind.isInstance] using hinstance
  rcases hconstruct with rfl | rfl
  · have hclass : children.any isClassBody = true := hbody
    refine ⟨place.file.typeOf? ⟨.creation, role, span, text, children⟩, ?_⟩
    unfold survey
    simp only [typeKind?, hholder, hclass]
    rfl
  · have hclass : children.any isBodyPart = true := hbody
    refine ⟨some owner.name, ?_⟩
    unfold survey
    simp only [typeKind?, hholder, hclass]
    rfl

end Equations

theorem outcome_survey (place : Place) (before : Option Node) (node : Node)
    (numbering : Numbering) :
    place.Outcome before node numbering (survey place before node numbering) := by
  cases hkind : typeKind? node.kind with
  | some kind =>
      have htype := isType_of_typeKind? hkind
      rw [survey_of_type hkind]
      split
      next hname => exact .nameless htype (Option.isNone_iff_eq_none.mp hname)
      next hname =>
        rw [Option.isNone_iff_eq_none, ← ne_eq, Option.ne_none_iff_isSome] at hname
        exact .type htype rfl rfl (Option.isSome_iff_exists.mp hname)
  | none =>
      have htype := isType_of_typeKind?_eq_none hkind
      have hstates := place.states_ownFacts node
      have hopen := areOpen_isOwn node.kind
      cases hholder : place.holder with
      | none =>
          have houtside {P : Prop} (h : place.holder.isSome = true) : P := by
            rw [hholder] at h
            cases h
          rw [survey_outside hkind hholder]
          exact .construct htype houtside hstates hopen rfl rfl houtside
      | some owner =>
          have howner := (owner_of_holder hholder).1
          by_cases hmethod : node.kind.isMethod = true
          · rw [survey_of_method hholder hmethod]
            exact .method hmethod howner rfl
          rw [Bool.not_eq_true] at hmethod
          by_cases hclass : node.kind.isInstance = true ∧
              node.children.any (opensClass node.kind) = true
          · obtain ⟨superclass, hsurvey⟩ := survey_withClass hholder hclass.1 hclass.2
            rw [hsurvey]
            exact .withClass hclass.1 howner hstates hopen rfl rfl rfl rfl hclass.2
          · have hnone (hinstance : node.kind.isInstance = true) :
                node.children.any (opensClass node.kind) = false := by
              rw [← Bool.not_eq_true]
              exact fun hbody => hclass ⟨hinstance, hbody⟩
            rw [survey_inside hkind hholder hmethod hnone]
            exact .construct htype (fun _ => hmethod) hstates hopen rfl rfl fun _ => hnone

/-! ## Comments in front of methods -/

theorem of_mem_latestNamed {before : Option Node} {node c : Node}
    (hc : c ∈ latestNamed before node) : c = node ∨ c ∈ before := by
  unfold latestNamed at hc
  split at hc
  · exact .inl (Option.some.inj hc).symm
  · exact .inr hc

theorem le_startWithComment {low : Nat} {before : Option Node} {node : Node}
    (hnode : low ≤ node.span.start)
    (hbefore : ∀ c ∈ before, c.kind = .blockComment → low ≤ c.span.start) :
    low ≤ startWithComment before node := by
  unfold startWithComment
  split
  next comment =>
    split
    next hcomment => exact hbefore comment rfl hcomment.1
    next => exact hnode
  next => exact hnode

end Place

end EntryPoints
