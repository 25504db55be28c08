import EntryPoints.Proofs.ReadNodes

/-!
# Where facts come from

Whatever the facts of a file mention by binary name as an owner is declared by the same
file, and every place that they name lies in it.  The type around a declared type is
declared by the file too, and its binary name is shorter.

A part of the tree is read inside of a type, or outside of all of them.  Its facts name
that type or one that the part declares itself; the type is declared by the part around.
-/

namespace EntryPoints

open Java

/-- The binary name that a fact declares. -/
def Fact.declared? : Fact → Option String
  | .type decl => some decl.binaryName
  | _ => none

/-- The id of a method names the type that declares it, the method, and an offset. -/
def MethodDecl.HasIdOfItsOwn (decl : MethodDecl) : Prop :=
  ∃ offset : Nat, decl.id = decl.owner ++ "#" ++ decl.name ++ "@" ++ toString offset

/-- A fact about a file in which the given owners are declared. -/
def Fact.IsFrom (path : String) (owners : String → Prop) : Fact → Prop
  | .type decl => (∃ place, decl.location = some place ∧ place.file = path) ∧
      ∀ outer, decl.outer = some outer → owners outer ∧ outer.length < decl.binaryName.length
  | .method decl => ((∃ place, decl.location = some place ∧ place.file = path) ∧
      decl.HasIdOfItsOwn) ∧ owners decl.owner
  | .invocation call => call.location.file = path ∧ ∀ owner, call.owner = some owner → owners owner
  | .functionalUse use => use.location.file = path ∧ ∀ owner, use.owner = some owner → owners owner
  | .docComment place => place.file = path

/-- Facts that name as an owner the type around them or one that they declare. -/
def AreFrom (path : String) (around : Option String) (facts : List Fact) : Prop :=
  ∀ fact ∈ facts,
    fact.IsFrom path fun owner => around = some owner ∨ owner ∈ facts.filterMap Fact.declared?

theorem Fact.IsFrom.mono {path : String} {owners more : String → Prop} {fact : Fact}
    (h : fact.IsFrom path owners) (howners : ∀ owner, owners owner → more owner) :
    fact.IsFrom path more := by
  cases fact with
  | type decl =>
      refine ⟨h.1, fun outer houter => ?_⟩
      have hfrom := h.2 outer houter
      exact ⟨howners outer hfrom.1, hfrom.2⟩
  | method decl => exact ⟨h.1, howners _ h.2⟩
  | invocation call => exact ⟨h.1, fun owner howner => howners owner (h.2 owner howner)⟩
  | functionalUse use => exact ⟨h.1, fun owner howner => howners owner (h.2 owner howner)⟩
  | docComment place => exact h

section Parts

variable {path : String} {around : Option String} {facts more : List Fact}

theorem areFrom_nil : AreFrom path around [] := by
  intro fact hfact
  cases hfact

theorem AreFrom.append (hfacts : AreFrom path around facts) (hmore : AreFrom path around more) :
    AreFrom path around (facts ++ more) := by
  intro fact hfact
  rw [List.filterMap_append]
  rcases List.mem_append.mp hfact with hfact | hfact
  · apply (hfacts fact hfact).mono
    intro owner howner
    rcases howner with howner | howner
    · exact .inl howner
    · exact .inr (List.mem_append_left _ howner)
  · apply (hmore fact hfact).mono
    intro owner howner
    rcases howner with howner | howner
    · exact .inl howner
    · exact .inr (List.mem_append_right _ howner)

theorem areFrom_singleton {fact : Fact} (hfact : fact.IsFrom path (around = some ·)) :
    AreFrom path around [fact] := by
  intro other hother
  rw [List.mem_singleton.mp hother]
  exact hfact.mono fun _ => .inl

theorem AreFrom.cons {fact : Fact} (hfact : fact.IsFrom path (around = some ·))
    (hfacts : AreFrom path around facts) : AreFrom path around (fact :: facts) :=
  (areFrom_singleton hfact).append hfacts

/-- The facts from the body of a type, together with the declaration of the type. -/
theorem AreFrom.type {decl : TypeDecl} (hdecl : (Fact.type decl).IsFrom path (around = some ·))
    (hfacts : AreFrom path (some decl.binaryName) facts) :
    AreFrom path around (.type decl :: facts) := by
  intro fact hfact
  rcases List.mem_cons.mp hfact with rfl | hfact
  · exact hdecl.mono fun _ => .inl
  · apply (hfacts fact hfact).mono
    intro owner howner
    rw [List.filterMap_cons]
    rcases howner with howner | howner
    · cases howner
      exact .inr List.mem_cons_self
    · exact .inr (List.mem_cons_of_mem _ howner)

end Parts

namespace Place

variable (place : Place)

theorem length_lt_of_dollar (outer inner : String) :
    outer.length < (outer ++ "$" ++ inner).length := by
  have hdollar : "$".length = 1 := rfl
  rw [String.length_append, String.length_append, hdollar]
  omega

/-- The facts that are read at a place. -/
abbrev Reads (facts : List Fact) : Prop := AreFrom place.file.path place.ownerName facts

theorem isFrom_declareType (kind : TypeKind) (node : Node) (numbering : Numbering) :
    (Fact.type (place.declareType kind node numbering).1).IsFrom place.file.path
      (place.ownerName = some ·) := by
  refine ⟨⟨place.locate node, rfl, rfl⟩, fun outer houter => ⟨houter, ?_⟩⟩
  change place.ownerName = some outer at houter
  unfold ownerName at houter
  cases howner : place.owner with
  | none =>
      rw [howner] at houter
      cases houter
  | some owner =>
      rw [howner] at houter
      cases houter
      unfold declareType namesOf
      rw [howner]
      cases place.method with
      | none => exact length_lt_of_dollar _ _
      | some method =>
          change owner.binaryName.length <
            (owner.binaryName ++ "$" ++ toString _ ++ SourceFile.nameOf node).length
          rw [String.append_assoc]
          exact length_lt_of_dollar _ _

theorem isFrom_declareAnonymous {owner : TypeDecl} (howner : place.owner = some owner)
    (superclass : Option String) (node : Node) (numbering : Numbering) :
    (Fact.type (place.declareAnonymous owner superclass node numbering).1).IsFrom place.file.path
      (place.ownerName = some ·) := by
  refine ⟨⟨place.locate node, rfl, rfl⟩, fun outer houter => ?_⟩
  cases houter
  refine ⟨?_, length_lt_of_dollar _ _⟩
  rw [ownerName, howner]
  rfl

theorem isFrom_declareMethod {owner : TypeDecl} (howner : place.owner = some owner)
    (before : Option Node) (node : Node) :
    (Fact.method (place.declareMethod owner before node)).IsFrom place.file.path
      (place.ownerName = some ·) := by
  refine ⟨⟨⟨_, rfl, rfl⟩, _, rfl⟩, ?_⟩
  rw [ownerName, howner]
  rfl

theorem StatedAt.isFrom {node : Node} {fact : Fact} (hfact : place.StatedAt node fact) :
    fact.IsFrom place.file.path (place.ownerName = some ·) := by
  cases hfact with
  | call _ howner _ hlocation =>
      refine ⟨by rw [hlocation]; rfl, fun owner hcall => ?_⟩
      rw [← howner]
      exact hcall
  | use _ => exact ⟨rfl, fun _ howner => howner⟩
  | comment _ => exact rfl
  | mention _ _ => exact ⟨rfl, fun _ howner => howner⟩

theorem reads_of_states {node : Node} {own : List Fact} (hown : place.States node own) :
    place.Reads own :=
  fun fact hfact => (hown fact hfact).1.isFrom.mono fun _ => .inl

end Place

/-! ## The tree -/

mutual

theorem reads_survey (place : Place) (before : Option Node) : ∀ (node : Node)
    (numbering : Numbering), place.Reads (survey place before node numbering).1
  | ⟨kind, role, span, text, children⟩, numbering => by
    let node : Node := ⟨kind, role, span, text, children⟩
    have hparts (isRead : Node → Bool) (numbering : Numbering) :
        place.Reads (place.readParts node isRead numbering).1 :=
      reads_surveyAll (place.enter node) isRead none children numbering
    have hbody (decl : TypeDecl) (isRead : Node → Bool) (numbering : Numbering) :
        AreFrom place.file.path (some decl.binaryName)
          (place.readBody node decl isRead numbering).1 :=
      reads_surveyAll ((place.enter node).inType decl) isRead none children numbering
    have houtcome := place.outcome_survey before node numbering
    generalize survey place before node numbering = result at houtcome ⊢
    cases houtcome with
    | nameless => exact areFrom_nil
    | type htype hdecl hnext =>
        exact .type (hdecl ▸ place.isFrom_declareType _ node numbering) (hbody _ _ _)
    | method hkind howner hdecl =>
        exact .cons (hdecl ▸ place.isFrom_declareMethod howner before node)
          (reads_surveyAll ((place.enter node).inMethod _) _ none children numbering)
    | construct htype hmethod hown hread =>
        exact (place.reads_of_states hown).append (hparts _ _)
    | withClass hkind howner hown hread hdecl hnext =>
        exact ((place.reads_of_states hown).append (hparts _ _)).append
          (.type (hdecl ▸ place.isFrom_declareAnonymous howner _ node _) (hbody _ _ _))

theorem reads_surveyAll (place : Place) (isRead : Node → Bool) : ∀ (before : Option Node)
    (nodes : List Node) (numbering : Numbering),
    place.Reads (surveyAll place isRead before nodes numbering).1
  | _, [], _ => areFrom_nil
  | before, node :: rest, numbering => by
    have hnode : place.Reads
        (if isRead node then survey place before node numbering else ([], numbering)).1 := by
      split
      · exact reads_survey place before node numbering
      · exact areFrom_nil
    unfold surveyAll
    exact hnode.append (reads_surveyAll place isRead _ rest _)

end

/-! ## Files -/

namespace FileFacts

/-- Whatever a file says is about places in it and about owners that it declares. -/
structure IsSelfContained (file : FileFacts) : Prop where
  types : ∀ decl ∈ file.types, ∃ place, decl.location = some place ∧ place.file = file.file
  outer : ∀ decl ∈ file.types, ∀ outer, decl.outer = some outer →
    outer ∈ file.types.map (·.binaryName) ∧ outer.length < decl.binaryName.length
  methods : ∀ decl ∈ file.methods, (∃ place, decl.location = some place ∧
    place.file = file.file) ∧ decl.owner ∈ file.types.map (·.binaryName)
  ids : ∀ decl ∈ file.methods, decl.HasIdOfItsOwn
  invocations : ∀ call ∈ file.invocations, call.location.file = file.file ∧
    ∀ owner, call.owner = some owner → owner ∈ file.types.map (·.binaryName)
  functionalUses : ∀ use ∈ file.functionalUses, use.location.file = file.file ∧
    ∀ owner, use.owner = some owner → owner ∈ file.types.map (·.binaryName)

/-- Binary names get shorter from a type to the type around it. -/
def NamesNarrow (file : FileFacts) : Prop :=
  ∀ decl ∈ file.types, ∀ outer, decl.outer = some outer → outer.length < decl.binaryName.length

theorem IsSelfContained.namesNarrow {file : FileFacts} (h : file.IsSelfContained) :
    file.NamesNarrow := fun decl hdecl outer houter => (h.outer decl hdecl outer houter).2

/-- What is picked out of a list of facts is stated by one of them. -/
theorem mem_of_mem_filterMap {α : Type} {wrap : α → Fact} {pick : Fact → Option α}
    (hpick : ∀ fact a, pick fact = some a → fact = wrap a) {facts : List Fact} {a : α}
    (ha : a ∈ facts.filterMap pick) : wrap a ∈ facts := by
  obtain ⟨fact, hfact, hsome⟩ := List.mem_filterMap.mp ha
  rw [← hpick fact a hsome]
  exact hfact

section Tree

variable {file : SourceFile} {relativePath : String} {tree : Node}

def factsOf (file : SourceFile) (tree : Node) : List Fact :=
  (survey { file, package := (Header.ofNodes file tree.children).package } none tree ∅).1

theorem type_mem_factsOf {decl : TypeDecl} (hdecl : decl ∈ (ofTree file relativePath tree).types) :
    .type decl ∈ factsOf file tree := by
  apply mem_of_mem_filterMap ?_ hdecl
  intro fact a
  cases fact <;> simp

theorem method_mem_factsOf {decl : MethodDecl}
    (hdecl : decl ∈ (ofTree file relativePath tree).methods) :
    .method decl ∈ factsOf file tree := by
  apply mem_of_mem_filterMap ?_ hdecl
  intro fact a
  cases fact <;> simp

theorem invocation_mem_factsOf {call : Invocation}
    (hcall : call ∈ (ofTree file relativePath tree).invocations) :
    .invocation call ∈ factsOf file tree := by
  apply mem_of_mem_filterMap ?_ hcall
  intro fact a
  cases fact <;> simp

theorem functionalUse_mem_factsOf {use : FunctionalUse}
    (huse : use ∈ (ofTree file relativePath tree).functionalUses) :
    .functionalUse use ∈ factsOf file tree := by
  apply mem_of_mem_filterMap ?_ huse
  intro fact a
  cases fact <;> simp

theorem mem_types_ofTree {decl : TypeDecl} :
    decl ∈ (ofTree file relativePath tree).types ↔ .type decl ∈ factsOf file tree :=
  ⟨type_mem_factsOf, fun hdecl => List.mem_filterMap.mpr ⟨_, hdecl, rfl⟩⟩

theorem mem_methods_ofTree {decl : MethodDecl} :
    decl ∈ (ofTree file relativePath tree).methods ↔ .method decl ∈ factsOf file tree :=
  ⟨method_mem_factsOf, fun hdecl => List.mem_filterMap.mpr ⟨_, hdecl, rfl⟩⟩

/-- Every fact of a tree names owners that the file declares. -/
theorem isFrom_of_mem_factsOf (relativePath : String) {fact : Fact}
    (hfact : fact ∈ factsOf file tree) :
    fact.IsFrom file.path fun owner =>
      owner ∈ (ofTree file relativePath tree).types.map (·.binaryName) := by
  apply (reads_survey _ none tree ∅ fact hfact).mono
  intro owner howner
  rcases howner with hnone | hdeclared
  · cases hnone
  · obtain ⟨declaring, hdeclaring, hname⟩ := List.mem_filterMap.mp hdeclared
    cases declaring with
    | type decl =>
        cases hname
        exact List.mem_map_of_mem (List.mem_filterMap.mpr ⟨.type decl, hdeclaring, rfl⟩)
    | _ => cases hname

theorem isSelfContained_ofTree (file : SourceFile) (relativePath : String) (tree : Node) :
    (ofTree file relativePath tree).IsSelfContained where
  types _ hdecl := (isFrom_of_mem_factsOf relativePath (type_mem_factsOf hdecl)).1
  outer _ hdecl := (isFrom_of_mem_factsOf relativePath (type_mem_factsOf hdecl)).2
  methods _ hdecl :=
    have hfrom := isFrom_of_mem_factsOf relativePath (method_mem_factsOf hdecl)
    ⟨hfrom.1.1, hfrom.2⟩
  ids _ hdecl := (isFrom_of_mem_factsOf relativePath (method_mem_factsOf hdecl)).1.2
  invocations _ hcall := isFrom_of_mem_factsOf relativePath (invocation_mem_factsOf hcall)
  functionalUses _ huse := isFrom_of_mem_factsOf relativePath (functionalUse_mem_factsOf huse)

end Tree

end FileFacts

end EntryPoints
