import EntryPoints.Proofs.LocalTypes
import EntryPoints.Proofs.Sites

/-!
# Types have locations of their own

A declared type covers its whole declaration, and a class without a name covers the creation or
the enum constant in front of its body.  What else is declared in such a construct is declared in
one of its parts, and the construct covers more than that part: something stands in front of the
body of a type.  So the location of a declared type tells which one it is.
-/

namespace EntryPoints

open Java

/-! ## Types in parts -/

/-- The types that are read in some nodes lie each in one that is read. -/
theorem exists_isWithin_surveyAll (place : Place) (isRead : Node → Bool) {start stop : Nat}
    (before : Option Node) {nodes : List Node} (numbering : Numbering)
    (hlaid : Node.LaidOut start stop nodes) (hnonempty : ∀ c ∈ nodes, c.HasNoEmptyType) :
    EveryType (fun decl => ∃ c ∈ nodes, isRead c = true ∧
        decl.IsWithin c.span.start c.span.stop)
      (surveyAll place isRead before nodes numbering).1 := by
  induction nodes generalizing start before numbering with
  | nil => exact .nil
  | cons node rest ih =>
      have hnode : EveryType (fun decl => ∃ c ∈ node :: rest, isRead c = true ∧
            decl.IsWithin c.span.start c.span.stop)
          (if isRead node then survey place before node numbering else ([], numbering)).1 := by
        split
        next hread =>
          exact (areWithin_survey place before node numbering hlaid.isNested_head
            (hnonempty node List.mem_cons_self)).mono
              fun decl hdecl => ⟨node, List.mem_cons_self, hread, hdecl⟩
        next => exact .nil
      have hrest (c : Node) (hc : c ∈ rest) : c.HasNoEmptyType :=
        hnonempty c (List.mem_cons_of_mem _ hc)
      unfold surveyAll
      refine hnode.append ((ih _ _ hlaid.tail hrest).mono fun decl hdecl => ?_)
      obtain ⟨c, hc, hread, hwithin⟩ := hdecl
      exact ⟨c, List.mem_cons_of_mem _ hc, hread, hwithin⟩

/-- The location of a type tells which one of the facts declares it. -/
def AreLocated (facts : List Fact) : Prop :=
  ∀ decl other, .type decl ∈ facts → .type other ∈ facts → decl.location = other.location →
    decl = other

namespace AreLocated

variable {facts more : List Fact}

theorem nil : AreLocated [] := fun _ _ hdecl => absurd hdecl List.not_mem_nil

theorem append (h : AreLocated facts) (hmore : AreLocated more)
    (hapart : ∀ decl other, .type decl ∈ facts → .type other ∈ more →
      decl.location ≠ other.location) : AreLocated (facts ++ more) := by
  intro decl other hdecl hother hsame
  rcases List.mem_append.mp hdecl with hdecl | hdecl <;>
    rcases List.mem_append.mp hother with hother | hother
  · exact h decl other hdecl hother hsame
  · exact absurd hsame (hapart decl other hdecl hother)
  · exact absurd hsame.symm (hapart other decl hother hdecl)
  · exact hmore decl other hdecl hother hsame

theorem type {decl : TypeDecl} (h : AreLocated facts)
    (hinside : EveryType (fun other => other.location ≠ decl.location) facts) :
    AreLocated (.type decl :: facts) := by
  intro first second hfirst hsecond hsame
  rcases List.mem_cons.mp hfirst with hfirst | hfirst <;>
    rcases List.mem_cons.mp hsecond with hsecond | hsecond
  · cases hfirst
    cases hsecond
    rfl
  · cases hfirst
    exact absurd hsame.symm (hinside second hsecond)
  · cases hsecond
    exact absurd hsame (hinside first hfirst)
  · exact h first second hfirst hsecond hsame

theorem method (decl : MethodDecl) (h : AreLocated facts) :
    AreLocated (.method decl :: facts) := by
  intro first second hfirst hsecond
  rcases List.mem_cons.mp hfirst with hfirst | hfirst
  · cases hfirst
  · rcases List.mem_cons.mp hsecond with hsecond | hsecond
    · cases hsecond
    · exact h first second hfirst hsecond

/-- What a construct states by itself declares no type. -/
theorem own {place : Place} {node : Node} (hown : place.States node more)
    (h : AreLocated facts) : AreLocated (more ++ facts) := by
  have hnone : EveryType (fun _ => False) more := .of_states hown
  have hstated : AreLocated more := fun decl _ hdecl => (hnone decl hdecl).elim
  exact hstated.append h fun decl _ hdecl => (hnone decl hdecl).elim

end AreLocated

/-- A type in a part of a construct is narrower than the construct when another part covers some
text. -/
theorem TypeDecl.IsWithin.location_ne {place : Place} {node c d : Node} {decl : TypeDecl}
    (h : decl.IsWithin c.span.start c.span.stop)
    (hlaid : Node.LaidOut node.span.start node.span.stop node.children)
    (hc : c ∈ node.children) (hd : d ∈ node.children) (hne : c ≠ d)
    (hcovers : d.span.start < d.span.stop) :
    decl.location ≠ some (place.locate node) := by
  intro hlocation
  obtain ⟨span, hspan, hstart, -, hstop⟩ := h
  cases hlocation.symm.trans hspan
  have hother := hlaid.within hd
  change (c.span.start : Int) ≤ node.span.start at hstart
  change (node.span.stop : Int) ≤ c.span.stop at hstop
  rcases hlaid.apart hc hd hne with hapart | hapart
  · omega
  · omega

/-- Types in parts that are apart have different locations. -/
theorem TypeDecl.IsWithin.location_ne_of_le {low high low' high' : Nat} {decl other : TypeDecl}
    (h : decl.IsWithin low high) (hother : other.IsWithin low' high')
    (hapart : high ≤ low' ∨ high' ≤ low) : decl.location ≠ other.location := by
  intro hsame
  obtain ⟨span, hspan, hstart, hnonempty, hstop⟩ := h
  obtain ⟨place, hplace, hfrom, -, hto⟩ := hother
  cases hspan.symm.trans (hsame.trans hplace)
  omega

/-- What is read of the children of a node has locations of its own, and lies in the children. -/
structure Java.Node.LocatesChildren (node : Node) : Prop where
  located : ∀ (inner : Place) (isRead : Node → Bool) (numbering : Numbering),
    AreLocated (surveyAll inner isRead none node.children numbering).1
  within : ∀ (inner : Place) (isRead : Node → Bool) (numbering : Numbering),
    EveryType (fun decl => ∃ c ∈ node.children, isRead c = true ∧
        decl.IsWithin c.span.start c.span.stop)
      (surveyAll inner isRead none node.children numbering).1

namespace Java.Node.LocatesChildren

variable {node : Node} {place : Place} {decl : TypeDecl}

/-- The types in the body of a type are narrower than the type, which has a part in front. -/
theorem body (h : node.LocatesChildren) (hnested : node.isNested = true)
    (hheads : node.HeadsTypes) (hkind : (node.kind.isType || node.kind.isInstance) = true)
    (hlocation : decl.location = some (place.locate node)) {isRead : Node → Bool}
    (hread : ∀ c, isRead c = node.opens c) (next : Numbering) :
    AreLocated (.type decl :: (place.readBody node decl isRead next).1) := by
  obtain ⟨first, rest, hfirst, hunread, -, hcovers⟩ := hheads.front hkind
  have hfront : first ∈ node.children := by
    rw [hfirst]
    exact List.mem_cons_self
  refine (h.located _ _ _).type fun other hother => ?_
  obtain ⟨c, hc, hreadToo, hwithin⟩ := h.within _ _ _ other hother
  rw [hlocation]
  refine hwithin.location_ne (.of_isNested hnested) hc hfront ?_ hcovers
  rintro rfl
  rw [hread, hunread] at hreadToo
  cases hreadToo

/-- Types in the parts of a construct lie apart from the class behind it and from its types. -/
theorem withClass (h : node.LocatesChildren) (hnested : node.isNested = true)
    (hheads : node.HeadsTypes) (hcloses : node.ClosesInstances)
    (hkind : node.kind.isInstance = true) (hlocation : decl.location = some (place.locate node))
    {own : List Fact} (hown : place.States node own) {isRead : Node → Bool}
    (hopen : Place.AreOpen node.kind isRead)
    (hclass : node.children.any (opensClass node.kind) = true) (numbering next : Numbering) :
    AreLocated ((own ++ (place.readParts node isRead numbering).1) ++
      .type decl :: (place.readBody node decl (opensClass node.kind) next).1) := by
  have hlaid := LaidOut.of_isNested hnested
  have hopens (c : Node) : opensClass node.kind c = node.opens c := by
    rw [opens, (Kind.of_isInstance hkind).1, hkind]
    rfl
  have hapart {c d : Node} (hc : isRead c = true) (hd : opensClass node.kind d = true) :
      c ≠ d := by
    rintro rfl
    have hunread := hopen c hc
    rw [isOpen, hkind, hd] at hunread
    cases hunread
  obtain ⟨body, hmem, hbody⟩ := List.any_eq_true.mp hclass
  have hcovers := (hcloses node (self_mem_nodes node) hkind).2 body hmem
    ((hopens body).symm.trans hbody)
  have hbodies := h.body hnested hheads (Bool.or_eq_true_iff.mpr (.inr hkind)) hlocation hopens next
  refine ((h.located _ _ _).own hown).append hbodies fun other inner hother hinner => ?_
  have hnone : EveryType (fun _ => False) own := .of_states hown
  rcases List.mem_append.mp hother with hother | hother
  · exact (hnone other hother).elim
  obtain ⟨c, hc, hread, hwithin⟩ := h.within _ _ _ other hother
  rcases List.mem_cons.mp hinner with hinner | hinner
  · cases hinner
    rw [hlocation]
    exact hwithin.location_ne hlaid hc hmem (hapart hread hbody) hcovers
  · obtain ⟨d, hd, hclassBody, hwithinToo⟩ := h.within _ _ _ inner hinner
    exact hwithin.location_ne_of_le hwithinToo (hlaid.apart hc hd (hapart hread hclassBody))

end Java.Node.LocatesChildren

mutual

theorem areLocated_survey (place : Place) (before : Option Node) : ∀ (node : Node)
    (numbering : Numbering), node.isNested = true → node.HeadsTypes → node.ClosesInstances →
    AreLocated (survey place before node numbering).1
  | ⟨kind, role, span, text, children⟩, numbering, hnested, hheads, hcloses => by
    let node : Node := ⟨kind, role, span, text, children⟩
    have hlaid : Node.LaidOut node.span.start node.span.stop node.children := .of_isNested hnested
    have hchildren : node.LocatesChildren :=
      ⟨fun inner isRead numbering =>
        areLocated_surveyAll inner isRead none children numbering hlaid
          fun _ hc => ⟨hheads.child hc, hcloses.child hc⟩,
      fun inner isRead numbering => exists_isWithin_surveyAll inner isRead none numbering hlaid
        fun _ hc => (hheads.hasNoEmptyType hnested).child hc⟩
    have houtcome := place.outcome_survey before node numbering
    generalize survey place before node numbering = result at houtcome ⊢
    cases houtcome with
    | nameless => exact .nil
    | type htype hdecl hnext =>
        subst hdecl
        exact hchildren.body hnested hheads (Bool.or_eq_true_iff.mpr (.inl htype)) rfl
          (fun c => ((Node.opens_of_isType htype c).1).symm) _
    | method hkind howner hdecl => exact (hchildren.located _ _ _).method _
    | construct htype hmethod hown hopen => exact (hchildren.located _ _ _).own hown
    | withClass hkind howner hown hopen hdecl hnext hstated hparts hclass =>
        subst hdecl
        exact hchildren.withClass hnested hheads hcloses hkind rfl hown hopen hclass _ _

theorem areLocated_surveyAll (place : Place) (isRead : Node → Bool) {start stop : Nat} :
    ∀ (before : Option Node) (nodes : List Node) (numbering : Numbering),
    Node.LaidOut start stop nodes → (∀ c ∈ nodes, c.HeadsTypes ∧ c.ClosesInstances) →
    AreLocated (surveyAll place isRead before nodes numbering).1
  | _, [], _, _, _ => .nil
  | before, node :: rest, numbering, hlaid, hnodes => by
    obtain ⟨hheads, hcloses⟩ := hnodes node List.mem_cons_self
    have hrest (c : Node) (hc : c ∈ rest) := hnodes c (List.mem_cons_of_mem node hc)
    have hnested := hlaid.isNested_head
    have hnode : AreLocated
          (if isRead node then survey place before node numbering else ([], numbering)).1 ∧
        EveryType (TypeDecl.IsWithin node.span.start node.span.stop)
          (if isRead node then survey place before node numbering else ([], numbering)).1 := by
      split
      · exact ⟨areLocated_survey place before node numbering hnested hheads hcloses,
          areWithin_survey place before node numbering hnested (hheads.hasNoEmptyType hnested)⟩
      · exact ⟨.nil, .nil⟩
    have hbehind (numbering : Numbering) :=
      areWithin_surveyAll place isRead (Place.latestNamed before node) rest numbering hlaid.tail
        fun c hc => (hrest c hc).1.hasNoEmptyType (hlaid.tail.isNested hc)
    unfold surveyAll
    refine hnode.1.append (areLocated_surveyAll place isRead _ rest _ hlaid.tail hrest) ?_
    intro decl other hdecl hother
    exact (hnode.2 decl hdecl).location_ne_of_le (hbehind _ other hother) (.inl (Nat.le_refl _))

end

theorem areLocated_factsOf {tree : Node} (hnested : tree.isNested = true)
    (hheads : tree.HeadsTypes) (hcloses : tree.ClosesInstances) (file : SourceFile) :
    AreLocated (FileFacts.factsOf file tree) :=
  areLocated_survey _ none tree ∅ hnested hheads hcloses

end EntryPoints
