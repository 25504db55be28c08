import EntryPoints.Proofs.ClosedFacts
import EntryPoints.Proofs.MethodKeys
import EntryPoints.Proofs.TypeScopes

/-!
# Types with names of their own

The binary name of a type extends the name of the type around it by one segment: the simple
name of a member, the number of an anonymous class, or the number and the simple name of a local
class.  Where no name has a dollar sign the segments can be read off the binary name, and the
names that a part of a tree gives can be told from those of the next part by the first segment
that is not common to all of them: members of one scope have different names, numbers only grow,
and no name starts with a digit.
-/

namespace EntryPoints

open Java
open SourceFile (nameOf)

/-! ## Segments of names -/

/-- What may stand behind the number of a class: nothing, or the name of the class. -/
def IsTail (name : String) : Prop := name = "" ∨ IsPlainName name

theorem IsTail.head {name : String} (h : IsTail name) :
    ∀ c ∈ name.toList.head?, c.isDigit = false := by
  intro c hc
  rcases h with rfl | ⟨⟨first, hfirst, hdigit⟩, -⟩
  · cases hc
  · cases hfirst.symm.trans hc
    exact hdigit

theorem eq_of_numbered_eq {n k : Nat} {name other : String} (hname : IsTail name)
    (hother : IsTail other) (h : toString n ++ name = toString k ++ other) :
    n = k ∧ name = other := by
  have hlist := congrArg String.toList h
  rw [String.toList_append, String.toList_append] at hlist
  obtain ⟨hnumber, hback⟩ := cut_unique (p := Char.isDigit) (fun c => isDigit_of_mem_toString)
    (fun c => isDigit_of_mem_toString) hname.head hother.head hlist
  exact ⟨eq_of_toString_eq (String.toList_injective hnumber), String.toList_injective hback⟩

/-- What the numbers of classes are counted under. -/
def counterOf (owner name : String) : String := if name = "" then owner else owner ++ "#" ++ name

/-- How the name of a type may go on behind the name of the type around it, when the numbers that
were given lie between two numberings. -/
inductive IsSegment (owner : Option String) (members : List String) (low high : Numbering) :
    String → Prop
  | member {name : String} (hname : name ∈ members) : IsSegment owner members low high name
  | numbered {around name : String} {n : Nat} (howner : owner = some around) (hname : IsTail name)
      (hlow : low.getD (counterOf around name) 0 < n)
      (hhigh : n ≤ high.getD (counterOf around name) 0) :
      IsSegment owner members low high (toString n ++ name)

/-- Numbers that were given stay given. -/
def Numbering.Grows (low high : Numbering) : Prop := ∀ label, low.getD label 0 ≤ high.getD label 0

section Segments

variable {owner : Option String} {members others : List String} {low mid high : Numbering}
variable {segment : String}

theorem Numbering.Grows.trans (h : low.Grows mid) (hmore : mid.Grows high) : low.Grows high :=
  fun label => Nat.le_trans (h label) (hmore label)

theorem Numbering.grows_next (numbering : Numbering) (label : String) :
    numbering.Grows (numbering.next label).2 := by
  intro other
  unfold next
  simp only [Std.HashMap.getD_insert]
  split
  next hsame =>
    rw [beq_iff_eq.mp hsame]
    exact Nat.le_succ _
  · exact Nat.le_refl _

theorem IsSegment.mono (h : IsSegment owner members low high segment) {low' high' : Numbering}
    (hmembers : members ⊆ others) (hlow : low'.Grows low) (hhigh : high.Grows high') :
    IsSegment owner others low' high' segment := by
  cases h with
  | member hname => exact .member (hmembers hname)
  | numbered howner hname hbefore hafter =>
      exact .numbered howner hname (Nat.lt_of_le_of_lt (hlow _) hbefore)
        (Nat.le_trans hafter (hhigh _))

theorem IsSegment.plain (h : IsSegment owner members low high segment)
    (hmembers : ∀ name ∈ members, IsPlainName name) : '$' ∉ segment.toList := by
  cases h with
  | member hname => exact (hmembers _ hname).2
  | numbered _ hname _ _ =>
      rw [String.toList_append, List.mem_append]
      rintro (hdigit | htail)
      · exact absurd (isDigit_of_mem_toString hdigit) (by decide)
      · rcases hname with rfl | hname
        · cases htail
        · exact hname.2 htail

theorem numbered_ne_member {n : Nat} {name member : String} (hmember : IsPlainName member) :
    toString n ++ name ≠ member := by
  rintro rfl
  obtain ⟨⟨first, hfirst, hnot⟩, -⟩ := hmember
  rw [String.toList_append] at hfirst
  cases hdigits : (toString n).toList with
  | nil => exact toString_ne_empty n (String.toList_eq_nil_iff.mp hdigits)
  | cons digit digits =>
      rw [hdigits] at hfirst
      cases hfirst
      have hdigit : first.isDigit = true :=
        isDigit_of_mem_toString (n := n) (hdigits ▸ List.mem_cons_self)
      rw [hnot] at hdigit
      cases hdigit

/-- A segment is given once: before a numbering or after it. -/
theorem IsSegment.disjoint (h : IsSegment owner members low mid segment)
    (hafter : IsSegment owner others mid high segment)
    (hmembers : ∀ name ∈ members, IsPlainName name) (hothers : ∀ name ∈ others, IsPlainName name)
    (hdisjoint : members.Disjoint others) : False := by
  generalize hsame : segment = same at hafter
  cases h with
  | member hname =>
      cases hafter with
      | member hother => exact hdisjoint hname (hsame ▸ hother)
      | numbered _ _ _ _ => exact numbered_ne_member (hmembers _ hname) hsame.symm
  | numbered howner hname hbefore hmid =>
      cases hafter with
      | member hother => exact numbered_ne_member (hothers _ hother) hsame
      | numbered howner' hname' hmid' hafter' =>
          obtain ⟨rfl, rfl⟩ := eq_of_numbered_eq hname hname' hsame
          cases howner.symm.trans howner'
          exact Nat.lt_irrefl _ (Nat.lt_of_lt_of_le hmid' hmid)

end Segments

/-! ## Names that are given in turn -/

/-- Types with different names, each of which starts with a segment behind a common base. -/
structure AreSpread (base : String) (owner : Option String) (members : List String)
    (low high : Numbering) (facts : List Fact) : Prop where
  grows : low.Grows high
  segments : ∀ name ∈ facts.filterMap Fact.declared?, ∃ segment rest,
    name = base ++ (segment ++ rest) ∧ IsSegment owner members low high segment ∧
      ∀ c ∈ rest.toList.head?, c = '$'
  distinct : (facts.filterMap Fact.declared?).Nodup

namespace AreSpread

variable {base : String} {owner : Option String} {members others : List String}
variable {low mid high : Numbering} {facts more : List Fact}

theorem nil (base : String) (owner : Option String) (members : List String)
    (numbering : Numbering) : AreSpread base owner members numbering numbering [] :=
  ⟨fun _ => Nat.le_refl _, fun _ hname => absurd hname List.not_mem_nil, List.nodup_nil⟩

/-- Facts that declare no types may come first. -/
theorem own {own : List Fact} (hown : own.filterMap Fact.declared? = [])
    (h : AreSpread base owner members low high facts) :
    AreSpread base owner members low high (own ++ facts) := by
  have hsame : (own ++ facts).filterMap Fact.declared? = facts.filterMap Fact.declared? := by
    rw [List.filterMap_append, hown, List.nil_append]
  exact ⟨h.grows, hsame ▸ h.segments, hsame ▸ h.distinct⟩

theorem mono (h : AreSpread base owner members low high facts) (hmembers : members ⊆ others) :
    AreSpread base owner others low high facts := by
  refine ⟨h.grows, fun name hname => ?_, h.distinct⟩
  obtain ⟨segment, rest, hsplit, hsegment, hrest⟩ := h.segments name hname
  exact ⟨segment, rest, hsplit,
    hsegment.mono hmembers (fun _ => Nat.le_refl _) (fun _ => Nat.le_refl _), hrest⟩

theorem append (h : AreSpread base owner members low mid facts)
    (hmore : AreSpread base owner others mid high more)
    (hmembers : ∀ name ∈ members, IsPlainName name) (hothers : ∀ name ∈ others, IsPlainName name)
    (hdisjoint : members.Disjoint others) :
    AreSpread base owner (members ++ others) low high (facts ++ more) := by
  refine ⟨h.grows.trans hmore.grows, fun name hname => ?_, ?_⟩
  · rw [List.filterMap_append, List.mem_append] at hname
    rcases hname with hname | hname
    · obtain ⟨segment, rest, hsplit, hsegment, hrest⟩ := h.segments name hname
      exact ⟨segment, rest, hsplit, hsegment.mono (List.subset_append_left _ _)
        (fun _ => Nat.le_refl _) hmore.grows, hrest⟩
    · obtain ⟨segment, rest, hsplit, hsegment, hrest⟩ := hmore.segments name hname
      exact ⟨segment, rest, hsplit, hsegment.mono (List.subset_append_right _ _)
        h.grows (fun _ => Nat.le_refl _), hrest⟩
  · rw [List.filterMap_append, List.nodup_append]
    refine ⟨h.distinct, hmore.distinct, fun name hname other hother hsame => ?_⟩
    obtain ⟨segment, rest, rfl, hsegment, hrest⟩ := h.segments name hname
    obtain ⟨segment', rest', rfl, hsegment', hrest'⟩ := hmore.segments other hother
    -- Behind the base, both names are cut at the first dollar sign.
    have hlist := congrArg String.toList hsame
    simp only [String.toList_append] at hlist
    have hsegments := (cut_unique (p := (· != '$')) (ne_of_not_mem (hsegment.plain hmembers))
      (ne_of_not_mem (hsegment'.plain hothers)) (by simpa using hrest) (by simpa using hrest')
      (List.append_cancel_left hlist)).1
    rw [← String.toList_injective hsegments] at hsegment'
    exact hsegment.disjoint hsegment' hmembers hothers hdisjoint

/-- Facts that give no names of members follow those that do. -/
theorem append_numbered (h : AreSpread base owner members low mid facts)
    (hmore : AreSpread base owner [] mid high more)
    (hmembers : ∀ name ∈ members, IsPlainName name) :
    AreSpread base owner members low high (facts ++ more) := by
  have happended := h.append hmore hmembers (by simp) (by simp)
  rwa [List.append_nil] at happended

/-- A type with a segment of its own, and the types in its body. -/
theorem type {decl : TypeDecl} {segment : String} (hname : decl.binaryName = base ++ segment)
    (hsegment : IsSegment owner members low mid segment) (hgrows : low.Grows mid)
    (hbody : AreSpread (decl.binaryName ++ "$") (some decl.binaryName) others mid high facts) :
    AreSpread base owner members low high (.type decl :: facts) := by
  have hsegment' := hsegment.mono (List.Subset.refl _) (fun _ => Nat.le_refl _) hbody.grows
  refine ⟨hgrows.trans hbody.grows, fun name hmem => ?_, ?_⟩
  · rcases List.mem_cons.mp hmem with rfl | hmem
    · exact ⟨segment, "", by rw [hname, String.append_empty], hsegment', by simp⟩
    · obtain ⟨inner, rest, rfl, -, -⟩ := hbody.segments name hmem
      refine ⟨segment, "$" ++ (inner ++ rest), ?_, hsegment', by simp⟩
      rw [hname]
      simp only [String.append_assoc]
  · refine List.nodup_cons.mpr ⟨fun hmem => ?_, hbody.distinct⟩
    obtain ⟨inner, rest, hlonger, -, -⟩ := hbody.segments _ hmem
    have hlength := congrArg String.length hlonger
    have hdollar : "$".length = 1 := rfl
    simp only [String.length_append, hdollar] at hlength
    omega

end AreSpread

/-! ## Reading a tree -/

/-- What keeps the names apart that a tree gives to its types. -/
structure Java.Node.HasPlainScopes (node : Node) : Prop where
  name : ∀ x ∈ node.nodes, x.kind.isType = true → IsPlainName (nameOf x)
  scopes : ∀ x ∈ node.nodes, x.kind.isBlock = false → x.outerNames.Nodup

theorem Java.Node.HasPlainScopes.child {node c : Node} (h : node.HasPlainScopes)
    (hc : c ∈ node.children) : c.HasPlainScopes :=
  ⟨fun x hx => h.name x (Node.nodes_subset_of_child hc hx),
    fun x hx => h.scopes x (Node.nodes_subset_of_child hc hx)⟩

namespace Place

variable (place : Place)

/-- What the binary names of the types that are declared here start with. -/
def base : String :=
  match place.owner with
  | some owner => owner.binaryName ++ "$"
  | none => if place.package = "" then "" else place.package ++ "."

/-- Whether the types that are declared here are local ones. -/
def isLocal : Bool := place.owner.isSome && place.method.isSome

/-- Where the members of a type end: its methods declare local types. -/
def stops (kind : Kind) : Bool := place.holder.isSome && kind.isMethod

/-- The names of the members that the types of some nodes become. -/
def memberNames (types : List Node) : List String := if place.isLocal then [] else types.map nameOf

variable {place} {node : Node}

/-- A type is named by a segment behind the base of the place. -/
theorem exists_segment_declareType (place : Place) (kind : TypeKind)
    (hname : IsPlainName (nameOf node)) (numbering : Numbering) :
    ∃ segment, (place.declareType kind node numbering).1.binaryName = place.base ++ segment ∧
      IsSegment place.ownerName (place.memberNames [node]) numbering
        (place.declareType kind node numbering).2 segment ∧
      numbering.Grows (place.declareType kind node numbering).2 := by
  unfold declareType namesOf base memberNames isLocal ownerName
  cases howner : place.owner with
  | none =>
      refine ⟨nameOf node, ?_, .member List.mem_cons_self, fun _ => Nat.le_refl _⟩
      change (if _ then _ else _) = (if _ then _ else _) ++ nameOf node
      split
      · exact String.empty_append.symm
      · rfl
  | some owner =>
      cases place.method with
      | none => exact ⟨nameOf node, rfl, .member List.mem_cons_self, fun _ => Nat.le_refl _⟩
      | some method =>
          have hcounter : counterOf owner.binaryName (nameOf node) =
              owner.binaryName ++ "#" ++ nameOf node := if_neg hname.ne_empty
          refine ⟨_, String.append_assoc, .numbered rfl (.inr hname) ?_ ?_,
            Numbering.grows_next _ _⟩
          · rw [hcounter]
            exact Nat.lt_succ_self _
          · rw [hcounter]
            exact Nat.le_of_eq Std.HashMap.getD_insert_self.symm

theorem exists_segment_declareAnonymous {owner : TypeDecl} (howner : place.owner = some owner)
    (superclass : Option String) (node : Node) (numbering : Numbering) :
    ∃ segment, (place.declareAnonymous owner superclass node numbering).1.binaryName =
        place.base ++ segment ∧
      IsSegment place.ownerName [] numbering
        (place.declareAnonymous owner superclass node numbering).2 segment ∧
      numbering.Grows (place.declareAnonymous owner superclass node numbering).2 := by
  have hsome : place.ownerName = some owner.binaryName := by
    rw [ownerName, howner]
    rfl
  refine ⟨toString _ ++ "", ?_, .numbered hsome (.inl rfl) (Nat.lt_succ_self _) ?_,
    Numbering.grows_next _ _⟩
  · rw [String.append_empty, base, howner]
    rfl
  · exact Nat.le_of_eq Std.HashMap.getD_insert_self.symm

theorem declared_of_states {own : List Fact} (h : place.States node own) :
    own.filterMap Fact.declared? = [] := by
  rw [List.filterMap_eq_nil_iff]
  intro fact hfact
  obtain ⟨hstated, -⟩ := h fact hfact
  cases hstated <;> rfl

end Place

theorem stops_inType (place : Place) {decl : TypeDecl} (hdecl : decl.binaryName ≠ "") (node : Node)
    (hkind : node.kind ≠ .program) :
    ((place.enter node).inType decl).stops = Node.endsMembers node.kind := by
  funext kind
  simp [Place.stops, Place.holder, Place.inType, Node.endsMembers, hkind, hdecl]

/-- The bodies behind a construct are read as the scope that it opens. -/
theorem memberNames_inType (place : Place) {decl : TypeDecl} (hdecl : decl.binaryName ≠ "")
    (node : Node) (hkind : node.kind ≠ .program) :
    ((place.enter node).inType decl).memberNames
        (Node.typesAmong ((place.enter node).inType decl).stops (Node.isScopePart node.kind)
          node.children) = node.outerNames := by
  rw [stops_inType place hdecl node hkind]
  rfl

theorem Place.memberNames_append (place : Place) (types more : List Node) :
    place.memberNames (types ++ more) = place.memberNames types ++ place.memberNames more := by
  unfold memberNames
  split
  · rfl
  · exact List.map_append

theorem Place.memberNames_sublist (place : Place) {types more : List Node}
    (h : types.Sublist more) : (place.memberNames types).Sublist (place.memberNames more) := by
  unfold memberNames
  split
  · exact List.Sublist.refl _
  · exact h.map _

theorem Place.isPlainName_of_mem {place : Place} {types : List Node}
    (htypes : ∀ x ∈ types, IsPlainName (nameOf x)) :
    ∀ name ∈ place.memberNames types, IsPlainName name := by
  intro name hname
  unfold memberNames at hname
  split at hname
  · cases hname
  · obtain ⟨x, hx, rfl⟩ := List.mem_map.mp hname
    exact htypes x hx

/-- What is read of some nodes has plain names. -/
theorem isPlainName_typesAmong {stops : Kind → Bool} {isRead : Node → Bool} {nodes : List Node}
    (hscopes : ∀ c ∈ nodes, c.HasPlainScopes) :
    ∀ x ∈ Node.typesAmong stops isRead nodes, IsPlainName (nameOf x) := by
  intro x hx
  obtain ⟨hmem, htype⟩ := Node.of_mem_typesAmong stops isRead nodes x hx
  obtain ⟨c, hc, hxc⟩ := Node.mem_allNodes.mp hmem
  exact (hscopes c hc).name x hxc htype

/-- Wherever the children of a node are read, the names that they give are apart, if those of
their members are. -/
def Java.Node.SpreadsChildren (node : Node) : Prop :=
  ∀ (place : Place) (isRead : Node → Bool) (numbering : Numbering),
    (place.memberNames (Node.typesAmong place.stops isRead node.children)).Nodup →
    AreSpread place.base place.ownerName
      (place.memberNames (Node.typesAmong place.stops isRead node.children)) numbering
      (surveyAll place isRead none node.children numbering).2
      (surveyAll place isRead none node.children numbering).1

namespace Java.Node.SpreadsChildren

variable {node : Node} {place : Place}

/-- A construct that is no type and ends no reading: its parts stand in the same scopes. -/
theorem parts (h : node.SpreadsChildren) (htype : node.kind.isType = false)
    (hstop : place.stops node.kind = false)
    (hmembers : (place.memberNames (Node.typesUpTo place.stops node)).Nodup)
    {own : List Fact} (hown : place.States node own) {isRead : Node → Bool}
    (hopen : Place.AreOpen node.kind isRead) (numbering : Numbering) :
    AreSpread place.base place.ownerName (place.memberNames (Node.typesUpTo place.stops node))
      numbering (place.readParts node isRead numbering).2
      (own ++ (place.readParts node isRead numbering).1) := by
  have hsub := place.memberNames_sublist
    (Node.typesAmong_sublist_read place.stops fun c (_ : c ∈ node.children) => hopen c)
  rw [Node.typesUpTo_of_open htype hstop] at hmembers ⊢
  exact .own (Place.declared_of_states hown)
    ((h (place.enter node) isRead numbering (hmembers.sublist hsub)).mono hsub.subset)

/-- The body of a type that a node declares, whose names its scope keeps apart. -/
theorem body (h : node.SpreadsChildren) (hscopes : node.HasPlainScopes)
    (hkind : node.kind ≠ .program) (hblock : node.kind.isBlock = false) {decl : TypeDecl}
    (hdecl : decl.binaryName ≠ "") {isRead : Node → Bool}
    (hpart : Node.isScopePart node.kind = isRead) (numbering : Numbering) :
    AreSpread (decl.binaryName ++ "$") (some decl.binaryName) node.outerNames numbering
      (place.readBody node decl isRead numbering).2
      (place.readBody node decl isRead numbering).1 := by
  subst hpart
  have hnames := memberNames_inType place hdecl node hkind
  have hspread := h ((place.enter node).inType decl) (Node.isScopePart node.kind) numbering
    (hnames ▸ hscopes.scopes node (Node.self_mem_nodes node) hblock)
  rwa [hnames] at hspread

/-- A node gives names that are apart when its children do. -/
theorem areSpread (h : node.SpreadsChildren) (hscopes : node.HasPlainScopes) (place : Place)
    (before : Option Node) (numbering : Numbering)
    (hmembers : (place.memberNames (Node.typesUpTo place.stops node)).Nodup) :
    AreSpread place.base place.ownerName (place.memberNames (Node.typesUpTo place.stops node))
      numbering (survey place before node numbering).2 (survey place before node numbering).1 := by
  have houtcome := place.outcome_survey before node numbering
  generalize survey place before node numbering = result at houtcome ⊢
  cases houtcome with
  | nameless => exact (AreSpread.nil _ _ _ numbering).mono (List.nil_subset _)
  | @type kind decl next htype hdecl hnext =>
      subst hdecl hnext
      have hplain := hscopes.name node (Node.self_mem_nodes node) htype
      have hnamed : (place.declareType kind node numbering).1.binaryName ≠ "" :=
        (Place.isNamed_declareType hplain.ne_empty numbering).1
      obtain ⟨segment, hname, hsegment, hgrows⟩ :=
        place.exists_segment_declareType kind hplain numbering
      obtain ⟨hpart, hprogram, hblock⟩ := Node.isScopePart_of_isType htype
      rw [Node.typesUpTo_of_isType htype]
      exact .type hname hsegment hgrows (h.body hscopes hprogram hblock hnamed hpart _)
  | @method owner decl hkind howner hdecl =>
      -- A method has no members: what it declares is local.
      have hlocal (types : List Node) :
          ((place.enter node).inMethod decl.id).memberNames types = [] := by
        simp [Place.memberNames, Place.isLocal, Place.inMethod, Place.enter, howner]
      have hinside := h ((place.enter node).inMethod decl.id) (fun _ => true) numbering
        (by simp [hlocal])
      rw [hlocal] at hinside
      have hown : [Fact.method decl].filterMap Fact.declared? = [] := rfl
      exact (hinside.own hown).mono (List.nil_subset _)
  | construct htype hmethod hown hopen =>
      have hstop : place.stops node.kind = false := by
        rw [Place.stops, Bool.and_eq_false_imp]
        exact hmethod
      exact h.parts htype hstop hmembers hown hopen numbering
  | @withClass owner decl superclass own isRead next hkind howner hown hopen hdecl hnext =>
      subst hdecl hnext
      obtain ⟨hpart, hprogram, hblock⟩ := Node.isScopePart_of_isInstance hkind
      obtain ⟨htype, hmethod⟩ := Kind.of_isInstance hkind
      have hstop : place.stops node.kind = false := by rw [Place.stops, hmethod, Bool.and_false]
      obtain ⟨segment, hname, hsegment, hgrows⟩ := Place.exists_segment_declareAnonymous howner
        superclass node (place.readParts node isRead numbering).2
      have hnamed := (place.isNamed_declareAnonymous owner superclass node
        (place.readParts node isRead numbering).2).1
      refine (h.parts htype hstop hmembers hown hopen numbering).append_numbered
        (.type hname hsegment hgrows (h.body hscopes hprogram hblock hnamed hpart _)) ?_
      exact Place.isPlainName_of_mem fun x hx =>
        hscopes.name x (Node.of_mem_typesUpTo _ node x hx).1 (Node.of_mem_typesUpTo _ node x hx).2

end Java.Node.SpreadsChildren

mutual

theorem spreadsChildren : ∀ node : Node, node.HasPlainScopes → node.SpreadsChildren
  | ⟨_, _, _, _, children⟩, hscopes => fun place isRead numbering =>
    areSpread_surveyAll place isRead none children numbering fun _ hc => hscopes.child hc

/-- The names that a list of nodes gives are apart, if those of its members are. -/
theorem areSpread_surveyAll (place : Place) (isRead : Node → Bool) : ∀ (before : Option Node)
    (nodes : List Node) (numbering : Numbering), (∀ c ∈ nodes, c.HasPlainScopes) →
    (place.memberNames (Node.typesAmong place.stops isRead nodes)).Nodup →
    AreSpread place.base place.ownerName
      (place.memberNames (Node.typesAmong place.stops isRead nodes)) numbering
      (surveyAll place isRead before nodes numbering).2
      (surveyAll place isRead before nodes numbering).1
  | _, [], numbering, _, _ => AreSpread.nil _ _ _ _
  | before, node :: rest, numbering, hscopes, hmembers => by
    have hself := hscopes node List.mem_cons_self
    have hrest : ∀ c ∈ rest, c.HasPlainScopes :=
      fun c hc => hscopes c (List.mem_cons_of_mem node hc)
    rw [Node.typesAmong, place.memberNames_append] at hmembers ⊢
    obtain ⟨hfirst, hothers, hdisjoint⟩ := List.nodup_append'.mp hmembers
    have hnode : AreSpread place.base place.ownerName
        (place.memberNames (if isRead node then Node.typesUpTo place.stops node else []))
        numbering
        (if isRead node then survey place before node numbering else ([], numbering)).2
        (if isRead node then survey place before node numbering else ([], numbering)).1 := by
      split
      next hread =>
        rw [if_pos hread] at hfirst
        exact (spreadsChildren node hself).areSpread hself place before numbering hfirst
      · exact AreSpread.nil _ _ _ _
    have hplain : ∀ x ∈ (if isRead node then Node.typesUpTo place.stops node else []),
        IsPlainName (nameOf x) := by
      intro x hx
      split at hx
      · obtain ⟨hmem, htype⟩ := Node.of_mem_typesUpTo place.stops node x hx
        exact hself.name x hmem htype
      · cases hx
    unfold surveyAll
    exact hnode.append (areSpread_surveyAll place isRead _ rest _ hrest hothers)
      (Place.isPlainName_of_mem hplain)
      (Place.isPlainName_of_mem (isPlainName_typesAmong hrest)) hdisjoint

end

/-! ## Files -/

/-- A file whose scopes keep its types apart. -/
theorem Java.Node.NamesTypesApart.hasPlainScopes {tree : Node} (h : tree.NamesTypesApart)
    (hlocal : tree.KeepsLocalTypes) : tree.HasPlainScopes :=
  ⟨h.plain, fun x hx hblock => hlocal x hx hblock ▸ h.distinct x hx⟩

namespace FileFacts

/-- The types of a file have different binary names. -/
theorem nodup_binaryNames (file : SourceFile) (relativePath : String) {tree : Node}
    (hkind : tree.kind = .program) (hscopes : tree.HasPlainScopes) :
    ((ofTree file relativePath tree).types.map (·.binaryName)).Nodup := by
  let place : Place := { file, package := (Header.ofNodes file tree.children).package }
  have hmembers : place.memberNames (Node.typesUpTo place.stops tree) = tree.outerNames := by
    rw [Node.typesUpTo_of_open (by rw [hkind]; rfl) (by rw [hkind]; rfl)]
    unfold Node.outerNames
    rw [hkind]
    rfl
  have hspread := (spreadsChildren tree hscopes).areSpread hscopes place none ∅
    (hmembers ▸ hscopes.scopes tree (Node.self_mem_nodes tree) (by rw [hkind]; rfl))
  have htypes : (ofTree file relativePath tree).types.map (·.binaryName) =
      (factsOf file tree).filterMap Fact.declared? := by
    unfold ofTree
    rw [List.map_filterMap]
    apply List.filterMap_congr
    intro fact _
    cases fact <;> rfl
  rw [htypes]
  exact hspread.distinct

end FileFacts

end EntryPoints
