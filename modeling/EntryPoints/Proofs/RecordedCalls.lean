import EntryPoints.Proofs.TypeLocations

/-!
# Calls and lambdas are recorded once

Every call and every lambda that is read as part of a type is recorded once, in the order of the
text.  The record names the type in whose body it stands, and the method or constructor around it
in that body.

A file is read once from left to right.  Only the class behind a creation or an enum constant is
read after the other parts, and it is the last of them.
-/

namespace EntryPoints

open Java

/-- What is recorded of a call or a lambda, apart from what it means. -/
structure Record where
  owner : Option String
  method : Option String
  location : Location
deriving DecidableEq

def Invocation.record (call : Invocation) : Record := ⟨call.owner, call.method, call.location⟩

def FunctionalUse.record (use : FunctionalUse) : Record := ⟨use.owner, use.method, use.location⟩

namespace FileFacts

variable (facts : FileFacts)

def callRecords : List Record :=
  (facts.invocations.filter (·.kind == .call)).map Invocation.record

def lambdaRecords : List Record :=
  (facts.functionalUses.filter (·.kind == .lambda)).map FunctionalUse.record

/-- A declaration is among those of the file. -/
def Has : Fact → Prop
  | .type decl => decl ∈ facts.types
  | .method decl => decl ∈ facts.methods
  | _ => True

end FileFacts

/-- What a fact records of constructs of a kind. -/
def Fact.record? (kind : Kind) : Fact → Option Record
  | .invocation call => if kind = .invocation ∧ call.kind = .call then some call.record else none
  | .functionalUse use => if kind = .lambda ∧ use.kind = .lambda then some use.record else none
  | .type _ | .method _ | .docComment _ => none

/-- A node declares a method: the id says where the node starts, and both end together. -/
structure MethodDecl.IsOf (decl : MethodDecl) (node : Node) : Prop where
  name : decl.name = SourceFile.nameOf node
  id : decl.id = decl.owner ++ "#" ++ decl.name ++ "@" ++ toString node.span.start
  stop : ∃ place, decl.location = some place ∧ place.stop = node.span.stop

theorem Place.isOf_declareMethod (place : Place) (owner : TypeDecl) (before : Option Node)
    (node : Node) : (place.declareMethod owner before node).IsOf node where
  name := rfl
  id := rfl
  stop := ⟨_, rfl, rfl⟩

/-- A record says where a site is, in the body of which type, and in which method or constructor
of the type, if in any. -/
structure Java.Site.Yields (site : Site) (file : SourceFile) (facts : FileFacts)
    (record : Record) : Prop where
  location : record.location = file.locate site.node.span
  owner : ∃ opener ∈ (openers site.way).head?, ∃ decl ∈ facts.types,
    decl.location = some (file.locate opener.span) ∧ record.owner = some decl.binaryName
  free : callable? site.way = none → record.method = none
  method : ∀ around ∈ callable? site.way, around.kind.isMethod = true →
    ∃ decl ∈ facts.methods, decl.IsOf around ∧ record.owner = some decl.owner ∧
      record.method = some decl.id

/-! ## What a node records -/

section Records

variable {kind : Kind} {place : Place} {node : Node}

theorem Fact.record?_of_kind {call : Invocation} (h : call.kind ≠ .call) :
    Fact.record? kind (.invocation call) = none :=
  if_neg fun hcall => h hcall.2

def Place.record (place : Place) (node : Node) : Record :=
  ⟨place.ownerName, place.method, place.locate node⟩

theorem Place.kind_of_chainingOf {owner : TypeDecl} {call : Invocation}
    (hcall : place.chainingOf owner node = some call) : call.kind = .creation := by
  unfold chainingOf at hcall
  split at hcall
  · cases hcall
  · simp only at hcall
    split at hcall
    · split at hcall
      · cases hcall
      · cases hcall
        rfl
    · split at hcall
      · cases hcall
      · cases hcall
        rfl

theorem Place.kind_of_referenceOf {call : Invocation} (hcall : place.referenceOf node = some call) :
    call.kind ≠ .call := by
  unfold referenceOf at hcall
  simp only at hcall
  split at hcall
  · split at hcall
    · cases hcall
      exact CallKind.noConfusion
    · split at hcall
      · cases hcall
        exact CallKind.noConfusion
      · cases hcall
  · cases hcall

theorem Place.record?_of_mem_creationFacts {fact : Fact}
    (hfact : fact ∈ place.creationFacts node) : Fact.record? kind fact = none := by
  unfold creationFacts at hfact
  split at hfact
  · split at hfact
    · cases hfact
    · rw [List.mem_singleton.mp hfact]
      exact Fact.record?_of_kind CallKind.noConfusion
  · cases hfact

/-- What is no call and no lambda records neither. -/
theorem Place.record?_of_mem_ownFacts (hcall : node.kind ≠ .invocation)
    (hlambda : node.kind ≠ .lambda) {fact : Fact} (hfact : fact ∈ place.ownFacts node) :
    Fact.record? kind fact = none := by
  unfold ownFacts at hfact
  split at hfact
  next => exact record?_of_mem_creationFacts hfact
  next =>
    unfold factsAt at hfact
    split at hfact
    next hnode _ => exact absurd hnode hcall
    next =>
      obtain ⟨call, hcall, rfl⟩ := List.mem_map.mp hfact
      apply Fact.record?_of_kind
      rw [kind_of_chainingOf (Option.mem_toList.mp hcall)]
      exact CallKind.noConfusion
    next =>
      split at hfact
      · cases hfact
      rcases List.mem_append.mp hfact with hfact | hfact
      · obtain ⟨call, hcall, rfl⟩ := List.mem_map.mp hfact
        exact Fact.record?_of_kind (kind_of_referenceOf (Option.mem_toList.mp hcall))
      · rw [List.mem_singleton.mp hfact]
        exact if_neg fun h => FunctionKind.noConfusion h.2
    next hnode _ => exact absurd hnode hlambda
    next =>
      rcases place.of_mem_commentFacts hfact with rfl | ⟨reference, rfl⟩
      · rfl
      · exact Fact.record?_of_kind CallKind.noConfusion
    next => cases hfact

/-- Inside of a type a call or a lambda is recorded once, and nothing else is. -/
theorem Place.records_ownFacts (place : Place) (hkind : kind = .invocation ∨ kind = .lambda)
    (node : Node) : (place.ownFacts node).filterMap (Fact.record? kind) =
      if node.kind = kind ∧ place.holder.isSome = true then [place.record node] else [] := by
  by_cases hnode : node.kind = .invocation ∨ node.kind = .lambda
  · have hcreation : node.kind ≠ .creation := by
      intro hcreation
      rw [hcreation] at hnode
      rcases hnode with hnode | hnode <;> cases hnode
    rw [ownFacts, if_neg hcreation]
    unfold factsAt
    cases hholder : place.holder with
    | none => rcases hnode with hnode | hnode <;> rw [hnode] <;> simp
    | some owner =>
        rcases hnode with hnode | hnode <;> rcases hkind with rfl | rfl <;> rw [hnode] <;> rfl
  · have hother : ¬ (node.kind = kind ∧ place.holder.isSome = true) := by
      rintro ⟨rfl, -⟩
      exact hnode hkind
    rw [if_neg hother, List.filterMap_eq_nil_iff]
    exact fun fact hfact => record?_of_mem_ownFacts (fun hcall => hnode (.inl hcall))
      (fun hlambda => hnode (.inr hlambda)) hfact

end Records

/-! ## Places -/

/-- A place tells of a node what the way outwards from the node tells. -/
structure Place.Suits (place : Place) (facts : FileFacts) (node : Node) : Prop where
  outermost : ∀ last ∈ (openers (node :: place.around)).getLast?, last.kind.isType = true
  headed : isHeaded (node :: place.around) = false
  outside : openers (node :: place.around) = [] → place.owner = none
  owner : ∀ opener ∈ (openers (node :: place.around)).head?, ∃ decl ∈ facts.types,
    decl.location = some (place.locate opener) ∧ place.holder = some decl
  free : place.holder.isSome = true → callable? (node :: place.around) = none →
    place.method = none
  method : place.holder.isSome = true → ∀ around ∈ callable? (node :: place.around),
    around.kind.isMethod = true → ∃ decl ∈ facts.methods, decl.IsOf around ∧
      place.ownerName = some decl.owner ∧ place.method = some decl.id

namespace Place.Suits

variable {place : Place} {facts : FileFacts} {node c : Node}

theorem holder_eq_none (h : place.Suits facts node)
    (hopeners : openers (node :: place.around) = []) : place.holder = none := by
  rw [holder, h.outside hopeners]
  rfl

theorem isReached_eq (h : place.Suits facts node) :
    isReached (node :: place.around) = place.holder.isSome := by
  unfold isReached
  rw [h.headed, Bool.not_false, Bool.and_true]
  cases hopeners : openers (node :: place.around) with
  | nil =>
      rw [h.holder_eq_none hopeners]
      rfl
  | cons opener rest =>
      obtain ⟨decl, -, -, hholder⟩ := h.owner opener (by rw [hopeners]; rfl)
      obtain ⟨last, hlast⟩ : ∃ last, (opener :: rest).getLast? = some last :=
        ⟨_, List.getLast?_eq_some_getLast (List.cons_ne_nil _ _)⟩
      rw [hlast, Option.any_some, hholder]
      exact h.outermost last (by rw [hopeners]; exact hlast)

theorem yields (h : place.Suits facts node) (hholder : place.holder.isSome = true) :
    Site.Yields ⟨node, place.around⟩ place.file facts (place.record node) where
  location := rfl
  owner := by
    cases hopeners : openers (node :: place.around) with
    | nil =>
        rw [h.holder_eq_none hopeners] at hholder
        cases hholder
    | cons opener rest =>
        have hhead : opener ∈ (openers (node :: place.around)).head? := by rw [hopeners]; rfl
        obtain ⟨decl, hdecl, hlocation, hsome⟩ := h.owner opener hhead
        refine ⟨opener, hhead, decl, hdecl, hlocation, ?_⟩
        rw [Place.record, ownerName, (owner_of_holder hsome).1]
        rfl
  free := h.free hholder
  method := h.method hholder

/-- Another place tells the same, apart from the method, of a part that is neither a body nor in
a head. -/
theorem stay (h : place.Suits facts node) (hopens : node.opens c = false)
    (hheads : node.heads c = false) {inner : Place} (hfile : inner.file = place.file)
    (howner : inner.owner = place.owner) (haround : inner.around = node :: place.around)
    (hfree : inner.holder.isSome = true → callable? (c :: inner.around) = none →
      inner.method = none)
    (hmethod : inner.holder.isSome = true → ∀ around ∈ callable? (c :: inner.around),
      around.kind.isMethod = true → ∃ decl ∈ facts.methods, decl.IsOf around ∧
        inner.ownerName = some decl.owner ∧ inner.method = some decl.id) :
    inner.Suits facts c := by
  have hopeners : openers (c :: inner.around) = openers (node :: place.around) := by
    rw [haround, openers_cons, hopens]
    rfl
  have hholder : inner.holder = place.holder := by rw [holder, holder, howner]
  refine ⟨?_, ?_, ?_, ?_, hfree, hmethod⟩
  · rw [hopeners]
    exact h.outermost
  · rw [haround, isHeaded, hheads, h.headed]
    rfl
  · rw [hopeners, howner]
    exact h.outside
  · rw [hopeners, hholder]
    unfold locate
    rw [hfile]
    exact h.owner

/-- Parts that are neither a body nor in a head are read in the place of the construct. -/
theorem part (h : place.Suits facts node) (hopens : node.opens c = false)
    (hheads : node.heads c = false)
    (hmethod : place.holder.isSome = true → node.kind.isMethod = false) :
    (place.enter node).Suits facts c := by
  have hcallable : callable? (c :: (place.enter node).around) =
      if node.kind.isCallable then some node else callable? (node :: place.around) := by
    change callable? (c :: node :: place.around) = _
    rw [callable?, hopens, if_neg Bool.false_ne_true]
  refine h.stay hopens hheads rfl rfl rfl (fun howner hnone => ?_)
    fun howner around haround hkind => ?_
  · rw [hcallable] at hnone
    split at hnone
    · cases hnone
    · exact h.free howner hnone
  · rw [hcallable] at haround
    split at haround
    · cases haround
      rw [hmethod howner] at hkind
      cases hkind
    · exact h.method howner around haround hkind

/-- Everything in a method of a type is read in the method. -/
theorem inMethod (h : place.Suits facts node) {owner : TypeDecl} (howner : place.owner = some owner)
    (hmethod : node.kind.isMethod = true) {decl : MethodDecl} (hdecl : decl ∈ facts.methods)
    (hof : decl.IsOf node) (hsame : decl.owner = owner.binaryName) :
    ((place.enter node).inMethod decl.id).Suits facts c := by
  have hkind : node.kind.isType = false ∧ node.kind.isInstance = false := by
    cases hkind : node.kind <;> rw [hkind] at hmethod <;>
      first | exact absurd hmethod (by decide) | decide
  obtain ⟨hopens, hheads⟩ := Node.opens_eq_false hkind.1 hkind.2 c
  have hcallable : callable? (c :: node :: place.around) = some node := by
    rw [callable?, hopens, if_neg Bool.false_ne_true, Kind.isCallable, hmethod]
    rfl
  refine h.stay hopens hheads rfl rfl rfl (fun _ hnone => ?_) fun _ around haround _ => ?_
  · cases hcallable.symm.trans hnone
  · cases hcallable.symm.trans haround
    refine ⟨decl, hdecl, hof, ?_, rfl⟩
    change place.owner.map _ = _
    rw [howner, hsame]
    rfl

/-- The body of a type is read in the type. -/
theorem inType (h : place.Suits facts node) (hopens : node.opens c = true) {decl : TypeDecl}
    (hdecl : decl ∈ facts.types) (hnamed : decl.binaryName ≠ "")
    (hlocation : decl.location = some (place.locate node))
    (htype : node.kind.isType = true ∨ place.owner.isSome = true) :
    ((place.enter node).inType decl).Suits facts c := by
  let inner := (place.enter node).inType decl
  have hopeners : openers (c :: inner.around) = node :: openers (node :: place.around) := by
    change openers (c :: node :: place.around) = _
    rw [openers_cons, hopens]
    rfl
  have hcallable : callable? (c :: inner.around) = none := by
    change callable? (c :: node :: place.around) = none
    rw [callable?, if_pos hopens]
  refine ⟨?_, ?_, fun hnone => ?_, fun opener hopener => ?_, fun _ _ => rfl,
    fun _ around haround => ?_⟩
  · intro last hlast
    rw [hopeners] at hlast
    cases houter : openers (node :: place.around) with
    | nil =>
        rw [houter] at hlast
        cases hlast
        refine htype.resolve_right fun howner => ?_
        rw [h.outside houter] at howner
        cases howner
    | cons opener rest =>
        rw [houter, List.getLast?_cons_cons, ← houter] at hlast
        exact h.outermost last hlast
  · change isHeaded (c :: node :: place.around) = false
    rw [isHeaded, Node.heads_of_opens hopens, h.headed]
    rfl
  · cases hopeners.symm.trans hnone
  · rw [hopeners] at hopener
    cases hopener
    refine ⟨decl, hdecl, hlocation, ?_⟩
    simp [holder, Place.inType, hnamed]
  · cases hcallable.symm.trans haround

end Place.Suits

/-! ## The tree -/

section Parts

variable {place : Place} {facts : FileFacts} {node c : Node} {kind : Kind}

/-- Nothing is recorded in the parts that are not read. -/
theorem Place.Suits.isReachedAs_eq_false (h : place.Suits facts node)
    (hunread : node.heads c = true ∨
      (node.opens c = true ∧ node.kind.isType = false ∧ place.holder = none)) :
    ∀ site ∈ c.sites (node :: place.around), site.isReachedAs kind = false := by
  intro site hsite
  have hsuffix := suffix_of_mem_sites c (node :: place.around) site hsite
  have hreached : isReached site.way = false := by
    rcases hunread with hheads | ⟨hopens, htype, hholder⟩
    · exact isReached_of_heads hheads hsuffix
    · refine isReached_of_outermost htype hopens ?_ hsuffix
      cases hopeners : openers (node :: place.around) with
      | nil => rfl
      | cons opener rest =>
          obtain ⟨decl, -, -, hsome⟩ := h.owner opener (by rw [hopeners]; rfl)
          cases hholder.symm.trans hsome
  unfold Site.isReachedAs
  rw [hreached, Bool.and_false]

/-- Of a construct with the body of a class, the body comes last and the head apart from it is
not read. -/
theorem Place.Suits.sites_withClass (h : place.Suits facts node) (hcloses : node.ClosesInstances)
    (hkind : node.kind.isInstance = true)
    (hbody : node.children.any (opensClass node.kind) = true) :
    (allSites (node :: place.around) node.children).filter (·.isReachedAs kind) =
      (allSites (node :: place.around)
        (node.children.filter (Node.isOwn node.kind))).filter (·.isReachedAs kind) ++
      (allSites (node :: place.around)
        (node.children.filter (opensClass node.kind))).filter (·.isReachedAs kind) := by
  have htype := (Kind.of_isInstance hkind).1
  have hopens (c : Node) : opensClass node.kind c = node.opens c := by
    rw [Node.opens, htype, hkind]
    rfl
  obtain ⟨front, body, hchildren, hlast, hfront⟩ := hcloses.exists_body hkind
    (by simpa [hopens] using hbody)
  have hbodies : node.children.filter (opensClass node.kind) = [body] := by
    rw [hchildren, List.filter_append, List.filter_eq_nil_iff.mpr,
      List.filter_cons_of_pos ((hopens body).trans hlast)]
    · rfl
    · intro c hc
      rw [hopens, hfront c hc]
      exact Bool.false_ne_true
  have hparts : node.children.filter (Node.isOwn node.kind) =
      front.filter (Node.isOwn node.kind) := by
    have hnot : ¬ Node.isOwn node.kind body = true := by
      rw [Node.isOwn_iff htype, hlast]
      exact fun hnone => Bool.false_ne_true hnone.1.symm
    rw [hchildren, List.filter_append, List.filter_cons_of_neg hnot, List.filter_nil,
      List.append_nil]
  rw [hbodies, hparts, hchildren, allSites_append, List.filter_append]
  congr 1
  apply allSites_filter_of_unread
  intro c hc hunread
  apply h.isReachedAs_eq_false
  left
  have hnot : ¬ Node.isOwn node.kind c = true := Bool.eq_false_iff.mp hunread
  rw [Node.isOwn_iff htype, hfront c hc] at hnot
  simpa using hnot

/-- A call or a lambda in a type comes before what is in it. -/
theorem Place.Suits.sites_filter (h : place.Suits facts node) :
    (node.sites place.around).filter (·.isReachedAs kind) =
      (if node.kind = kind ∧ place.holder.isSome = true then [⟨node, place.around⟩] else []) ++
        (allSites (node :: place.around) node.children).filter (·.isReachedAs kind) := by
  have hself : Site.isReachedAs kind ⟨node, place.around⟩ =
      decide (node.kind = kind ∧ place.holder.isSome = true) := by
    rw [Site.isReachedAs, Site.way, h.isReached_eq, Bool.decide_and, beq_eq_decide,
      Bool.decide_eq_true]
  have hsites : node.sites place.around =
      ⟨node, place.around⟩ :: allSites (node :: place.around) node.children := by
    cases node
    rfl
  rw [hsites, List.filter_cons, hself]
  by_cases hnode : node.kind = kind ∧ place.holder.isSome = true
  · simp [hnode]
  · simp [hnode]

/-- What a call or a lambda itself records is what is to be recorded of it. -/
theorem Place.Suits.own (h : place.Suits facts node) :
    List.Forall₂ (fun site : Site => site.Yields place.file facts)
      (if node.kind = kind ∧ place.holder.isSome = true then [⟨node, place.around⟩] else [])
      (if node.kind = kind ∧ place.holder.isSome = true then [place.record node] else []) := by
  split
  next hnode => exact .cons (h.yields hnode.2) .nil
  next => exact .nil

end Parts

/-! ## The outcomes of reading a node -/

/-- Some facts record what is to be recorded in a node that is read here. -/
def Place.RecordsAll (place : Place) (kind : Kind) (facts : FileFacts) (node : Node)
    (stated : List Fact) : Prop :=
  List.Forall₂ (fun site => site.Yields place.file facts)
    ((node.sites place.around).filter (·.isReachedAs kind))
    (stated.filterMap (Fact.record? kind))

/-- What is read of the children of a node records what is to be recorded in them. -/
def Java.Node.YieldsChildren (node : Node) (kind : Kind) (facts : FileFacts) : Prop :=
  ∀ (inner : Place) (isRead : Node → Bool) (numbering : Numbering),
    (∀ c ∈ node.children, isRead c = true → inner.Suits facts c) →
    (∀ fact ∈ (surveyAll inner isRead none node.children numbering).1, facts.Has fact) →
    List.Forall₂ (fun site => site.Yields inner.file facts)
      ((allSites inner.around (node.children.filter isRead)).filter (·.isReachedAs kind))
      ((surveyAll inner isRead none node.children numbering).1.filterMap (Fact.record? kind))

namespace Java.Node.YieldsChildren

variable {place : Place} {facts : FileFacts} {node : Node} {kind : Kind}

/-- A declaration of a type or of a method is no call and no lambda. -/
theorem not_recorded (hkind : kind = .invocation ∨ kind = .lambda)
    (hnode : node.kind.isType = true ∨ node.kind.isMethod = true) :
    ¬ (node.kind = kind ∧ place.holder.isSome = true) := by
  rintro ⟨rfl, -⟩
  rcases hkind with hkind | hkind <;> rw [hkind] at hnode <;> exact absurd hnode (by decide)

/-- Of a type the body is read, and nothing else is reached. -/
theorem type (h : node.YieldsChildren kind facts) (hkind : kind = .invocation ∨ kind = .lambda)
    (hplace : place.Suits facts node) (htype : node.kind.isType = true) {decl : TypeDecl}
    (hnamed : decl.binaryName ≠ "") (hlocation : decl.location = some (place.locate node))
    {next : Numbering}
    (hhas : ∀ fact ∈ Fact.type decl :: (place.readBody node decl isBodyPart next).1,
      facts.Has fact) :
    place.RecordsAll kind facts node
      (.type decl :: (place.readBody node decl isBodyPart next).1) := by
  have hdeclared : decl ∈ facts.types := hhas _ List.mem_cons_self
  have hbody := h ((place.enter node).inType decl) isBodyPart next
    (fun c _ hread => hplace.inType ((opens_of_isType htype c).1.trans hread) hdeclared hnamed
      hlocation (.inl htype))
    fun fact hfact => hhas fact (List.mem_cons_of_mem _ hfact)
  have hunread : (allSites (node :: place.around) node.children).filter (·.isReachedAs kind) =
      (allSites (node :: place.around) (node.children.filter isBodyPart)).filter
        (·.isReachedAs kind) := by
    refine allSites_filter_of_unread fun c _ hread => hplace.isReachedAs_eq_false (.inl ?_)
    rw [(opens_of_isType htype c).2, hread]
    rfl
  rw [Place.RecordsAll, hplace.sites_filter, if_neg (not_recorded hkind (.inl htype)),
    List.nil_append, hunread]
  exact hbody

/-- Of a method in a type everything is read. -/
theorem method (h : node.YieldsChildren kind facts) (hkind : kind = .invocation ∨ kind = .lambda)
    (hplace : place.Suits facts node) (hmethod : node.kind.isMethod = true) {owner : TypeDecl}
    (howner : place.owner = some owner) {decl : MethodDecl} (hof : decl.IsOf node)
    (hsame : decl.owner = owner.binaryName) {numbering : Numbering}
    (hhas : ∀ fact ∈ Fact.method decl :: (place.readMethod node decl.id numbering).1,
      facts.Has fact) :
    place.RecordsAll kind facts node
      (.method decl :: (place.readMethod node decl.id numbering).1) := by
  have hdeclared : decl ∈ facts.methods := hhas _ List.mem_cons_self
  have hbody := h ((place.enter node).inMethod decl.id) (fun _ => true) numbering
    (fun c _ _ => hplace.inMethod howner hmethod hdeclared hof hsame)
    fun fact hfact => hhas fact (List.mem_cons_of_mem _ hfact)
  rw [List.filter_true] at hbody
  rw [Place.RecordsAll, hplace.sites_filter, if_neg (not_recorded hkind (.inr hmethod)),
    List.nil_append]
  exact hbody

/-- The own parts of a construct are read in its place. -/
theorem parts (h : node.YieldsChildren kind facts) (hplace : place.Suits facts node)
    (htype : node.kind.isType = false)
    (hmethod : place.holder.isSome = true → node.kind.isMethod = false) {numbering : Numbering}
    (hhas : ∀ fact ∈ (place.readParts node (isOwn node.kind) numbering).1, facts.Has fact) :
    List.Forall₂ (fun site => site.Yields place.file facts)
      ((allSites (node :: place.around) (node.children.filter (isOwn node.kind))).filter
        (·.isReachedAs kind))
      ((place.readParts node (isOwn node.kind) numbering).1.filterMap (Fact.record? kind)) :=
  h (place.enter node) (isOwn node.kind) numbering
    (fun _ _ hown => hplace.part ((isOwn_iff htype).mp hown).1 ((isOwn_iff htype).mp hown).2
      hmethod) hhas

/-- Of a construct without a class that is read, the parts that are not its own are not reached. -/
theorem construct (h : node.YieldsChildren kind facts)
    (hkind : kind = .invocation ∨ kind = .lambda) (hplace : place.Suits facts node)
    (htype : node.kind.isType = false)
    (hmethod : place.holder.isSome = true → node.kind.isMethod = false)
    (hbody : place.holder.isSome = true → node.kind.isInstance = true →
      node.children.any (opensClass node.kind) = false) {numbering : Numbering}
    (hhas : ∀ fact ∈ place.ownFacts node ++
      (place.readParts node (isOwn node.kind) numbering).1, facts.Has fact) :
    place.RecordsAll kind facts node
      (place.ownFacts node ++ (place.readParts node (isOwn node.kind) numbering).1) := by
  have hparts := h.parts hplace htype hmethod fun fact hfact =>
    hhas fact (List.mem_append_right _ hfact)
  have hunread : (allSites (node :: place.around) node.children).filter (·.isReachedAs kind) =
      (allSites (node :: place.around) (node.children.filter (isOwn node.kind))).filter
        (·.isReachedAs kind) := by
    refine allSites_filter_of_unread fun c hc hnot => hplace.isReachedAs_eq_false ?_
    rw [Bool.eq_false_iff, ne_eq, isOwn_iff htype] at hnot
    by_cases hheads : node.heads c = true
    · exact .inl hheads
    · have hopens : node.opens c = true := by simpa [hheads] using hnot
      have hclass := hopens
      rw [opens, htype, Bool.false_and, Bool.false_or, Bool.and_eq_true] at hclass
      refine .inr ⟨hopens, htype, Option.not_isSome_iff_eq_none.mp fun howner => ?_⟩
      have hnone := hbody howner hclass.1
      rw [List.any_eq_false] at hnone
      exact hnone c hc hclass.2
  rw [Place.RecordsAll, hplace.sites_filter, hunread, List.filterMap_append,
    place.records_ownFacts hkind]
  exact List.rel_append hplace.own hparts

/-- The class behind a creation or an enum constant is read after the other parts. -/
theorem withClass (h : node.YieldsChildren kind facts)
    (hkind : kind = .invocation ∨ kind = .lambda) (hplace : place.Suits facts node)
    (hcloses : node.ClosesInstances) (hinstance : node.kind.isInstance = true)
    (hbody : node.children.any (opensClass node.kind) = true)
    (howner : place.owner.isSome = true) {decl : TypeDecl} (hnamed : decl.binaryName ≠ "")
    (hlocation : decl.location = some (place.locate node)) {numbering next : Numbering}
    (hhas : ∀ fact ∈ (place.ownFacts node ++
      (place.readParts node (isOwn node.kind) numbering).1) ++
        Fact.type decl :: (place.readBody node decl (opensClass node.kind) next).1,
      facts.Has fact) :
    place.RecordsAll kind facts node
      ((place.ownFacts node ++ (place.readParts node (isOwn node.kind) numbering).1) ++
        .type decl :: (place.readBody node decl (opensClass node.kind) next).1) := by
  obtain ⟨htype, hmethod⟩ := Kind.of_isInstance hinstance
  have hdeclared : decl ∈ facts.types := hhas _ (List.mem_append_right _ List.mem_cons_self)
  have hparts := h.parts hplace htype (fun _ => hmethod) fun fact hfact =>
    hhas fact (List.mem_append_left _ (List.mem_append_right _ hfact))
  have hclass := h ((place.enter node).inType decl) (opensClass node.kind) next
    (fun c _ hclass => hplace.inType (by rw [opens, hinstance, hclass]; simp) hdeclared hnamed
      hlocation (.inr howner))
    fun fact hfact => hhas fact (List.mem_append_right _ (List.mem_cons_of_mem _ hfact))
  rw [Place.RecordsAll, hplace.sites_filter, hplace.sites_withClass hcloses hinstance hbody,
    List.filterMap_append, List.filterMap_append, place.records_ownFacts hkind,
    ← List.append_assoc]
  exact List.rel_append (List.rel_append hplace.own hparts) hclass

end Java.Node.YieldsChildren

mutual

theorem yields_survey {kind : Kind} (hkind : kind = .invocation ∨ kind = .lambda)
    {facts : FileFacts} (place : Place) (before : Option Node) : ∀ (node : Node)
    (numbering : Numbering), node.NamesTypes → node.ClosesInstances → place.Suits facts node →
    (∀ fact ∈ (survey place before node numbering).1, facts.Has fact) →
    place.RecordsAll kind facts node (survey place before node numbering).1
  | ⟨nodeKind, role, span, text, children⟩, numbering, hnames, hcloses, hplace, hhas => by
    let node : Node := ⟨nodeKind, role, span, text, children⟩
    have hchildren : node.YieldsChildren kind facts :=
      fun inner isRead numbering hinner hfacts =>
        yields_surveyAll hkind inner isRead none children numbering
          (fun _ hc => ⟨hnames.child hc, hcloses.child hc⟩) hinner hfacts
    have houtcome := place.outcome_survey before node numbering
    generalize survey place before node numbering = result at houtcome hhas ⊢
    cases houtcome with
    | nameless htype hname =>
        obtain ⟨name, hsome, -⟩ := hnames node (Node.self_mem_nodes node) htype
        cases hname.symm.trans hsome
    | type htype hdecl hnext hname =>
        subst hdecl
        obtain ⟨name, hname⟩ := hname
        have hnonempty := SourceFile.nameOf_ne_empty hnames.hasNoEmptyName htype hname
        exact hchildren.type hkind hplace htype (Place.isNamed_declareType hnonempty _).1 rfl hhas
    | @method owner decl hmethod howner hdecl =>
        subst hdecl
        exact hchildren.method hkind hplace hmethod howner (place.isOf_declareMethod owner before _)
          rfl hhas
    | construct htype hmethod hown hopen hstated hparts hbody =>
        subst hstated hparts
        exact hchildren.construct hkind hplace htype hmethod hbody hhas
    | @withClass owner decl superclass own isRead next hinstance howner hown hopen hdecl hnext
        hstated hparts hbody =>
        subst hdecl hstated hparts
        exact hchildren.withClass hkind hplace hcloses hinstance hbody (by rw [howner]; rfl)
          (Place.isNamed_declareAnonymous owner superclass node _).1 rfl hhas

theorem yields_surveyAll {kind : Kind} (hkind : kind = .invocation ∨ kind = .lambda)
    {facts : FileFacts} (place : Place) (isRead : Node → Bool) :
    ∀ (before : Option Node) (nodes : List Node) (numbering : Numbering),
    (∀ c ∈ nodes, c.NamesTypes ∧ c.ClosesInstances) →
    (∀ c ∈ nodes, isRead c = true → place.Suits facts c) →
    (∀ fact ∈ (surveyAll place isRead before nodes numbering).1, facts.Has fact) →
    List.Forall₂ (fun site => site.Yields place.file facts)
      ((allSites place.around (nodes.filter isRead)).filter (·.isReachedAs kind))
      ((surveyAll place isRead before nodes numbering).1.filterMap (Fact.record? kind))
  | _, [], _, _, _, _ => .nil
  | before, node :: rest, numbering, hnodes, hplace, hhas => by
    unfold surveyAll at hhas ⊢
    rw [List.filterMap_append]
    have hrest (numbering : Numbering)
        (hfacts : ∀ fact ∈ (surveyAll place isRead (Place.latestNamed before node) rest
          numbering).1, facts.Has fact) :=
      yields_surveyAll hkind place isRead (Place.latestNamed before node) rest numbering
        (fun c hc => hnodes c (List.mem_cons_of_mem _ hc))
        (fun c hc => hplace c (List.mem_cons_of_mem _ hc)) hfacts
    by_cases hread : isRead node = true
    · rw [List.filter_cons_of_pos hread, allSites, List.filter_append]
      simp only [hread, if_true] at hhas ⊢
      exact List.rel_append
        (yields_survey hkind place before node numbering (hnodes node List.mem_cons_self).1
          (hnodes node List.mem_cons_self).2 (hplace node List.mem_cons_self hread)
          fun fact hfact => hhas fact (List.mem_append_left _ hfact))
        (hrest _ fun fact hfact => hhas fact (List.mem_append_right _ hfact))
    · rw [List.filter_cons_of_neg hread]
      simp only [hread] at hhas ⊢
      exact hrest _ fun fact hfact => hhas fact (List.mem_append_right _ hfact)

end

/-! ## Files -/

namespace FileFacts

section Tree

variable {file : SourceFile} {relativePath : String} {tree : Node}

theorem has_of_mem_factsOf {fact : Fact} (hfact : fact ∈ factsOf file tree) :
    (ofTree file relativePath tree).Has fact := by
  cases fact with
  | type decl => exact mem_types_ofTree.mpr hfact
  | method decl => exact mem_methods_ofTree.mpr hfact
  | _ => trivial

theorem records_ofTree (file : SourceFile) (relativePath : String) (tree : Node) :
    (ofTree file relativePath tree).callRecords =
      (factsOf file tree).filterMap (Fact.record? .invocation) ∧
    (ofTree file relativePath tree).lambdaRecords =
      (factsOf file tree).filterMap (Fact.record? .lambda) := by
  constructor
  · change List.map _ (List.filter _ (List.filterMap _ (factsOf file tree))) = _
    induction factsOf file tree with
    | nil => rfl
    | cons fact facts ih =>
        cases fact with
        | invocation call =>
            by_cases hcall : call.kind = .call
            · simp [Fact.record?, hcall, ih]
            · simp [Fact.record?, hcall, ih]
        | _ => simp [Fact.record?, List.filterMap_cons, ih]
  · change List.map _ (List.filter _ (List.filterMap _ (factsOf file tree))) = _
    induction factsOf file tree with
    | nil => rfl
    | cons fact facts ih =>
        cases fact with
        | functionalUse use =>
            by_cases hlambda : use.kind = .lambda
            · simp [Fact.record?, hlambda, ih]
            · simp [Fact.record?, hlambda, ih]
        | _ => simp [Fact.record?, List.filterMap_cons, ih]

end Tree

theorem yields_factsOf {kind : Kind} (hkind : kind = .invocation ∨ kind = .lambda) {tree : Node}
    (hnames : tree.NamesTypes) (hcloses : tree.ClosesInstances) (file : SourceFile)
    (relativePath : String) :
    List.Forall₂ (fun site => site.Yields file (ofTree file relativePath tree))
      ((tree.sites []).filter (·.isReachedAs kind))
      ((factsOf file tree).filterMap (Fact.record? kind)) := by
  let place : Place := { file, package := (Header.ofNodes file tree.children).package }
  -- Nothing is around the file.
  have hplace : place.Suits (ofTree file relativePath tree) tree := by
    constructor <;> simp [place, openers, isHeaded, callable?, Place.holder]
  exact yields_survey hkind place none tree ∅ hnames hcloses hplace fun fact => has_of_mem_factsOf

/-- Every call and every lambda that stands in the body of a type, in no head and in no class
without a name outside of all types, is recorded once and in the order of the text.  A record
names the declaration of the body around, which its location tells apart, and the innermost method
or constructor in this body.  The tree may be any nested one whose types have names, in which
every declaration of a type starts in front of its body, and every class without a name ends the
construct that it stands in. -/
theorem records_in_order (file : SourceFile) (relativePath : String) {tree : Node}
    (hnested : tree.isNested = true) (hnames : tree.NamesTypes) (hheads : tree.HeadsTypes)
    (hcloses : tree.ClosesInstances) :
    let facts := ofTree file relativePath tree
    List.Forall₂ (fun site => site.Yields file facts)
        ((tree.sites []).filter (·.isReachedAs .invocation)) facts.callRecords ∧
      List.Forall₂ (fun site => site.Yields file facts)
        ((tree.sites []).filter (·.isReachedAs .lambda)) facts.lambdaRecords ∧
      ∀ decl ∈ facts.types, ∀ other ∈ facts.types, decl.location = other.location →
        decl = other := by
  intro facts
  obtain ⟨hcalls, hlambdas⟩ := records_ofTree file relativePath tree
  refine ⟨?_, ?_, fun decl hdecl other hother => ?_⟩
  · rw [hcalls]
    exact yields_factsOf (.inl rfl) hnames hcloses file relativePath
  · rw [hlambdas]
    exact yields_factsOf (.inr rfl) hnames hcloses file relativePath
  · exact areLocated_factsOf hnested hheads hcloses file decl other (mem_types_ofTree.mp hdecl)
      (mem_types_ofTree.mp hother)

/-- Two calls in methods, one of them in a class without a name, and one in a lambda. -/
theorem records_in_order_nested :
    let text := "class A\x7bvoid f()\x7bg(new R()\x7bvoid h()\x7bi();\x7d\x7d);\x7dR r=()->j();\x7d"
    let file : SourceFile := ⟨"A.java", text⟩
    let tree := parse text
    let facts := ofTree file "A.java" tree
    (tree.isNested = true ∧ tree.NamesTypes ∧ tree.HeadsTypes ∧ tree.ClosesInstances) ∧
      ((tree.sites []).filter (·.isReachedAs .invocation)).map (·.node.span.start) = [17, 36, 53] ∧
      ((tree.sites []).filter (·.isReachedAs .lambda)).map (·.node.span.start) = [49] ∧
      List.Forall₂ (fun site => site.Yields file facts)
        ((tree.sites []).filter (·.isReachedAs .invocation)) facts.callRecords ∧
      List.Forall₂ (fun site => site.Yields file facts)
        ((tree.sites []).filter (·.isReachedAs .lambda)) facts.lambdaRecords := by
  intro text file tree facts
  have hshape : tree.isNested = true ∧ tree.NamesTypes ∧ tree.HeadsTypes ∧
      tree.ClosesInstances := by
    decide +kernel
  obtain ⟨hcalls, hlambdas, -⟩ :=
    records_in_order file "A.java" hshape.1 hshape.2.1 hshape.2.2.1 hshape.2.2.2
  exact ⟨hshape, by decide +kernel, by decide +kernel, hcalls, hlambdas⟩

/-- A call in a class that stands in the body of another one without a name, outside of all types.
It is in no head, and nothing is recorded. -/
theorem call_unread_outside_types :
    let text := "Object o=new Object()\x7bclass L\x7bvoid f()\x7bg();\x7d\x7d\x7d;"
    let tree := parse text
    (∃ site ∈ tree.sites [], site.node.kind = .invocation ∧
        (∃ opener ∈ openers site.way, opener.kind.isType = true) ∧
        isHeaded site.way = false) ∧
      (ofTree ⟨"A.java", text⟩ "A.java" tree).callRecords = [] := by
  decide +kernel

end FileFacts

end EntryPoints
