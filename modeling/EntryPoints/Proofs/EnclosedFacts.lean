import EntryPoints.Proofs.FactOrigins
import EntryPoints.Proofs.MethodKeys

/-!
# Facts inside of methods

While a file is read, every invocation is recorded with the method whose declaration is
being read.  The location of that method is the innermost one around the invocation.

The location of a method starts at the documentation comment in front of it, so it may begin
before the declaration does.  It stays inside of the construct that holds the method, and behind
everything that comes before the comment.  Where every method starts with a token of its own, the
locations of the methods of a file are nested or apart, and of two nested ones the inner one is
narrower.
-/

namespace EntryPoints

open Java

/-! ## Declarations with their ids -/

/-- A method is declared at an offset, which its id names, and it has a location around it. -/
structure MethodDecl.StandsAt (decl : MethodDecl) (place : Location) (offset : Nat) : Prop where
  location : decl.location = some place
  id : decl.id = decl.owner ++ "#" ++ decl.name ++ "@" ++ toString offset
  start : place.start ≤ offset
  stop : (offset : Int) < place.stop

/-- The id of a method tells where it is declared. -/
theorem MethodDecl.StandsAt.of_id_eq {decl other : MethodDecl} {place elsewhere : Location}
    {offset position : Nat} (h : decl.StandsAt place offset)
    (hother : other.StandsAt elsewhere position) (hid : decl.id = other.id) :
    offset = position := by
  rw [h.id, hother.id] at hid
  exact (eq_of_append_toString hid).2

/-! ## Facts with their places -/

/-- What is run at a place, and the method that is named for it; a mention runs nothing. -/
def Fact.run? : Fact → Option (Location × Option String)
  | .invocation call =>
    if call.kind = .documentation then none else some (call.location, call.method)
  | .functionalUse use => some (use.location, use.method)
  | _ => none

/-- A fact that runs nothing and declares no method. -/
def Fact.IsQuiet (fact : Fact) : Prop := fact.run? = none ∧ ∀ decl, fact ≠ .method decl

/-- None of the methods of some facts is around a place. -/
def IsOutside (facts : List Fact) (place : Location) : Prop :=
  ∀ decl, .method decl ∈ facts → ∀ span ∈ decl.location, span.contains place = false

/-- Of the methods of some facts, one is around a place and the others around it are wider. -/
def IsInnermost (facts : List Fact) (place : Location) (decl : MethodDecl) : Prop :=
  .method decl ∈ facts ∧ ∃ span, decl.location = some span ∧ span.contains place = true ∧
    ∀ other, .method other ∈ facts → ∀ wider ∈ other.location, wider.contains place = true →
      other = decl ∨ span.width < wider.width

/-- The facts of a part of a file that is read inside of a method, or of none.  The part
reaches from `start` to `stop`, and its methods begin at `low` at the earliest. -/
structure AreEnclosed (path : String) (method : Option String) (low start stop : Nat)
    (facts : List Fact) : Prop where
  runs : ∀ fact ∈ facts, ∀ run ∈ fact.run?, run.1.file = path ∧ (start : Int) ≤ run.1.start ∧
    run.1.start < run.1.stop ∧ run.1.stop ≤ (stop : Int)
  methods : ∀ decl, .method decl ∈ facts → ∃ place offset, decl.StandsAt place offset ∧
    place.file = path ∧ (low : Int) ≤ place.start ∧ place.stop ≤ (stop : Int)
  ids : ∀ decl other, .method decl ∈ facts → .method other ∈ facts → decl.id = other.id →
    decl = other
  enclosed : ∀ fact ∈ facts, ∀ run ∈ fact.run?, ∀ id, run.2 = some id →
    (method = some id ∧ IsOutside facts run.1) ∨
      ∃ decl, decl.id = id ∧ IsInnermost facts run.1 decl

section Parts

variable {path : String} {method : Option String} {low start stop : Nat}
  {facts more : List Fact} {place : Location} {decl : MethodDecl}

theorem IsOutside.append (h : IsOutside facts place) (hmore : IsOutside more place) :
    IsOutside (facts ++ more) place := by
  intro decl hdecl
  rcases List.mem_append.mp hdecl with hdecl | hdecl
  · exact h decl hdecl
  · exact hmore decl hdecl

/-- The innermost method stays innermost beside methods that are not around the place. -/
theorem IsInnermost.of_subset (h : IsInnermost facts place decl) (hsub : facts ⊆ more)
    (hmore : ∀ other, .method other ∈ more → .method other ∈ facts ∨
      ∀ span ∈ other.location, span.contains place = false) :
    IsInnermost more place decl := by
  obtain ⟨hdecl, span, hspan, haround, hnarrow⟩ := h
  refine ⟨hsub hdecl, span, hspan, haround, fun other hother wider hwider hcontains => ?_⟩
  rcases hmore other hother with hfacts | hout
  · exact hnarrow other hfacts wider hwider hcontains
  · rw [hout wider hwider] at hcontains
    cases hcontains

/-- A method around a place is innermost when no other of the facts is around it. -/
theorem IsOutside.declared (h : IsOutside facts place) {span : Location}
    (hspan : decl.location = some span) (haround : span.contains place = true) :
    IsInnermost (.method decl :: facts) place decl := by
  refine ⟨List.mem_cons_self, span, hspan, haround, fun other hother wider hwider hcontains => ?_⟩
  rcases List.mem_cons.mp hother with hother | hother
  · cases hother
    exact .inl rfl
  · rw [h other hother wider hwider] at hcontains
    cases hcontains

/-- The innermost method stays innermost inside of a wider one. -/
theorem IsInnermost.inside (h : IsInnermost facts place decl) {outer : MethodDecl}
    (houter : ∀ span ∈ decl.location, ∀ wider ∈ outer.location, span.width < wider.width) :
    IsInnermost (.method outer :: facts) place decl := by
  obtain ⟨hmem, span, hspan, haround, hnarrow⟩ := h
  refine ⟨List.mem_cons_of_mem _ hmem, span, hspan, haround,
    fun other hother wider hwider hcontains => ?_⟩
  rcases List.mem_cons.mp hother with hother | hother
  · cases hother
    exact .inr (houter span hspan wider hwider)
  · exact hnarrow other hother wider hwider hcontains

namespace AreEnclosed

theorem mono (h : AreEnclosed path method low start stop facts) {low' start' stop' : Nat}
    (hlow : low' ≤ low) (hstart : start' ≤ start) (hstop : stop ≤ stop') :
    AreEnclosed path method low' start' stop' facts where
  runs fact hfact run hrun := by
    obtain ⟨hfile, hbounds⟩ := h.runs fact hfact run hrun
    exact ⟨hfile, by omega⟩
  methods decl hdecl := by
    obtain ⟨place, offset, hstands, hfile, hplace⟩ := h.methods decl hdecl
    exact ⟨place, offset, hstands, hfile, by omega⟩
  ids := h.ids
  enclosed := h.enclosed

/-- What is read outside of methods may be read inside of one. -/
theorem of_none (h : AreEnclosed path none low start stop facts) :
    AreEnclosed path method low start stop facts where
  runs := h.runs
  methods := h.methods
  ids := h.ids
  enclosed fact hfact run hrun id hid := by
    rcases h.enclosed fact hfact run hrun id hid with ⟨hnone, -⟩ | hinner
    · cases hnone
    · exact .inr hinner

theorem congr (h : AreEnclosed path method low start stop facts)
    (hmore : ∀ fact, fact ∈ more ↔ fact ∈ facts) :
    AreEnclosed path method low start stop more where
  runs fact hfact := h.runs fact ((hmore fact).mp hfact)
  methods decl hdecl := h.methods decl ((hmore _).mp hdecl)
  ids decl other hdecl hother := h.ids decl other ((hmore _).mp hdecl) ((hmore _).mp hother)
  enclosed fact hfact run hrun id hid := by
    rcases h.enclosed fact ((hmore fact).mp hfact) run hrun id hid with
      ⟨hmethod, hout⟩ | ⟨decl, hdecl, hinner⟩
    · exact .inl ⟨hmethod, fun other hother => hout other ((hmore _).mp hother)⟩
    · exact .inr ⟨decl, hdecl, hinner.of_subset (fun fact => (hmore fact).mpr)
        fun other hother => .inl ((hmore _).mp hother)⟩

theorem of_isQuiet (hfacts : ∀ fact ∈ facts, fact.IsQuiet) :
    AreEnclosed path method low start stop facts where
  runs fact hfact run hrun := by
    rw [(hfacts fact hfact).1] at hrun
    cases hrun
  methods decl hdecl := absurd rfl ((hfacts _ hdecl).2 decl)
  ids decl _ hdecl := absurd rfl ((hfacts _ hdecl).2 decl)
  enclosed fact hfact run hrun := by
    rw [(hfacts fact hfact).1] at hrun
    cases hrun

theorem isOutside_of_stop (h : AreEnclosed path method low start stop facts) {run : Location}
    (hrun : run.start < run.stop) (hstop : run.stop ≤ low) : IsOutside facts run := by
  intro decl hdecl span hspan
  obtain ⟨place, offset, hstands, -, hlow, -⟩ := h.methods decl hdecl
  rw [hstands.location] at hspan
  cases hspan
  rw [Bool.eq_false_iff, ne_eq, Location.contains_iff]
  omega

theorem isOutside_of_start (h : AreEnclosed path method low start stop facts) {run : Location}
    (hrun : run.start < run.stop) (hstart : (stop : Int) ≤ run.start) : IsOutside facts run := by
  intro decl hdecl span hspan
  obtain ⟨place, offset, hstands, -, -, hstop⟩ := h.methods decl hdecl
  rw [hstands.location] at hspan
  cases hspan
  rw [Bool.eq_false_iff, ne_eq, Location.contains_iff]
  omega

/-- Two parts that follow each other. -/
theorem append {mid low' start' : Nat} (h : AreEnclosed path method low start mid facts)
    (hmore : AreEnclosed path method low' start' stop more) (hlow : low ≤ low')
    (hstart : start ≤ start') (hstop : mid ≤ stop) (hmid : mid ≤ low') (hbehind : mid ≤ start') :
    AreEnclosed path method low start stop (facts ++ more) where
  runs fact hfact run hrun := by
    rcases List.mem_append.mp hfact with hfact | hfact
    · obtain ⟨hfile, hbounds⟩ := h.runs fact hfact run hrun
      exact ⟨hfile, by omega⟩
    · obtain ⟨hfile, hbounds⟩ := hmore.runs fact hfact run hrun
      exact ⟨hfile, by omega⟩
  methods decl hdecl := by
    rcases List.mem_append.mp hdecl with hdecl | hdecl
    · obtain ⟨place, offset, hstands, hfile, hplace⟩ := h.methods decl hdecl
      exact ⟨place, offset, hstands, hfile, by omega⟩
    · obtain ⟨place, offset, hstands, hfile, hplace⟩ := hmore.methods decl hdecl
      exact ⟨place, offset, hstands, hfile, by omega⟩
  ids := by
    have happart (decl other : MethodDecl) (hdecl : .method decl ∈ facts)
        (hother : .method other ∈ more) : decl.id ≠ other.id := by
      obtain ⟨place, offset, hstands, -, -, hplace⟩ := h.methods decl hdecl
      obtain ⟨elsewhere, position, hbeside, -, helsewhere, -⟩ := hmore.methods other hother
      intro hid
      have hoffset := hstands.of_id_eq hbeside hid
      have hbefore := hstands.stop
      have hafter := hbeside.start
      omega
    intro decl other hdecl hother hid
    rcases List.mem_append.mp hdecl with hdecl | hdecl <;>
      rcases List.mem_append.mp hother with hother | hother
    · exact h.ids decl other hdecl hother hid
    · exact absurd hid (happart decl other hdecl hother)
    · exact absurd hid.symm (happart other decl hother hdecl)
    · exact hmore.ids decl other hdecl hother hid
  enclosed fact hfact run hrun id hid := by
    rcases List.mem_append.mp hfact with hfact | hfact
    · have hplace := h.runs fact hfact run hrun
      have hout : IsOutside more run.1 := hmore.isOutside_of_stop (by omega) (by omega)
      rcases h.enclosed fact hfact run hrun id hid with ⟨hmethod, hnone⟩ | ⟨decl, hdecl, hinner⟩
      · exact .inl ⟨hmethod, hnone.append hout⟩
      · refine .inr ⟨decl, hdecl, hinner.of_subset (List.subset_append_left _ _) ?_⟩
        intro other hother
        rcases List.mem_append.mp hother with hother | hother
        · exact .inl hother
        · exact .inr (hout other hother)
    · have hplace := hmore.runs fact hfact run hrun
      have hout : IsOutside facts run.1 := h.isOutside_of_start (by omega) (by omega)
      rcases hmore.enclosed fact hfact run hrun id hid with
        ⟨hmethod, hnone⟩ | ⟨decl, hdecl, hinner⟩
      · exact .inl ⟨hmethod, hout.append hnone⟩
      · refine .inr ⟨decl, hdecl, hinner.of_subset (List.subset_append_right _ _) ?_⟩
        intro other hother
        rcases List.mem_append.mp hother with hother | hother
        · exact .inr (hout other hother)
        · exact .inl hother

/-- What a construct runs by itself is run at its own place, inside of the same method. -/
theorem own (h : AreEnclosed path method (start + 1) start stop facts) (hfacts : facts ⊆ more)
    (here : Location) (hfile : here.file = path) (hstart : here.start = start)
    (hstop : here.stop = stop) (hnonempty : start < stop)
    (hmore : ∀ fact ∈ more, fact ∈ facts ∨
      (∀ run ∈ fact.run?, run = (here, method)) ∧ ∀ decl, fact ≠ .method decl) :
    AreEnclosed path method (start + 1) start stop more := by
  have hmethods (decl : MethodDecl) (hdecl : .method decl ∈ more) : .method decl ∈ facts := by
    rcases hmore _ hdecl with hdecl | ⟨-, hnot⟩
    · exact hdecl
    · exact absurd rfl (hnot decl)
  refine ⟨fun fact hfact run hrun => ?_, fun decl hdecl => h.methods decl (hmethods decl hdecl),
    fun decl other hdecl hother => h.ids decl other (hmethods decl hdecl) (hmethods other hother),
    fun fact hfact run hrun id hid => ?_⟩
  · rcases hmore fact hfact with hfact | ⟨hown, -⟩
    · exact h.runs fact hfact run hrun
    · rw [hown run hrun]
      refine ⟨hfile, ?_⟩
      simp only
      omega
  · rcases hmore fact hfact with hfact | ⟨hown, -⟩
    · rcases h.enclosed fact hfact run hrun id hid with ⟨hmethod, hout⟩ | ⟨decl, hdecl, hinner⟩
      · exact .inl ⟨hmethod, fun other hother => hout other (hmethods other hother)⟩
      · exact .inr ⟨decl, hdecl, hinner.of_subset hfacts
          fun other hother => .inl (hmethods other hother)⟩
    · rw [hown run hrun] at hid ⊢
      refine .inl ⟨hid, fun decl hdecl span hspan => ?_⟩
      -- The methods inside of the construct start behind its start.
      obtain ⟨place, offset, hstands, -, hlow, -⟩ := h.methods decl (hmethods decl hdecl)
      rw [hstands.location] at hspan
      cases hspan
      rw [Bool.eq_false_iff, ne_eq, Location.contains_iff]
      simp only
      omega

/-- Facts that run nothing and declare no method may stand beside. -/
theorem beside (h : AreEnclosed path method low start stop facts) (hfacts : facts ⊆ more)
    (hmore : ∀ fact ∈ more, fact ∈ facts ∨ fact.IsQuiet) :
    AreEnclosed path method low start stop more := by
  have hmethods (decl : MethodDecl) (hdecl : .method decl ∈ more) : .method decl ∈ facts := by
    rcases hmore _ hdecl with hdecl | hquiet
    · exact hdecl
    · exact absurd rfl (hquiet.2 decl)
  have hruns (fact : Fact) (hfact : fact ∈ more) (run : Location × Option String)
      (hrun : run ∈ fact.run?) : fact ∈ facts := by
    rcases hmore fact hfact with hfact | hquiet
    · exact hfact
    · rw [hquiet.1] at hrun
      cases hrun
  refine ⟨fun fact hfact run hrun => h.runs fact (hruns fact hfact run hrun) run hrun,
    fun decl hdecl => h.methods decl (hmethods decl hdecl),
    fun decl other hdecl hother => h.ids decl other (hmethods decl hdecl) (hmethods other hother),
    fun fact hfact run hrun id hid => ?_⟩
  rcases h.enclosed fact (hruns fact hfact run hrun) run hrun id hid with
    ⟨hmethod, hout⟩ | ⟨decl, hdecl, hinner⟩
  · exact .inl ⟨hmethod, fun other hother => hout other (hmethods other hother)⟩
  · exact .inr ⟨decl, hdecl, hinner.of_subset hfacts
      fun other hother => .inl (hmethods other hother)⟩

/-- What is read inside of a method is enclosed by the method or by one inside of it. -/
theorem declared {decl : MethodDecl}
    (h : AreEnclosed path (some decl.id) (start + 1) start stop facts) {here : Location}
    (hdecl : decl.StandsAt here start) (hfile : here.file = path) (hlow : (low : Int) ≤ here.start)
    (hstop : here.stop = stop) :
    AreEnclosed path method low start stop (.method decl :: facts) := by
  have hhere := hdecl.start
  have hinside (other : MethodDecl) (hother : .method other ∈ facts) : decl.id ≠ other.id := by
    obtain ⟨place, offset, hstands, -, hplace, -⟩ := h.methods other hother
    intro hid
    have hoffset := hdecl.of_id_eq hstands hid
    have hafter := hstands.start
    omega
  refine ⟨fun fact hfact run hrun => ?_, fun other hother => ?_, ?_,
    fun fact hfact run hrun id hid => ?_⟩
  · rcases List.mem_cons.mp hfact with rfl | hfact
    · cases hrun
    · exact h.runs fact hfact run hrun
  · rcases List.mem_cons.mp hother with hother | hother
    · cases hother
      exact ⟨here, start, hdecl, hfile, hlow, by omega⟩
    · obtain ⟨place, offset, hstands, hplace, hbounds⟩ := h.methods other hother
      exact ⟨place, offset, hstands, hplace, by omega⟩
  · intro first second hfirst hsecond hid
    rcases List.mem_cons.mp hfirst with hfirst | hfirst <;>
      rcases List.mem_cons.mp hsecond with hsecond | hsecond
    · cases hfirst
      cases hsecond
      rfl
    · cases hfirst
      exact absurd hid (hinside second hsecond)
    · cases hsecond
      exact absurd hid.symm (hinside first hfirst)
    · exact h.ids first second hfirst hsecond hid
  · rcases List.mem_cons.mp hfact with rfl | hfact
    · cases hrun
    · obtain ⟨hrunFile, hbounds⟩ := h.runs fact hfact run hrun
      have haround : here.contains run.1 = true := by
        rw [Location.contains_iff]
        exact ⟨hfile.trans hrunFile.symm, by omega, by omega⟩
      rcases h.enclosed fact hfact run hrun id hid with ⟨hmethod, hout⟩ | ⟨inner, hinner, hmost⟩
      · exact .inr ⟨decl, Option.some.inj hmethod, hout.declared hdecl.location haround⟩
      · refine .inr ⟨inner, hinner, hmost.inside fun span hspan wider hwider => ?_⟩
        obtain ⟨place, offset, hstands, -, hplace⟩ := h.methods inner hmost.1
        rw [hstands.location] at hspan
        rw [hdecl.location] at hwider
        cases hspan
        cases hwider
        unfold Location.width
        omega

end AreEnclosed

end Parts

/-! ## Reading a tree -/

theorem Place.StatedAt.run {place : Place} {node : Node} {fact : Fact}
    (hfact : place.StatedAt node fact) :
    (∀ run ∈ fact.run?, run = (place.locate node, place.method)) ∧ ∀ decl, fact ≠ .method decl := by
  refine ⟨fun run hrun => ?_, fun decl => ?_⟩
  · cases hfact with
    | call hkind howner hmethod hlocation =>
        rw [Fact.run?, if_neg hkind, hmethod, hlocation] at hrun
        cases hrun
        rfl
    | use kind =>
        cases hrun
        rfl
    | comment hkind => cases hrun
    | mention hkind reference => cases hrun
  · cases hfact <;> exact Fact.noConfusion

theorem isQuiet_of_mem_commentFacts {place : Place} {node : Node} {fact : Fact}
    (hfact : fact ∈ place.commentFacts node) : fact.IsQuiet := by
  rcases place.of_mem_commentFacts hfact with rfl | ⟨reference, rfl⟩
  · exact ⟨rfl, fun decl => Fact.noConfusion⟩
  · exact ⟨rfl, fun decl => Fact.noConfusion⟩

/-- A construct of another kind states nothing that is run. -/
theorem Place.isQuiet_of_mem_ownFacts {place : Place} {node : Node}
    (hkind : node.kind.isRun = false) :
    ∀ fact ∈ place.ownFacts node, fact.IsQuiet := by
  have hnot {kind : Kind} (hrun : kind.isRun = true) (heq : node.kind = kind) : False := by
    rw [heq, hrun] at hkind
    cases hkind
  intro fact hfact
  unfold ownFacts at hfact
  split at hfact
  next hcreation => exact (hnot rfl hcreation).elim
  next =>
    unfold factsAt at hfact
    split at hfact
    next hnode _ => exact (hnot rfl hnode).elim
    next hnode _ => exact (hnot rfl hnode).elim
    next hnode _ => exact (hnot rfl hnode).elim
    next hnode _ => exact (hnot rfl hnode).elim
    next => exact isQuiet_of_mem_commentFacts hfact
    next => cases hfact

/-- Keywords, symbols and comments run nothing and declare no method. -/
theorem isQuiet_survey (place : Place) (before : Option Node) {node : Node}
    (numbering : Numbering) (hnode : node.IsTokenized) (hleaf : node.kind.isLeaf = true) :
    ∀ fact ∈ (survey place before node numbering).1, fact.IsQuiet := by
  have hnone : node.children = [] := hnode.leaves node (Node.self_mem_nodes node) hleaf
  obtain ⟨kind, role, span, text, children⟩ := node
  subst hnone
  have hkind : kind = .blockComment ∨ kind = .lineComment ∨ kind = .keyword ∨ kind = .symbol := by
    cases kind <;> simp_all [Kind.isLeaf, Kind.isNamed, Kind.isComment]
  have hfacts : (survey place before ⟨kind, role, span, text, []⟩ numbering).1 =
      if kind = .blockComment then place.commentFacts ⟨kind, role, span, text, []⟩ else [] := by
    rcases hkind with rfl | rfl | rfl | rfl <;> cases hholder : place.holder <;>
      simp [survey, surveyAll, Place.typeKind?, Place.factsAt, hholder]
  rw [hfacts]
  intro fact hfact
  split at hfact
  · exact isQuiet_of_mem_commentFacts hfact
  · cases hfact

/-- Where the methods of a list of nodes can start: behind what comes before them, the comment
that belongs to the first of them apart; or behind the token that opens the list. -/
def MethodsFrom (low start : Nat) (before : Option Node) (nodes : List Node) : Prop :=
  (low ≤ start ∧ ∀ c ∈ before, c.kind = .blockComment → low ≤ c.span.start) ∨
    (before = none ∧ ∀ first ∈ nodes.head?, first.kind.isMethod = false ∧
      first.kind ≠ .blockComment ∧ first.startsWithToken = true)

theorem startWithComment_le {before : Option Node} {node : Node}
    (hbefore : ∀ c ∈ before, c.span.start ≤ node.span.start) :
    Place.startWithComment before node ≤ node.span.start := by
  unfold Place.startWithComment
  split
  · split
    · exact hbefore _ rfl
    · exact Nat.le_refl _
  · exact Nat.le_refl _

theorem surveyAll_none (place : Place) (before : Option Node) (nodes : List Node)
    (numbering : Numbering) :
    (surveyAll place (fun _ => false) before nodes numbering).1 = [] := by
  induction nodes generalizing before numbering with
  | nil => rfl
  | cons node nodes ih =>
      unfold surveyAll
      exact ih _ _

theorem Place.standsAt_declareMethod (place : Place) (owner : TypeDecl) {before : Option Node}
    {node : Node} (hnonempty : node.span.start < node.span.stop)
    (hbefore : ∀ c ∈ before, c.span.start ≤ node.span.start) :
    (place.declareMethod owner before node).StandsAt
      { place.locate node with start := startWithComment before node } node.span.start where
  location := rfl
  id := rfl
  start := Int.ofNat_le.mpr (startWithComment_le hbefore)
  stop := Int.ofNat_lt.mpr hnonempty

/-- Behind a token at the start of a node, the methods among its children start later. -/
theorem methodsFrom_children (node : Node) :
    MethodsFrom node.front node.span.start none node.children := by
  unfold Node.front
  split
  next htoken =>
    refine .inr ⟨rfl, fun first hfirst => ?_⟩
    obtain ⟨rest, hchildren⟩ := List.head?_eq_some_iff.mp hfirst
    rw [Node.startsWithToken_eq, hchildren, Node.firstIsToken] at htoken
    simpa [and_assoc] using htoken
  next => exact .inl ⟨Nat.le_refl _, fun c hc => by cases hc⟩

theorem MethodsFrom.le_stop {low start stop : Nat} {before : Option Node} {node : Node}
    {nodes : List Node} (h : MethodsFrom low start before (node :: nodes))
    (hlow : low ≤ start + 1) (hlaid : Node.LaidOut start stop (node :: nodes)) :
    low ≤ node.span.stop := by
  have hstart := hlaid.le_head
  have hstop := hlaid.start_le_stop
  rcases h with ⟨hle, -⟩ | ⟨-, hfirst⟩
  · omega
  · have hcovers := Node.nonempty_of_startsWithToken node hlaid.isNested_head (hfirst node rfl).2.2
    omega

theorem MethodsFrom.tail {low start stop : Nat} {before : Option Node} {node : Node}
    {nodes : List Node} (h : MethodsFrom low start before (node :: nodes))
    (hlow : low ≤ start + 1) (hlaid : Node.LaidOut start stop (node :: nodes)) :
    MethodsFrom low node.span.stop (Place.latestNamed before node) nodes := by
  have hstart := hlaid.le_head
  refine .inl ⟨h.le_stop hlow hlaid, fun c hc hcomment => ?_⟩
  rcases h with ⟨hle, hbefore⟩ | ⟨hnone, hfirst⟩
  · rcases Place.of_mem_latestNamed hc with rfl | hc
    · omega
    · exact hbefore c hc hcomment
  · have hnotComment := (hfirst node rfl).2.1
    rcases Place.of_mem_latestNamed hc with rfl | hc
    · exact absurd hcomment hnotComment
    · rw [hnone] at hc
      cases hc

/-- What is read of the first node of a list starts, with its comment, where the methods of the
list can. -/
theorem MethodsFrom.head {low start : Nat} {before : Option Node} {node : Node}
    {nodes : List Node} (h : MethodsFrom low start before (node :: nodes))
    (hlow : low ≤ start + 1) (hstart : start ≤ node.span.start) :
    low ≤ node.front ∧
      (node.kind.isMethod = true → low ≤ Place.startWithComment before node) := by
  rcases h with ⟨hle, hbefore⟩ | ⟨-, hfirst⟩
  · have hfront : node.span.start ≤ node.front := node.le_front
    exact ⟨by omega, fun _ => Place.le_startWithComment (by omega) hbefore⟩
  · obtain ⟨hnotMethod, -, htoken⟩ := hfirst node rfl
    refine ⟨?_, fun hmethod => ?_⟩
    · rw [Node.front, if_pos htoken]
      omega
    · rw [hnotMethod] at hmethod
      cases hmethod

/-- The methods behind a construct start behind it, for it is no comment. -/
theorem MethodsFrom.behind (before : Option Node) {node : Node} (nodes : List Node)
    (hleaf : node.kind.isLeaf = false) :
    MethodsFrom node.span.stop node.span.stop (Place.latestNamed before node) nodes := by
  rw [Kind.isLeaf, Bool.or_eq_false_iff, Bool.not_eq_false'] at hleaf
  refine .inl ⟨Nat.le_refl _, fun c hc hcomment => ?_⟩
  rw [Place.latestNamed, if_pos hleaf.1] at hc
  cases hc
  rw [hcomment] at hleaf
  cases hleaf.2

/-! ## Two rounds -/

/-- What is read of a node in two rounds, of which one reads in the body of a type. -/
def roundsOf (outer inner : Place) (isRead isBody : Node → Bool) (before : Option Node)
    (node : Node) (m n : Numbering) : List Fact :=
  (if isRead node then survey outer before node m else ([], m)).1 ++
    (if isBody node then survey inner before node n else ([], n)).1

section Rounds

variable {outer inner : Place} {isRead isBody : Node → Bool} {before : Option Node} {node : Node}
  {m n : Numbering}

theorem isQuiet_rounds (hnode : node.IsTokenized) (hleaf : node.kind.isLeaf = true) :
    ∀ fact ∈ roundsOf outer inner isRead isBody before node m n, fact.IsQuiet := by
  have hread (place : Place) (isRead : Bool) (numbering : Numbering) : ∀ fact ∈
      (if isRead then survey place before node numbering else ([], numbering)).1,
        fact.IsQuiet := by
    intro fact hfact
    split at hfact
    · exact isQuiet_survey place before numbering hnode hleaf fact hfact
    · cases hfact
  intro fact hfact
  rcases List.mem_append.mp hfact with hfact | hfact
  · exact hread outer _ m fact hfact
  · exact hread inner _ n fact hfact

/-- A node is read in one of two rounds at most. -/
theorem AreEnclosed.rounds {low start stop : Nat} (hpath : inner.file.path = outer.file.path)
    (hnone : inner.method = none) (honce : isRead node = true → isBody node = false)
    (hsurvey : ∀ (place : Place) (numbering : Numbering),
      AreEnclosed place.file.path place.method low start stop
        (survey place before node numbering).1) :
    AreEnclosed outer.file.path outer.method low start stop
      (roundsOf outer inner isRead isBody before node m n) := by
  unfold roundsOf
  split
  next hread =>
    rw [honce hread]
    simpa using hsurvey outer m
  next =>
    rw [List.nil_append]
    split
    · have hinner := hsurvey inner n
      rw [hpath, hnone] at hinner
      exact hinner.of_none
    · exact .of_isQuiet fun _ hfact => by cases hfact

end Rounds

/-- What is read of the children of a node is enclosed, in two rounds as well, of which one
reads in the body of a type. -/
def Place.EnclosesChildren (place : Place) (node : Node) : Prop :=
  ∀ (method : Option String) (body : TypeDecl) (isRead isBody : Node → Bool),
    (∀ c ∈ node.children, isRead c = true → isBody c = false) → ∀ m n : Numbering,
      AreEnclosed place.file.path method node.front node.span.start node.span.stop
        ((surveyAll { place.enter node with method } isRead none node.children m).1 ++
          (surveyAll ((place.enter node).inType body) isBody none node.children n).1)

section Children

variable {place : Place} {node : Node} {low : Nat} {facts all : List Fact}

theorem Place.EnclosesChildren.once (h : place.EnclosesChildren node) (method : Option String)
    (isRead : Node → Bool) (m : Numbering) :
    AreEnclosed place.file.path method node.front node.span.start node.span.stop
      (surveyAll { place.enter node with method } isRead none node.children m).1 := by
  have hall := h method default isRead (fun _ => false) (fun _ _ _ => rfl) m ∅
  rw [surveyAll_none, List.append_nil] at hall
  exact hall

theorem Place.EnclosesChildren.inBody (h : place.EnclosesChildren node) (body : TypeDecl)
    (isBody : Node → Bool) (n : Numbering) :
    AreEnclosed place.file.path place.method node.front node.span.start node.span.stop
      (surveyAll ((place.enter node).inType body) isBody none node.children n).1 := by
  have hall := h place.method body (fun _ => false) isBody
    (fun _ _ hread => Bool.noConfusion hread) ∅ n
  rw [surveyAll_none, List.nil_append] at hall
  exact hall

/-- A node may state something, or declare a type, beside what is read of its children.  What it
runs is run from its own first token on. -/
theorem AreEnclosed.stated (hnode : node.IsTokenized) (hnested : node.isNested = true)
    (hlow : low ≤ node.front)
    (h : AreEnclosed place.file.path place.method node.front node.span.start node.span.stop facts)
    (hsub : facts ⊆ all) (hall : ∀ fact ∈ all, fact ∈ facts ∨ fact ∈ place.ownFacts node ∨
      ∃ decl, fact = .type decl) :
    AreEnclosed place.file.path place.method low node.span.start node.span.stop all := by
  refine AreEnclosed.mono ?_ hlow (Nat.le_refl _) (Nat.le_refl _)
  have htype (decl : TypeDecl) : (Fact.type decl).IsQuiet :=
    ⟨rfl, fun _ => Fact.noConfusion⟩
  by_cases hrun : node.kind.isRun = true
  · have htoken := hnode.starts node (Node.self_mem_nodes node)
      (Bool.or_eq_true_iff.mpr (.inl hrun))
    have hnonempty := Node.nonempty_of_startsWithToken node hnested htoken
    rw [Node.front, if_pos htoken] at h ⊢
    refine h.own hsub (place.locate node) rfl rfl rfl hnonempty fun fact hfact => ?_
    rcases hall fact hfact with hfact | hfact | ⟨decl, rfl⟩
    · exact .inl hfact
    · exact .inr (place.statedAt_ownFacts node fact hfact).run
    · exact .inr ⟨fun run hrun => (by cases hrun), (htype decl).2⟩
  · refine h.beside hsub fun fact hfact => ?_
    rcases hall fact hfact with hfact | hfact | ⟨decl, rfl⟩
    · exact .inl hfact
    · exact .inr (Place.isQuiet_of_mem_ownFacts (Bool.eq_false_iff.mpr hrun) fact hfact)
    · exact .inr (htype decl)

theorem areEnclosed_of_children (h : place.EnclosesChildren node) {before : Option Node}
    (numbering : Numbering) (hnode : node.IsTokenized) (hnested : node.isNested = true)
    (hlow : low ≤ node.front) (hbefore : ∀ c ∈ before, c.span.start ≤ node.span.start)
    (hmethod : node.kind.isMethod = true → low ≤ Place.startWithComment before node) :
    AreEnclosed place.file.path place.method low node.span.start node.span.stop
      (survey place before node numbering).1 := by
  have houtcome := place.outcome_survey before node numbering
  generalize survey place before node numbering = result at houtcome ⊢
  cases houtcome with
  | nameless => exact .of_isQuiet fun _ hfact => by cases hfact
  | type htype hdecl hnext =>
      refine (h.inBody _ isBodyPart _).stated hnode hnested hlow (List.subset_cons_self _ _)
        fun fact hfact => ?_
      rcases List.mem_cons.mp hfact with hfact | hfact
      · exact .inr (.inr ⟨_, hfact⟩)
      · exact .inl hfact
  | @method owner decl hkind howner hdecl =>
      subst hdecl
      have htoken := hnode.starts node (Node.self_mem_nodes node)
        (Bool.or_eq_true_iff.mpr (.inr hkind))
      have hnonempty := Node.nonempty_of_startsWithToken node hnested htoken
      have hinside := h.once (some (place.declareMethod owner before node).id) (fun _ => true)
        numbering
      rw [Node.front, if_pos htoken] at hinside
      exact hinside.declared (place.standsAt_declareMethod owner hnonempty hbefore) rfl
        (Int.ofNat_le.mpr (hmethod hkind)) rfl
  | @construct own isRead htype hnone hown hopen hstated =>
      subst hstated
      refine (h.once place.method isRead numbering).stated hnode hnested hlow
        (List.subset_append_right _ _) fun fact hfact => ?_
      rcases List.mem_append.mp hfact with hfact | hfact
      · exact .inr (.inl hfact)
      · exact .inl hfact
  | @withClass owner decl superclass own isRead next hkind howner hown hopen hdecl hnext hstated =>
      subst hstated
      have hrounds (c : Node) (_ : c ∈ node.children) (hread : isRead c = true) :
          opensClass node.kind c = false := by
        simpa [Node.isOpen, hkind] using hopen c hread
      refine (h place.method decl isRead (opensClass node.kind) hrounds numbering next).stated
        hnode hnested hlow (fun fact hfact => ?_) fun fact hfact => ?_
      · rcases List.mem_append.mp hfact with hfact | hfact
        · exact List.mem_append_left _ (List.mem_append_right _ hfact)
        · exact List.mem_append_right _ (List.mem_cons_of_mem _ hfact)
      · rcases List.mem_append.mp hfact with hfact | hfact
        · rcases List.mem_append.mp hfact with hfact | hfact
          · exact .inr (.inl hfact)
          · exact .inl (List.mem_append_left _ hfact)
        · rcases List.mem_cons.mp hfact with hfact | hfact
          · exact .inr (.inr ⟨decl, hfact⟩)
          · exact .inl (List.mem_append_right _ hfact)

end Children

mutual

theorem areEnclosed_survey (place : Place) (before : Option Node) : ∀ (node : Node)
    (numbering : Numbering) (low : Nat), node.IsTokenized → node.isNested = true →
    (∀ c ∈ before, c.span.start ≤ node.span.start) → low ≤ node.front →
    (node.kind.isMethod = true → low ≤ Place.startWithComment before node) →
    AreEnclosed place.file.path place.method low node.span.start node.span.stop
      (survey place before node numbering).1
  | ⟨kind, role, span, text, children⟩, numbering, low, htokens, hnested, hbefore, hlow,
      hmethod => by
    let node : Node := ⟨kind, role, span, text, children⟩
    have hchildren : place.EnclosesChildren node :=
      fun method body isRead isBody hrounds m n =>
        areEnclosed_surveyAll { place.enter node with method } ((place.enter node).inType body)
          rfl rfl isRead isBody none children m n node.front span.start span.stop
          (fun _ hc => htokens.child hc) (.of_isNested hnested) hrounds (by simp) node.front_le
          (methodsFrom_children node)
    exact areEnclosed_of_children hchildren numbering htokens hnested hlow hbefore hmethod

theorem areEnclosed_surveyAll (outer inner : Place) (hpath : inner.file.path = outer.file.path)
    (hnone : inner.method = none) (isRead isBody : Node → Bool) : ∀ (before : Option Node)
    (nodes : List Node) (m n : Numbering) (low start stop : Nat),
    (∀ c ∈ nodes, c.IsTokenized) → Node.LaidOut start stop nodes →
    (∀ c ∈ nodes, isRead c = true → isBody c = false) →
    (∀ c ∈ before, c.span.start ≤ start) → low ≤ start + 1 → MethodsFrom low start before nodes →
    AreEnclosed outer.file.path outer.method low start stop
      ((surveyAll outer isRead before nodes m).1 ++ (surveyAll inner isBody before nodes n).1)
  | _, [], _, _, _, _, _, _, _, _, _, _, _ => AreEnclosed.of_isQuiet fun _ hfact => by cases hfact
  | before, node :: nodes, m, n, low, start, stop, htokens, hlaid, hrounds, hbefore, hlow,
      hmethods => by
    have hnode := htokens node List.mem_cons_self
    have hstart := hlaid.le_head
    have hwithin := hlaid.start_le_stop
    have hstop := hlaid.head_le
    let first := if isRead node then survey outer before node m else ([], m)
    let second := if isBody node then survey inner before node n else ([], n)
    have hrest (bound : Nat) (hbound : bound ≤ node.span.stop + 1)
        (hfrom : MethodsFrom bound node.span.stop (Place.latestNamed before node) nodes) :=
      areEnclosed_surveyAll outer inner hpath hnone isRead isBody (Place.latestNamed before node)
        nodes first.2 second.2 bound node.span.stop stop
        (fun c hc => htokens c (List.mem_cons_of_mem _ hc)) hlaid.tail
        (fun c hc => hrounds c (List.mem_cons_of_mem _ hc)) (fun c hc => by
          rcases Place.of_mem_latestNamed hc with rfl | hc
          · exact hwithin
          · have hc := hbefore c hc
            omega) hbound hfrom
    have hparts : AreEnclosed outer.file.path outer.method low start stop
        (roundsOf outer inner isRead isBody before node m n ++
          ((surveyAll outer isRead (Place.latestNamed before node) nodes first.2).1 ++
            (surveyAll inner isBody (Place.latestNamed before node) nodes second.2).1)) := by
      by_cases hleaf : node.kind.isLeaf = true
      · have hnothing : AreEnclosed outer.file.path outer.method low start 0
            (roundsOf outer inner isRead isBody before node m n) :=
          .of_isQuiet (isQuiet_rounds hnode hleaf)
        exact hnothing.append (hrest low (by omega) (hmethods.tail hlow hlaid))
          (by omega) (by omega) (by omega) (by omega) (by omega)
      · obtain ⟨hfront, hcomment⟩ := hmethods.head hlow hstart
        have hread : AreEnclosed outer.file.path outer.method low start node.span.stop
            (roundsOf outer inner isRead isBody before node m n) :=
          .rounds hpath hnone (hrounds node List.mem_cons_self) fun place numbering =>
            (areEnclosed_survey place before node numbering low hnode hlaid.isNested_head
              (fun c hc => Nat.le_trans (hbefore c hc) hstart) hfront hcomment).mono
              (Nat.le_refl _) hstart (Nat.le_refl _)
        have hbehind := MethodsFrom.behind before nodes (Bool.eq_false_iff.mpr hleaf)
        have hlowStop := hmethods.le_stop hlow hlaid
        exact hread.append (hrest node.span.stop (by omega) hbehind) hlowStop (by omega) (by omega)
          (by omega) (by omega)
    exact hparts.congr fun fact => by
      simp only [surveyAll, roundsOf, first, second, List.mem_append]
      exact or_or_or_comm

end

end EntryPoints
