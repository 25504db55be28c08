import Mathlib
import EntryPoints.Proofs.FileOrder
import EntryPoints.Proofs.Sites
import EntryPoints.Proofs.TopmostMethods

/-!
# Creators lie further out

A method of a class without a qualified name is replaced by the method around the place where
the class is declared.  A type starts before its methods do, even with the comments in front of
them, and it ends behind them.  So the location of the creator contains that of the method and
starts before it.

Hence the way from a method to its creator, to the creator of that one, and so on, never comes
back.  There are finitely many methods, and the way ends.
-/

namespace EntryPoints

open Java

variable {σ ρ : Type}

/-! ## Methods inside of their types -/

/-- A type starts before a method and ends behind it. -/
def TypeDecl.Surrounds (decl : TypeDecl) (m : MethodDecl) : Prop :=
  ∃ around inner, decl.location = some around ∧ m.location = some inner ∧
    around.contains inner = true ∧ around.start < inner.start

/-- The methods of some facts are declared in a file, between two offsets. -/
def MethodsWithin (path : String) (low stop : Nat) (facts : List Fact) : Prop :=
  ∀ m, .method m ∈ facts → ∃ place, m.location = some place ∧ place.file = path ∧
    (low : Int) ≤ place.start ∧ place.stop ≤ (stop : Int)

namespace MethodsWithin

variable {path : String} {low stop : Nat} {facts more : List Fact}

theorem nil : MethodsWithin path low stop [] := fun _ hm => absurd hm List.not_mem_nil

theorem mono (h : MethodsWithin path low stop facts) {stop' : Nat} (hstop : stop ≤ stop') :
    MethodsWithin path low stop' facts := by
  intro m hm
  obtain ⟨place, hlocation, hfile, hstart, hbefore⟩ := h m hm
  exact ⟨place, hlocation, hfile, hstart, by omega⟩

theorem append (h : MethodsWithin path low stop facts) (hmore : MethodsWithin path low stop more) :
    MethodsWithin path low stop (facts ++ more) := by
  intro m hm
  rcases List.mem_append.mp hm with hm | hm
  · exact h m hm
  · exact hmore m hm

theorem type (decl : TypeDecl) (h : MethodsWithin path low stop facts) :
    MethodsWithin path low stop (.type decl :: facts) := by
  intro m hm
  rcases List.mem_cons.mp hm with hm | hm
  · cases hm
  · exact h m hm

theorem method {decl : MethodDecl} {place : Location} (hlocation : decl.location = some place)
    (hfile : place.file = path) (hstart : (low : Int) ≤ place.start)
    (hstop : place.stop ≤ (stop : Int)) (h : MethodsWithin path low stop facts) :
    MethodsWithin path low stop (.method decl :: facts) := by
  intro m hm
  rcases List.mem_cons.mp hm with hm | hm
  · cases hm
    exact ⟨place, hlocation, hfile, hstart, hstop⟩
  · exact h m hm

theorem of_states {place : Place} {node : Node} {own : List Fact}
    (hown : place.States node own) : MethodsWithin path low stop own := by
  intro m hm
  obtain ⟨hstated, -⟩ := hown _ hm
  cases hstated

end MethodsWithin

mutual

theorem methodsWithin_survey (place : Place) (before : Option Node) {low : Nat} : ∀ (node : Node)
    (numbering : Numbering), node.isNested = true → low ≤ node.span.start →
    (∀ c ∈ before, c.kind = .blockComment → low ≤ c.span.start) →
    MethodsWithin place.file.path low node.span.stop (survey place before node numbering).1
  | ⟨kind, role, span, text, children⟩, numbering, hnested, hlow, hbefore => by
    let node : Node := ⟨kind, role, span, text, children⟩
    have hchildren (inner : Place) (isRead : Node → Bool) (numbering : Numbering) :
        MethodsWithin inner.file.path low node.span.stop
          (surveyAll inner isRead none children numbering).1 :=
      methodsWithin_surveyAll inner isRead none children numbering (.of_isNested hnested) hlow
        (by simp)
    have houtcome := place.outcome_survey before node numbering
    generalize survey place before node numbering = result at houtcome ⊢
    cases houtcome with
    | nameless => exact .nil
    | type htype hdecl => exact .type _ (hchildren ((place.enter node).inType _) _ _)
    | method hkind howner hdecl =>
        subst hdecl
        refine .method rfl rfl ?_ (Int.le_refl _) (hchildren ((place.enter node).inMethod _) _ _)
        exact Int.ofNat_le.mpr (Place.le_startWithComment hlow hbefore)
    | construct htype hmethod hown =>
        exact (MethodsWithin.of_states hown).append (hchildren (place.enter node) _ _)
    | withClass hkind howner hown =>
        exact ((MethodsWithin.of_states hown).append (hchildren (place.enter node) _ _)).append
          (.type _ (hchildren ((place.enter node).inType _) _ _))

theorem methodsWithin_surveyAll (place : Place) (isRead : Node → Bool) {low start stop : Nat} :
    ∀ (before : Option Node) (nodes : List Node) (numbering : Numbering),
    Node.LaidOut start stop nodes → low ≤ start →
    (∀ c ∈ before, c.kind = .blockComment → low ≤ c.span.start) →
    MethodsWithin place.file.path low stop (surveyAll place isRead before nodes numbering).1
  | _, [], _, _, _, _ => .nil
  | before, node :: rest, numbering, hlaid, hlow, hbefore => by
    have hhead := hlaid.le_head
    have hcovered := hlaid.start_le_stop
    have hnode : MethodsWithin place.file.path low stop
        (if isRead node then survey place before node numbering else ([], numbering)).1 := by
      split
      · exact (methodsWithin_survey place before node numbering hlaid.isNested_head (by omega)
          hbefore).mono hlaid.head_le
      · exact .nil
    unfold surveyAll
    refine hnode.append (methodsWithin_surveyAll place isRead _ rest _ hlaid.tail (by omega)
      fun c hc hcomment => ?_)
    rcases Place.of_mem_latestNamed hc with rfl | hc
    · omega
    · exact hbefore c hc hcomment

end

/-- The methods in the body of a type start behind what opens the body. -/
theorem surrounds_of_mem_readBody {place : Place} {node : Node} (hnested : node.isNested = true)
    (hheads : node.HeadsTypes) (hkind : (node.kind.isType || node.kind.isInstance) = true)
    {decl : TypeDecl} (hlocation : decl.location = some (place.locate node))
    {isRead : Node → Bool} (hbody : ∀ c, isRead c = true → node.opens c = true)
    {numbering : Numbering} {m : MethodDecl}
    (hm : .method m ∈ (place.readBody node decl isRead numbering).1) : decl.Surrounds m := by
  obtain ⟨first, rest, hchildren, hfront, hcomment, hcovers⟩ := hheads.front hkind
  have hlaid := Node.LaidOut.of_isNested hnested
  rw [hchildren] at hlaid
  have hunread : isRead first = false := by
    rw [← Bool.not_eq_true]
    intro hread
    rw [hbody first hread] at hfront
    cases hfront
  have hrest : .method m ∈ (surveyAll ((place.enter node).inType decl) isRead
      (Place.latestNamed none first) rest numbering).1 := by
    rw [Place.readBody, hchildren, surveyAll, hunread] at hm
    exact hm
  have hbefore : ∀ c ∈ Place.latestNamed none first, c.kind = .blockComment →
      first.span.stop ≤ c.span.start := by
    intro c hc hkind
    rcases Place.of_mem_latestNamed hc with rfl | hnone
    · exact absurd hkind hcomment
    · cases hnone
  have hmethods := methodsWithin_surveyAll ((place.enter node).inType decl) isRead
    (Place.latestNamed none first) rest numbering hlaid.tail (Nat.le_refl _) hbefore
  obtain ⟨inner, hinner, hfile, hstart, hstop⟩ := hmethods m hrest
  have hhead := hlaid.le_head
  have hbehind : (place.locate node).start < inner.start := by
    change (node.span.start : Int) < inner.start
    omega
  have hcontains : (place.locate node).contains inner = true := by
    rw [Location.contains_iff]
    exact ⟨hfile.symm, Int.le_of_lt hbehind, hstop⟩
  exact ⟨_, inner, hlocation, hinner, hcontains, hbehind⟩

/-- Each method belongs to the type that is being read, or to a declared one around it. -/
def AreHoused (owner : Option String) (facts : List Fact) : Prop :=
  ∀ m, .method m ∈ facts → owner = some m.owner ∨
    ∃ decl, .type decl ∈ facts ∧ decl.binaryName = m.owner ∧ decl.Surrounds m

namespace AreHoused

variable {owner : Option String} {facts more : List Fact}

theorem nil : AreHoused owner [] := fun _ hm => absurd hm List.not_mem_nil

theorem append (h : AreHoused owner facts) (hmore : AreHoused owner more) :
    AreHoused owner (facts ++ more) := by
  intro m hm
  rcases List.mem_append.mp hm with hm | hm
  · rcases h m hm with howner | ⟨decl, hdecl, hhouse⟩
    · exact .inl howner
    · exact .inr ⟨decl, List.mem_append_left _ hdecl, hhouse⟩
  · rcases hmore m hm with howner | ⟨decl, hdecl, hhouse⟩
    · exact .inl howner
    · exact .inr ⟨decl, List.mem_append_right _ hdecl, hhouse⟩

theorem method {m : MethodDecl} (howner : owner = some m.owner) (h : AreHoused owner facts) :
    AreHoused owner (.method m :: facts) := by
  intro other hother
  rcases List.mem_cons.mp hother with hother | hother
  · cases hother
    exact .inl howner
  · rcases h other hother with howner | ⟨decl, hdecl, hhouse⟩
    · exact .inl howner
    · exact .inr ⟨decl, List.mem_cons_of_mem _ hdecl, hhouse⟩

/-- The methods that are read in the body of a type belong to it or to a type inside of it. -/
theorem type {decl : TypeDecl} (hinside : ∀ m, .method m ∈ facts → decl.Surrounds m)
    (h : AreHoused (some decl.binaryName) facts) : AreHoused owner (.type decl :: facts) := by
  intro m hm
  have hm : .method m ∈ facts := by
    rcases List.mem_cons.mp hm with hm | hm
    · cases hm
    · exact hm
  rcases h m hm with howner | ⟨other, hother, hhouse⟩
  · exact .inr ⟨decl, List.mem_cons_self, Option.some.inj howner, hinside m hm⟩
  · exact .inr ⟨other, List.mem_cons_of_mem _ hother, hhouse⟩

theorem of_states {place : Place} {node : Node} {own : List Fact}
    (hown : place.States node own) : AreHoused owner own := by
  intro m hm
  obtain ⟨hstated, -⟩ := hown _ hm
  cases hstated

end AreHoused

mutual

theorem areHoused_survey (place : Place) (before : Option Node) : ∀ (node : Node)
    (numbering : Numbering), node.isNested = true → node.HeadsTypes →
    AreHoused place.ownerName (survey place before node numbering).1
  | ⟨kind, role, span, text, children⟩, numbering, hnested, hheads => by
    let node : Node := ⟨kind, role, span, text, children⟩
    have hchildren (inner : Place) (isRead : Node → Bool) (numbering : Numbering) :
        AreHoused inner.ownerName (surveyAll inner isRead none children numbering).1 :=
      areHoused_surveyAll inner isRead none children numbering (.of_isNested hnested)
        fun _ hc => hheads.child hc
    have houtcome := place.outcome_survey before node numbering
    generalize survey place before node numbering = result at houtcome ⊢
    cases houtcome with
    | nameless => exact .nil
    | type htype hdecl hnext hname =>
        subst hdecl
        have hkind : (node.kind.isType || node.kind.isInstance) = true := by rw [htype]; rfl
        exact .type (fun m => surrounds_of_mem_readBody hnested hheads hkind rfl
          fun c hread => (Node.opens_of_isType htype c).1.trans hread) (hchildren _ _ _)
    | method hkind howner hdecl =>
        subst hdecl
        exact .method (by rw [Place.ownerName, howner]; rfl) (hchildren _ _ _)
    | construct htype hmethod hown hopen =>
        exact (AreHoused.of_states hown).append (hchildren (place.enter node) _ _)
    | @withClass owner decl superclass own isRead next hinstance howner hown hopen hdecl hnext =>
        have hlocation : decl.location = some (place.locate node) := by
          rw [← hdecl]
          rfl
        have hkind : (node.kind.isType || node.kind.isInstance) = true := by
          rw [hinstance, Bool.or_true]
        have hopens (c : Node) (hread : opensClass node.kind c = true) : node.opens c = true := by
          rw [Node.opens, hinstance, hread]
          simp
        have hclass : AreHoused place.ownerName
            (.type decl :: (place.readBody node decl (opensClass node.kind) next).1) :=
          .type (fun m => surrounds_of_mem_readBody hnested hheads hkind hlocation hopens)
            (hchildren _ _ _)
        exact ((AreHoused.of_states hown).append (hchildren (place.enter node) _ _)).append hclass

theorem areHoused_surveyAll (place : Place) (isRead : Node → Bool) {start stop : Nat} :
    ∀ (before : Option Node) (nodes : List Node) (numbering : Numbering),
    Node.LaidOut start stop nodes → (∀ c ∈ nodes, c.HeadsTypes) →
    AreHoused place.ownerName (surveyAll place isRead before nodes numbering).1
  | _, [], _, _, _ => .nil
  | before, node :: rest, numbering, hlaid, hheads => by
    have hnode : AreHoused place.ownerName
        (if isRead node then survey place before node numbering else ([], numbering)).1 := by
      split
      · exact areHoused_survey place before node numbering hlaid.isNested_head
          (hheads node List.mem_cons_self)
      · exact .nil
    unfold surveyAll
    exact hnode.append (areHoused_surveyAll place isRead _ rest _ hlaid.tail
      fun c hc => hheads c (List.mem_cons_of_mem _ hc))

end

/-- The facts of a nested tree in which every declaration of a type starts in front of its body. -/
def FileFacts.IsLaidOut (file : FileFacts) : Prop :=
  ∃ source relativePath tree, tree.isNested = true ∧ tree.HeadsTypes ∧
    file = ofTree source relativePath tree

/-- The type of a method is declared by its file, around the method. -/
theorem FileFacts.IsLaidOut.exists_surrounds {file : FileFacts} (h : file.IsLaidOut)
    {m : MethodDecl} (hm : m ∈ file.methods) :
    ∃ decl ∈ file.types, decl.binaryName = m.owner ∧ decl.Surrounds m := by
  obtain ⟨source, relativePath, tree, hnested, hheads, rfl⟩ := h
  rcases areHoused_survey _ none tree ∅ hnested hheads m (method_mem_factsOf hm) with
    hnone | ⟨decl, hdecl, hhouse⟩
  · cases hnone
  · exact ⟨decl, mem_types_ofTree.mpr hdecl, hhouse⟩

/-! ## Creators -/

/-- The place of a method contains the place of another one and starts before it. -/
def Method.LiesAround (outer inner : Method) : Prop :=
  ∃ wide narrow, outer.location = some wide ∧ inner.location = some narrow ∧
    wide.contains narrow = true ∧ wide.start < narrow.start

namespace Method.LiesAround

theorem trans {a b c : Method} (hab : a.LiesAround b) (hbc : b.LiesAround c) :
    a.LiesAround c := by
  obtain ⟨wide, middle, ha, hb, hwide, hbefore⟩ := hab
  obtain ⟨same, narrow, hsame, hc, hnarrow, hafter⟩ := hbc
  rw [hb] at hsame
  cases hsame
  exact ⟨wide, narrow, ha, hc, Location.contains_trans hwide hnarrow, lt_trans hbefore hafter⟩

theorem irrefl (m : Method) : ¬ m.LiesAround m := by
  rintro ⟨wide, narrow, hwide, hnarrow, -, hbefore⟩
  rw [hwide] at hnarrow
  cases hnarrow
  exact lt_irrefl _ hbefore

end Method.LiesAround

namespace Snapshot

variable {files : List FileFacts} {scope : Scope}

/-- The type of a declared method, as the index has it, starts before the method. -/
theorem location_of_declares (hfiles : ∀ file ∈ files, file.IsLaidOut)
    (hnames : ((CodeIndex.typeEntries files).map (·.decl.binaryName)).Nodup) {m : Method}
    (hm : CodeIndex.Declares files m) :
    ∃ around inner, m.owner.location = some around ∧ m.location = some inner ∧
      around.contains inner = true ∧ around.start < inner.start := by
  obtain ⟨⟨n, entry⟩, hentry, rfl⟩ := hm
  obtain ⟨owner, howner, rfl⟩ := CodeIndex.mem_methodEntries hentry
  obtain ⟨hfile, hdecl⟩ := CodeIndex.file_of_mem_methodEntries hentry
  obtain ⟨type, htype, hname, hsurrounds⟩ := (hfiles _ hfile).exists_surrounds hdecl
  have howner : (CodeIndex.ofFiles files).type? entry.decl.owner = some owner := howner
  obtain ⟨hbinary, hsymbol⟩ := CodeIndex.symbol_of_type? howner
  -- No other declaration has the name of the type.
  have hsame : owner = ⟨CodeIndex.symbolOf type, type, entry.file⟩ :=
    List.inj_on_of_nodup_map hnames (CodeIndex.mem_typeEntries_of_type? howner)
      (CodeIndex.mem_typeEntries.mpr ⟨hfile, htype, rfl⟩) (hbinary.trans hname.symm)
  subst hsame
  exact hsurrounds

theorem liesAround_of_creatorOf (hfiles : ∀ file ∈ files, file.IsLaidOut)
    (hnames : ((CodeIndex.typeEntries files).map (·.decl.binaryName)).Nodup) {m creator : Method}
    (hm : CodeIndex.Declares files m)
    (hcreator : (ofFiles files scope).answers.creatorOf m = some creator) :
    CodeIndex.Declares files creator ∧ creator.LiesAround m := by
  obtain ⟨around, inner, howner, hinner, hcontains, hbefore⟩ :=
    location_of_declares hfiles hnames hm
  unfold Answers.creatorOf at hcreator
  split at hcreator
  next =>
    rw [howner, Option.bind_some] at hcreator
    obtain ⟨-, span, hspan, haround⟩ := of_narrowestAround hcreator
    have hdeclared := declares_of_enclosingMethod hcreator
    have hstart := (Location.contains_iff.mp haround).2.1
    exact ⟨hdeclared, span, inner, hspan, hinner, Location.contains_trans haround hcontains,
      lt_of_le_of_lt hstart hbefore⟩
  next => cases hcreator

/-- A method is created by none when its class has a name or stands in no method. -/
theorem of_creatorOf_eq_none (hfiles : ∀ file ∈ files, file.IsLaidOut)
    (hnames : ((CodeIndex.typeEntries files).map (·.decl.binaryName)).Nodup) {m : Method}
    (hm : CodeIndex.Declares files m)
    (hnone : (ofFiles files scope).answers.creatorOf m = none) :
    m.owner.qualifiedName.isSome = true ∨ ∃ around, m.owner.location = some around ∧
      (ofFiles files scope).enclosingMethod around = none := by
  obtain ⟨around, inner, howner, -⟩ := location_of_declares hfiles hnames hm
  unfold Answers.creatorOf at hnone
  split at hnone
  next =>
    rw [howner, Option.bind_some] at hnone
    exact .inr ⟨around, howner, hnone⟩
  next hnamed =>
    simp only [Bool.or_eq_true, not_or, Option.isNone_iff_eq_none] at hnamed
    exact .inl (Option.isSome_iff_ne_none.mpr hnamed.2)

/-- Among finitely many methods, going outwards ends. -/
theorem wellFounded_liesAround (methods : List Method) :
    WellFounded fun outer inner : {m // m ∈ methods} => outer.1.LiesAround inner.1 := by
  have hfinite : Finite {m // m ∈ methods} := (List.finite_toSet methods).to_subtype
  have htrans : IsTrans {m // m ∈ methods} fun outer inner => outer.1.LiesAround inner.1 :=
    ⟨fun _ _ _ => Method.LiesAround.trans⟩
  have hirrefl : Std.Irrefl fun outer inner : {m // m ∈ methods} =>
      outer.1.LiesAround inner.1 := ⟨fun m => Method.LiesAround.irrefl m.1⟩
  exact Finite.wellFounded_of_trans_of_irrefl _

/-- The second method creates the class of the first. -/
def IsCreatedBy (snapshot : Snapshot) (m creator : Method) : Prop :=
  snapshot.answers.creatorOf m = some creator

theorem liesAround_of_transGen (hfiles : ∀ file ∈ files, file.IsLaidOut)
    (hnames : ((CodeIndex.typeEntries files).map (·.decl.binaryName)).Nodup) {m outer : Method}
    (hm : CodeIndex.Declares files m)
    (hway : Relation.TransGen (ofFiles files scope).IsCreatedBy m outer) :
    CodeIndex.Declares files outer ∧ outer.LiesAround m := by
  induction hway with
  | single hstep => exact liesAround_of_creatorOf hfiles hnames hm hstep
  | tail _ hstep ih =>
      obtain ⟨hdeclared, haround⟩ := liesAround_of_creatorOf hfiles hnames ih.1 hstep
      exact ⟨hdeclared, haround.trans ih.2⟩

theorem exists_outermost (scope : Scope) (hfiles : ∀ file ∈ files, file.IsLaidOut)
    (hnames : ((CodeIndex.typeEntries files).map (·.decl.binaryName)).Nodup) {m : Method}
    (hm : CodeIndex.Declares files m) :
    ∃ last, Relation.ReflTransGen (ofFiles files scope).IsCreatedBy m last ∧
      CodeIndex.Declares files last ∧ (ofFiles files scope).answers.creatorOf last = none := by
  have hwell := wellFounded_liesAround
    ((CodeIndex.methodEntries (CodeIndex.typesOf files) files).map (·.1))
  have hlisted {n : Method} (hn : CodeIndex.Declares files n) :
      n ∈ (CodeIndex.methodEntries (CodeIndex.typesOf files) files).map (·.1) := List.mem_map.mpr hn
  obtain ⟨inner, hinner⟩ : ∃ inner : {n // n ∈ (CodeIndex.methodEntries
      (CodeIndex.typesOf files) files).map (·.1)}, inner.1 = m := ⟨⟨m, hlisted hm⟩, rfl⟩
  induction inner using hwell.induction generalizing m with
  | _ inner ih =>
      cases hcreator : (ofFiles files scope).answers.creatorOf m with
      | none => exact ⟨m, .refl, hm, hcreator⟩
      | some creator =>
          obtain ⟨hdeclared, haround⟩ := liesAround_of_creatorOf hfiles hnames hm hcreator
          obtain ⟨last, hway, hlast⟩ := ih ⟨creator, hlisted hdeclared⟩
            (by rw [hinner]; exact haround) hdeclared rfl
          exact ⟨last, .head hcreator hway, hlast⟩

/-- The lookup of a creator in a snapshot changes nothing and never fails. -/
theorem run_creatorOf {setting : Setting σ ρ} {snapshot : Snapshot}
    (hbase : setting.base = snapshot.knowledgeBase) (m : Method) (state : RunState σ ρ) :
    (setting.creatorOf m).run state = (.ok (snapshot.answers.creatorOf m), state) := by
  unfold Setting.creatorOf Answers.creatorOf
  rw [hbase]
  split
  · cases m.owner.location with
    | none => rfl
    | some place => rfl
  · rfl

/-- The creator of a method lies around the method in its file, and starts before it.  Going on
from creator to creator never comes back, and it ends at a method of a class with a qualified
name or of a class that stands in no method. -/
theorem creators_outward (hfiles : ∀ file ∈ files, file.IsLaidOut)
    (hnames : ((CodeIndex.typeEntries files).map (·.decl.binaryName)).Nodup)
    {setting : Setting σ ρ} (hbase : setting.base = (ofFiles files scope).knowledgeBase) :
    (∀ m (state : RunState σ ρ), (setting.creatorOf m).run state =
      (.ok ((ofFiles files scope).answers.creatorOf m), state)) ∧
    ∀ m, CodeIndex.Declares files m →
      (∀ creator, (ofFiles files scope).IsCreatedBy m creator →
        CodeIndex.Declares files creator ∧ creator.LiesAround m) ∧
      (∀ outer, Relation.TransGen (ofFiles files scope).IsCreatedBy m outer → outer ≠ m) ∧
      ∃ last, Relation.ReflTransGen (ofFiles files scope).IsCreatedBy m last ∧
        (∀ creator, ¬ (ofFiles files scope).IsCreatedBy last creator) ∧
        (last.owner.qualifiedName.isSome = true ∨ ∃ around, last.owner.location = some around ∧
          (ofFiles files scope).enclosingMethod around = none) := by
  refine ⟨run_creatorOf hbase, fun m hm => ⟨fun creator => ?_, fun outer hway hback => ?_, ?_⟩⟩
  · exact liesAround_of_creatorOf hfiles hnames hm
  · have haround := (liesAround_of_transGen hfiles hnames hm hway).2
    rw [hback] at haround
    exact Method.LiesAround.irrefl m haround
  · obtain ⟨last, hway, hdeclared, hnone⟩ := exists_outermost scope hfiles hnames hm
    refine ⟨last, hway, fun creator hcreator => ?_,
      of_creatorOf_eq_none hfiles hnames hdeclared hnone⟩
    rw [IsCreatedBy, hnone] at hcreator
    cases hcreator

end Snapshot

/-! ## A class in a method -/

namespace Nested

open CodeIndex

def namedDecl : TypeDecl where
  binaryName := "A"
  name := "A"
  qualifiedName := some "A"
  location := some ⟨"A.java", 1, 0, 44⟩

def namelessDecl : TypeDecl where
  binaryName := "A$1"
  name := ""
  isAnonymous := true
  outer := some "A"
  superclass := some "R"
  location := some ⟨"A.java", 1, 17, 41⟩

def creatorDecl : MethodDecl where
  id := "A#f@8"
  owner := "A"
  name := "f"
  returnType := some "void"
  location := some ⟨"A.java", 1, 8, 43⟩

/-- The location starts with the comment. -/
def innerDecl : MethodDecl where
  id := "A$1#g@30"
  owner := "A$1"
  name := "g"
  returnType := some "void"
  location := some ⟨"A.java", 1, 25, 40⟩

def source : FileFacts where
  file := "A.java"
  relativePath := "A.java"
  types := [namedDecl, namelessDecl]
  methods := [creatorDecl, innerDecl]
  invocations :=
    [⟨.creation, "R", some 0, some (.typed "R"), some "A", some "A#f@8", ⟨"A.java", 1, 17, 41⟩,
      some []⟩]
  docComments := [⟨"A.java", 1, 25, 30⟩]

def text : String := "class A\x7bvoid f()\x7bnew R()\x7b/***/void g()\x7b\x7d\x7d;\x7d\x7d"

set_option maxRecDepth 100000 in
theorem ofText_source : FileFacts.ofText "A.java" text none = source := by cbv

def scope : Scope := { testRoots := [] }

def named : TypeEntry := ⟨symbolOf namedDecl, namedDecl, source⟩

def nameless : TypeEntry := ⟨symbolOf namelessDecl, namelessDecl, source⟩

def creator : Method := methodOf named.symbol creatorDecl

def inner : Method := methodOf nameless.symbol innerDecl

theorem isLaidOut : ∀ file ∈ [source], file.IsLaidOut := by
  intro file hfile
  have hshape : (parse text).isNested = true ∧ (parse text).HeadsTypes := by decide +kernel
  rw [List.mem_singleton.mp hfile, ← ofText_source]
  exact ⟨_, _, parse text, hshape.1, hshape.2, rfl⟩

theorem methodEntries_eq : methodEntries (typesOf [source]) [source] =
    [(creator, ⟨creatorDecl, source⟩), (inner, ⟨innerDecl, source⟩)] := by
  have hnamed : (typesOf [source]).get? "A" = some named := type?_ofFiles [source] "A"
  have hnameless : (typesOf [source]).get? "A$1" = some nameless := type?_ofFiles [source] "A$1"
  change (creatorDecl :: [innerDecl]).filterMap _ ++ [] = _
  simp only [List.filterMap_cons, List.filterMap_nil, List.append_nil, creatorDecl, innerDecl,
    hnamed, hnameless, Option.map_some]
  rfl

theorem isCreatedBy : (Snapshot.ofFiles [source] scope).IsCreatedBy inner creator := by
  change narrowestAround ⟨"A.java", 1, 17, 41⟩ ((ofFiles [source]).methodsOfFile "A.java") =
    some creator
  rw [methodsOfFile_ofFiles, methodEntries_eq]
  rfl

end Nested

open Nested in
/-- The anonymous class in `f` declares `g`, whose location starts with a comment. -/
theorem creators_outward_nested :
    (∀ file ∈ [source], file.IsLaidOut) ∧
    ((CodeIndex.typeEntries [source]).map (·.decl.binaryName)).Nodup ∧
    CodeIndex.Declares [source] inner ∧
    (Snapshot.ofFiles [source] scope).IsCreatedBy inner creator ∧
    creator.LiesAround inner := by
  have hdeclared : CodeIndex.Declares [source] inner := by
    refine ⟨(inner, ⟨innerDecl, source⟩), ?_, rfl⟩
    rw [methodEntries_eq]
    exact List.mem_cons_of_mem _ List.mem_cons_self
  have hnames : ((CodeIndex.typeEntries [source]).map (·.decl.binaryName)).Nodup := by decide
  let setting : Setting Unit Unit :=
    ⟨(Snapshot.ofFiles [source] scope).knowledgeBase, scope, return (), []⟩
  have hbase : setting.base = (Snapshot.ofFiles [source] scope).knowledgeBase := rfl
  obtain ⟨-, houtward⟩ := Snapshot.creators_outward isLaidOut hnames hbase
  obtain ⟨hcreator, -⟩ := houtward inner hdeclared
  exact ⟨isLaidOut, hnames, hdeclared, isCreatedBy, (hcreator creator isCreatedBy).2⟩

end EntryPoints
