import EntryPoints.Facts.Survey
import EntryPoints.Proofs.ArgumentFits
import EntryPoints.Proofs.OverrideRoots
import Mathlib.Data.List.Basic

/-!
# The overload that Java picks

Java looks for an overload in three phases: first without boxing, then with it, and at last
with variable arity.  The first phase in which an overload is applicable decides, and in it
the most specific one is picked.  The index has no phases.  It adds up how well the
arguments fit and keeps the overloads with the best sum.

Among the overloads that are applicable in the phase that decides, the most specific one has
the best sum, since every argument fits it best.  So it is kept, unless an overload of another
phase has a better sum.  That happens: an exact fit behind a boxing conversion counts more
than two arguments that are widened.  A single argument cannot make up for itself, and then
the overload that Java picks is always kept, when none is of variable arity.
-/

namespace EntryPoints

/-! ## The best sum -/

namespace CodeIndex

variable {index : CodeIndex} {candidates : List Method} {arguments : List (Option String)}
  {view : Viewpoint}

theorem score_le_refl (score : Option Nat) : score ≤ score := by
  cases score with
  | none => exact Option.none_le
  | some n => exact Option.some_le_some.mpr (Nat.le_refl n)

theorem mem_filterMap_pair {α β : Type} {f : α → Option β} {xs : List α} {y : β} {x : α} :
    (y, x) ∈ xs.filterMap (fun x => (f x).map (·, x)) ↔ x ∈ xs ∧ f x = some y := by
  rw [List.mem_filterMap]
  constructor
  · rintro ⟨a, ha, hpair⟩
    obtain ⟨b, hb, hpair⟩ := Option.map_eq_some_iff.mp hpair
    cases hpair
    exact ⟨ha, hb⟩
  · rintro ⟨hx, hy⟩
    exact ⟨x, hx, Option.map_eq_some_iff.mpr ⟨y, hy, rfl⟩⟩

/-- The overloads that are left are those with the best sum, where a sum that some argument does
not allow is the worst. -/
theorem mem_selectOverloads_iff {m : Method} :
    m ∈ index.selectOverloads candidates arguments view ↔
      m ∈ candidates ∧ ∀ n ∈ candidates,
        index.argumentScore n arguments view ≤ index.argumentScore m arguments view := by
  unfold selectOverloads
  split
  next hfew =>
    refine ⟨fun hm => ⟨hm, fun n hn => ?_⟩, fun hm => hm.1⟩
    rcases hfew with hfew | rfl
    · have hlength : candidates.length = 1 := by
        have hpos := List.length_pos_of_mem hm
        omega
      obtain ⟨other, rfl⟩ := List.length_eq_one_iff.mp hlength
      rw [List.mem_singleton.mp hm, List.mem_singleton.mp hn]
      exact score_le_refl _
    · exact score_le_refl (some 0)
  next =>
    simp only
    split
    next hnone =>
      -- No overload has a sum.
      refine ⟨fun hm => ⟨hm, fun n hn => ?_⟩, fun hm => hm.1⟩
      rw [List.max?_eq_none_iff, List.map_eq_nil_iff, List.filterMap_eq_nil_iff] at hnone
      rw [Option.map_eq_none_iff.mp (hnone n hn)]
      exact Option.none_le
    next best hbest =>
      obtain ⟨hreached, hmost⟩ := List.max?_eq_some_iff.mp hbest
      constructor
      · intro hm
        obtain ⟨⟨score, n⟩, hscored, rfl⟩ := List.mem_map.mp hm
        obtain ⟨hscored, hscore⟩ := List.mem_filter.mp hscored
        obtain ⟨hcandidate, hn⟩ := mem_filterMap_pair.mp hscored
        refine ⟨hcandidate, fun other hother => ?_⟩
        rw [hn]
        cases ho : index.argumentScore other arguments view with
        | none => exact Option.none_le
        | some less =>
            have hless := hmost less
              (List.mem_map.mpr ⟨_, mem_filterMap_pair.mpr ⟨hother, ho⟩, rfl⟩)
            rw [← beq_iff_eq.mp hscore] at hless
            exact Option.some_le_some.mpr hless
      · rintro ⟨hcandidate, hmax⟩
        obtain ⟨⟨score, n⟩, hscored, rfl⟩ := List.mem_map.mp hreached
        obtain ⟨hn, hscore⟩ := mem_filterMap_pair.mp hscored
        have hge := hmax n hn
        rw [hscore] at hge
        cases hm : index.argumentScore m arguments view with
        | none =>
            rw [hm] at hge
            exact absurd hge Option.not_some_le_none
        | some own =>
            have hmember := (mem_filterMap_pair
              (f := (index.argumentScore · arguments view))).mpr ⟨hcandidate, hm⟩
            have hle := hmost own (List.mem_map.mpr ⟨_, hmember, rfl⟩)
            rw [hm, Option.some_le_some] at hge
            have hsame : own = score := Nat.le_antisymm hle hge
            exact List.mem_map.mpr
              ⟨(own, m), List.mem_filter.mpr ⟨hmember, beq_iff_eq.mpr hsame⟩, rfl⟩

end CodeIndex

/-! ## Java's rules -/

/-- The parameter that takes the argument at a position, where the last one is repeated when the
arity is variable. -/
def Method.formalText? (m : Method) (position : Nat) : Option String :=
  if m.isVarargs ∧ m.arity ≤ position + 1 then
    m.parameters.getLast?.map fun text => String.ofList (TypeText.withoutDots text.toList)
  else m.parameters[position]?

/-- Some overloads of a name, and the arguments with which one of them is called. -/
structure OverloadChoice where
  index : CodeIndex
  candidates : List Method
  arguments : List (Option String)
  view : Viewpoint

inductive Phase where
  | strict
  | loose
  | variableArity
deriving DecidableEq, Repr

/-- What can be passed in a phase. -/
def Phase.Accepts (index : CodeIndex) : Phase → JavaType → JavaType → Prop
  | .strict => JavaType.IsSubtype index
  | .loose | .variableArity => JavaType.Converts index

theorem Phase.Accepts.converts {index : CodeIndex} {phase : Phase} {a b : JavaType}
    (h : phase.Accepts index a b) : JavaType.Converts index a b := by
  cases phase with
  | strict => exact .subtype h
  | loose => exact h
  | variableArity => exact h

def Phase.earlier : Phase → List Phase
  | .strict => []
  | .loose => [.strict]
  | .variableArity => [.strict, .loose]

namespace OverloadChoice

variable (c : OverloadChoice)

def given? (position : Nat) : Option JavaType :=
  c.arguments[position]?.join.bind (c.index.javaType? · c.view)

def wanted? (m : Method) (position : Nat) : Option JavaType :=
  (m.formalText? position).bind (c.index.javaParameterType? m)

/-- The arguments can be passed to the overload.  Before the last phase, variable arity stands
for an array, and no argument here is one. -/
structure Applicable (phase : Phase) (m : Method) : Prop where
  arity : m.isVarargs = true ↔ phase = .variableArity
  accepts : ∀ position < c.arguments.length, ∃ a b, c.given? position = some a ∧
    c.wanted? m position = some b ∧ phase.Accepts c.index a b

/-- Every parameter has a subtype of the type that the other overload wants in its place, also
where the other one wants more of its elements than are given. -/
def MoreSpecific (m n : Method) : Prop :=
  ∀ position < max c.arguments.length n.arity, ∃ a b, c.wanted? m position = some a ∧
    c.wanted? n position = some b ∧ JavaType.IsSubtype c.index a b

/-- In the first phase with applicable overloads, `m` is the most specific one. -/
structure Picks (phase : Phase) (m : Method) : Prop where
  candidate : m ∈ c.candidates
  applicable : c.Applicable phase m
  mostSpecific : ∀ n ∈ c.candidates, c.Applicable phase n → c.MoreSpecific m n
  first : ∀ before ∈ phase.earlier, ∀ n ∈ c.candidates, ¬ c.Applicable before n

/-- All arguments and parameters have types of which the rules are stated, and all overloads
take as many arguments as there are. -/
structure IsKnown : Prop where
  arguments : ∀ position < c.arguments.length, (c.given? position).isSome
  counts : ∀ m ∈ c.candidates, m.acceptsCount (some c.arguments.length) = true
  parameters : ∀ m ∈ c.candidates, ∀ position < max c.arguments.length m.arity,
    (c.wanted? m position).isSome

def Involves (a : JavaType) : Prop :=
  (∃ position, c.given? position = some a) ∨
    ∃ m ∈ c.candidates, ∃ position, c.wanted? m position = some a

/-- The declared types that are involved have simple names of their own, and inherit from each
other in no circle. -/
structure TellsApart : Prop where
  plain : ∀ a, c.Involves a → a.IsPlain
  apart : ∀ a b, c.Involves a → c.Involves b → JavaType.ToldApart c.index a b

def score (m : Method) : Option Nat := c.index.argumentScore m c.arguments c.view

def selected : List Method := c.index.selectOverloads c.candidates c.arguments c.view

/-! ## Sums of fits -/

def fitAt (m : Method) (position : Nat) : Option Fit :=
  (c.given? position).bind fun a => (c.wanted? m position).bind (a.fit c.index)

end OverloadChoice

/-- An argument that is no array is one element of a variable arity. -/
theorem Method.parameterAt_eq {m : Method} {count position : Nat} {argument : String}
    (hcount : m.acceptsCount (some count) = true) (hposition : position < count)
    (hargument : TypeText.isArray argument = false) :
    m.parameterAt count position argument = m.formalText? position := by
  have hlength : m.parameters.length = m.arity := rfl
  unfold parameterAt formalText?
  simp only [hargument, Bool.false_eq_true, false_and, if_false]
  by_cases hrest : m.isVarargs = true ∧ m.arity ≤ position + 1
  · have hlast : m.arity - 1 ≤ position := by omega
    rw [if_pos hrest, Nat.min_eq_right hlast, List.getLast?_eq_getElem?, hlength]
    simp only [hrest.1, hlast, and_self, if_true]
  · have hbound : position ≤ m.arity - 1 ∧ ¬ (m.isVarargs = true ∧ m.arity - 1 ≤ position) := by
      cases hvarargs : m.isVarargs with
      | true =>
          have hbefore : ¬ m.arity ≤ position + 1 := fun h => hrest ⟨hvarargs, h⟩
          exact ⟨by omega, fun h => by omega⟩
      | false =>
          have hall : count = m.arity := by simpa [acceptsCount, hvarargs] using hcount
          exact ⟨by omega, fun h => by cases h.1⟩
    rw [if_neg hrest, Nat.min_eq_left hbound.1]
    simp only [hbound.2, if_false, Option.map_id']

namespace OverloadChoice

variable {c : OverloadChoice}

/-- The sum of some fits, if all are there. -/
def total (fits : List (Option Fit)) : Option Nat :=
  fits.foldr (fun fit total => do return (← fit).score + (← total)) (some 0)

theorem total_mono {xs : List Nat} {f g : Nat → Option Fit}
    (h : ∀ x ∈ xs, (f x).map Fit.score ≤ (g x).map Fit.score) :
    total (xs.map f) ≤ total (xs.map g) := by
  induction xs with
  | nil => exact CodeIndex.score_le_refl (some 0)
  | cons x xs ih =>
      obtain ⟨hx, hrest⟩ := List.forall_mem_cons.mp h
      have htotal := ih hrest
      change ((f x).bind fun fit => (total (xs.map f)).bind fun sum => some (fit.score + sum)) ≤
        (g x).bind fun fit => (total (xs.map g)).bind fun sum => some (fit.score + sum)
      cases hf : f x with
      | none => exact Option.none_le
      | some less =>
          cases hg : g x with
          | none =>
              rw [hf, hg] at hx
              exact absurd hx Option.not_some_le_none
          | some more =>
              rw [hf, hg, Option.map_some, Option.map_some, Option.some_le_some] at hx
              cases hfs : total (xs.map f) with
              | none => exact Option.none_le
              | some sum =>
                  cases hgs : total (xs.map g) with
                  | none =>
                      rw [hfs, hgs] at htotal
                      exact absurd htotal Option.not_some_le_none
                  | some larger =>
                      rw [hfs, hgs, Option.some_le_some] at htotal
                      exact Option.some_le_some.mpr (Nat.add_le_add hx htotal)

theorem fitAt_eq {m : Method} {position : Nat} {a b : JavaType}
    (ha : c.given? position = some a) (hb : c.wanted? m position = some b) :
    c.fitAt m position = a.fit c.index b := by
  unfold fitAt
  rw [ha, hb]
  rfl

/-- The index fits the arguments to the types that the parameters have for Java. -/
theorem argumentFit_eq_fitAt (hknown : c.IsKnown) (hapart : c.TellsApart) {m : Method}
    (hm : m ∈ c.candidates) {position : Nat} {argument : Option String}
    (hargument : c.arguments[position]? = some argument) :
    (argument.bind fun argument =>
        (m.parameterAt c.arguments.length position argument).map fun parameter =>
          c.index.argumentFit argument parameter m c.view) = some (c.fitAt m position) := by
  have hposition : position < c.arguments.length := (List.getElem?_eq_some_iff.mp hargument).1
  obtain ⟨a, ha⟩ := Option.isSome_iff_exists.mp (hknown.arguments position hposition)
  obtain ⟨b, hb⟩ := Option.isSome_iff_exists.mp
    (hknown.parameters m hm position (Nat.lt_of_lt_of_le hposition (Nat.le_max_left _ _)))
  rw [fitAt_eq ha hb]
  have haPlain := hapart.plain a (.inl ⟨position, ha⟩)
  have hbPlain := hapart.plain b (.inr ⟨m, hm, position, hb⟩)
  unfold given? at ha
  rw [hargument] at ha
  obtain ⟨text, rfl, htext⟩ := Option.bind_eq_some_iff.mp ha
  obtain ⟨parameter, hparameter, hb⟩ := Option.bind_eq_some_iff.mp hb
  have hformal := Method.parameterAt_eq (hknown.counts m hm) hposition
    (CodeIndex.means_of_javaType? htext).notArray
  rw [Option.bind_some, hformal, hparameter, Option.map_some,
    CodeIndex.argumentFit_eq htext hb haPlain hbPlain]

theorem score_eq (hknown : c.IsKnown) (hapart : c.TellsApart) {m : Method}
    (hm : m ∈ c.candidates) :
    c.score m = total ((List.range c.arguments.length).map (c.fitAt m)) := by
  have hpositions : List.range c.arguments.length = c.arguments.zipIdx.map Prod.snd := by
    rw [List.zipIdx_map_snd, List.range_eq_range']
  rw [hpositions, List.map_map, ← List.filterMap_eq_map]
  unfold score CodeIndex.argumentScore total
  congr 1
  apply List.filterMap_congr
  rintro ⟨argument, position⟩ hmem
  exact argumentFit_eq_fitAt hknown hapart hm (List.mem_zipIdx_iff_getElem?.mp hmem)

/-- An overload that every argument fits no worse has no worse sum. -/
theorem score_le (hknown : c.IsKnown) (hapart : c.TellsApart) {m n : Method}
    (hm : m ∈ c.candidates) (hn : n ∈ c.candidates)
    (hfits : ∀ position < c.arguments.length,
      (c.fitAt n position).map Fit.score ≤ (c.fitAt m position).map Fit.score) :
    c.score n ≤ c.score m := by
  rw [score_eq hknown hapart hm, score_eq hknown hapart hn]
  exact total_mono fun position hposition => hfits position (List.mem_range.mp hposition)

/-! ## The most specific overload -/

/-- In the phase that decides, no overload has a better sum than the one that is picked. -/
theorem Picks.score_le (hknown : c.IsKnown) (hapart : c.TellsApart) {phase : Phase}
    {m n : Method} (hpicks : c.Picks phase m) (hn : n ∈ c.candidates)
    (happlicable : c.Applicable phase n) : c.score n ≤ c.score m := by
  refine OverloadChoice.score_le hknown hapart hpicks.candidate hn fun position hposition => ?_
  obtain ⟨a, b, ha, hb, haccepts⟩ := hpicks.applicable.accepts position hposition
  obtain ⟨b', d, hb', hd, hsubtype⟩ := hpicks.mostSpecific n hn happlicable position
    (Nat.lt_of_lt_of_le hposition (Nat.le_max_left _ _))
  rw [hb, Option.some.injEq] at hb'
  subst hb'
  rw [fitAt_eq ha hb, fitAt_eq ha hd]
  have haInvolved : c.Involves a := .inl ⟨position, ha⟩
  exact JavaType.fit_mono
    (hapart.apart a b haInvolved (.inr ⟨m, hpicks.candidate, position, hb⟩))
    (hapart.apart a d haInvolved (.inr ⟨n, hn, position, hd⟩)) haccepts.converts hsubtype

theorem mem_selected_iff (hknown : c.IsKnown) (hapart : c.TellsApart) {phase : Phase}
    {m : Method} (hpicks : c.Picks phase m) :
    m ∈ c.selected ↔
      ∀ n ∈ c.candidates, ¬ c.Applicable phase n → c.score n ≤ c.score m := by
  unfold selected
  rw [CodeIndex.mem_selectOverloads_iff]
  constructor
  · rintro ⟨-, hbest⟩ n hn -
    exact hbest n hn
  · intro hothers
    refine ⟨hpicks.candidate, fun n hn => ?_⟩
    by_cases happlicable : c.Applicable phase n
    · exact hpicks.score_le hknown hapart hn happlicable
    · exact hothers n hn happlicable

/-- A single argument that cannot be passed fits no better than where it can. -/
theorem score_le_of_length_eq_one (hknown : c.IsKnown) (hapart : c.TellsApart) {phase : Phase}
    {m n : Method} (hpicks : c.Picks phase m) (hlength : c.arguments.length = 1)
    (hn : n ∈ c.candidates) (hfixed : m.isVarargs = false ∧ n.isVarargs = false)
    (h : ¬ c.Applicable phase n) : c.score n ≤ c.score m := by
  have hphase : phase ≠ .variableArity := by
    intro hphase
    have hvarargs := hpicks.applicable.arity.mpr hphase
    rw [hfixed.1] at hvarargs
    cases hvarargs
  refine score_le hknown hapart hpicks.candidate hn fun position hposition => ?_
  obtain ⟨a, b, ha, hb, haccepts⟩ := hpicks.applicable.accepts position hposition
  obtain ⟨d, hd⟩ := Option.isSome_iff_exists.mp (hknown.parameters n hn position
    (Nat.lt_of_lt_of_le hposition (Nat.le_max_left _ _)))
  have hrefuses : ¬ phase.Accepts c.index a d := by
    intro htakes
    refine h ⟨by simp [hfixed.2, hphase], fun other hother => ?_⟩
    have hsame : other = position := by omega
    exact ⟨a, d, hsame ▸ ha, hsame ▸ hd, htakes⟩
  have had := hapart.apart a d (.inl ⟨position, ha⟩) (.inr ⟨n, hn, position, hd⟩)
  rw [fitAt_eq ha hb, fitAt_eq ha hd]
  cases phase with
  | strict => exact JavaType.fit_le_of_not_isSubtype had haccepts hrefuses
  | loose => exact JavaType.fit_le_of_not_converts had haccepts hrefuses
  | variableArity => exact absurd rfl hphase

/-- The overload that Java picks is kept exactly when no overload that is not applicable in the
same phase has a better sum of fits.  So it is kept when all of them are applicable in that
phase, and for a single argument when none is of variable arity. -/
theorem picked_mem_selected_iff (hknown : c.IsKnown) (hapart : c.TellsApart) {phase : Phase}
    {m : Method} (hpicks : c.Picks phase m) :
    (m ∈ c.selected ↔
      ∀ n ∈ c.candidates, ¬ c.Applicable phase n → c.score n ≤ c.score m) ∧
    ((∀ n ∈ c.candidates, c.Applicable phase n) → m ∈ c.selected) ∧
    (c.arguments.length = 1 → (∀ n ∈ c.candidates, n.isVarargs = false) → m ∈ c.selected) := by
  have hiff := mem_selected_iff hknown hapart hpicks
  refine ⟨hiff, fun hall => ?_, fun hlength hfixed => ?_⟩
  · exact hiff.mpr fun n hn hnot => absurd (hall n hn) hnot
  · refine hiff.mpr fun n hn => ?_
    exact score_le_of_length_eq_one hknown hapart hpicks hlength hn
      ⟨hfixed m hpicks.candidate, hfixed n hn⟩

end OverloadChoice

/-! ## A box that fits exactly -/

namespace Boxed

open CodeIndex

def typeDecl : TypeDecl where
  binaryName := "A"
  name := "A"
  qualifiedName := some "A"
  location := some ⟨"A.java", 1, 0, 57⟩

def methodDecl (id : String) (parameters : List String) (location : Location) : MethodDecl where
  id
  owner := "A"
  name := "f"
  parameters
  returnType := some "void"
  location := some location

def wideDecl : MethodDecl := methodDecl "A#f@8" ["long", "Object"] ⟨"A.java", 1, 8, 33⟩

def boxedDecl : MethodDecl := methodDecl "A#f@33" ["Integer", "A"] ⟨"A.java", 1, 33, 56⟩

/-- One overload takes numbers and objects, the other one boxes and the class itself. -/
def source : FileFacts where
  file := "A.java"
  relativePath := "A.java"
  types := [typeDecl]
  methods := [wideDecl, boxedDecl]

set_option maxRecDepth 100000 in
theorem ofText_source : FileFacts.ofText "A.java"
    "class A\x7bvoid f(long n,Object o)\x7b\x7dvoid f(Integer n,A a)\x7b\x7d\x7d" none =
    source := by
  decide +kernel

def index : CodeIndex := ofFiles [source]

def owner : TypeEntry := ⟨symbolOf typeDecl, typeDecl, source⟩

def wide : Method := methodOf owner.symbol wideDecl

def boxed : Method := methodOf owner.symbol boxedDecl

theorem type?_eq : index.type? "A" = some owner := by
  rw [index, type?_ofFiles]
  rfl

theorem qualified?_eq : index.qualified? "A" = some owner ∧
    index.qualified? "Object" = none ∧ index.qualified? "Integer" = none := by
  simp only [index, qualified?_ofFiles]
  exact ⟨type?_eq, rfl, rfl⟩

theorem seenFrom_eq : index.seenFrom "Object" owner = none ∧
    index.seenFrom "Integer" owner = none := by
  have hnested : index.type? ("A" ++ "$" ++ "Object") = none ∧
      index.type? ("A" ++ "$" ++ "Integer") = none := by
    simp only [index, type?_ofFiles]
    exact ⟨rfl, rfl⟩
  unfold seenFrom
  rw [show owner.decl.binaryName = "A" from rfl, hnested.1, hnested.2]
  exact ⟨rfl, rfl⟩

theorem typeParameters_eq {k : String} {entry : TypeEntry} (hentry : index.type? k = some entry) :
    entry.decl.typeParameters = [] := by
  have hall : ∀ entry ∈ typeEntries [source], entry.decl.typeParameters = [] := by decide
  exact hall entry (mem_typeEntries_of_type? hentry)

theorem methodEntries_eq : methodEntries (typesOf [source]) [source] =
    [(wide, ⟨wideDecl, source⟩), (boxed, ⟨boxedDecl, source⟩)] := by
  have howner := type?_eq
  change (typesOf [source]).get? "A" = some owner at howner
  generalize typesOf [source] = types at howner ⊢
  unfold methodEntries
  rw [List.flatMap_cons, List.flatMap_nil, List.append_nil]
  unfold source
  simp only [List.filterMap_cons, wideDecl, boxedDecl, methodDecl, howner]
  rfl

theorem entryOf_eq : index.entryOf wide = some ⟨wideDecl, source⟩ ∧
    index.entryOf boxed = some ⟨boxedDecl, source⟩ := by
  have hget (m : Method) : index.entryOf m =
      ([(wide, ⟨wideDecl, source⟩), (boxed, ⟨boxedDecl, source⟩)].reverse.find? (·.1 == m)).map
        (·.2) := by
    change (Table.ofList (methodEntries (typesOf [source]) [source])).get? m = _
    rw [methodEntries_eq, Table.get?_ofList]
  rw [hget, hget]
  exact ⟨rfl, rfl⟩

theorem isTypeVariable_eq (text : String) : index.isTypeVariable text wide = false ∧
    index.isTypeVariable text boxed = false := by
  have haround : ((index.ownersFrom (some "A")).any fun owner =>
      declares (variableName text) owner.decl.typeParameters) = false := by
    rw [List.any_eq_false]
    intro around haround
    obtain ⟨k, hk⟩ := exists_type?_of_mem_outward haround
    rw [typeParameters_eq hk]
    simp [declares]
  unfold isTypeVariable
  rw [entryOf_eq.1, entryOf_eq.2]
  exact ⟨haround, haround⟩

/-- The names of the file, from wherever in the class they are written. -/
theorem javaType?_eq (view : Viewpoint) (hfile : view.file = source)
    (howner : view.owner = some "A")
    (hmethod : ∀ decl, view.method = some decl → decl.typeParameters = []) :
    index.javaType? "int" view = some (.primitive .int) ∧
    index.javaType? "long" view = some (.primitive .long) ∧
    index.javaType? "Integer" view = some (.box .int) ∧
    index.javaType? "Object" view = some .object ∧
    index.javaType? "A" view = some (.declared owner.symbol) := by
  have hparameter : ∀ name, index.typeParameter name view = none :=
    typeParameter_eq_none (fun _ _ => typeParameters_eq) hmethod
  have haround (text : String) (htext : index.seenFrom text owner = none) :
      ∀ around ∈ index.ownersFrom view.owner, index.seenFrom text around = none := by
    intro around haround
    rw [howner, index, ownersFrom_of_outermost type?_eq (by decide) rfl] at haround
    rw [List.mem_singleton.mp haround]
    exact htext
  have hseen : index.seenInFile "Object" view.file = none ∧
      index.seenInFile "Integer" view.file = none := by
    have himports : source.imports = [] ∧ source.package = "" ∧ source.wildcardImports = [] :=
      ⟨rfl, rfl, rfl⟩
    rw [hfile]
    unfold seenInFile
    simp [himports, qualified?_eq]
  have hobject : index.resolveType "Object" view =
      some (Library.externalType "java.lang.Object") :=
    resolveType_of_languageTypes (by decide) (by decide) hparameter qualified?_eq.2.1
      (haround _ seenFrom_eq.1) hseen.1 (by decide)
  have hinteger : index.resolveType "Integer" view =
      some (Library.externalType "java.lang.Integer") :=
    resolveType_of_languageTypes (by decide) (by decide) hparameter qualified?_eq.2.2
      (haround _ seenFrom_eq.2) hseen.2 (by decide)
  have hdeclared : index.resolveType "A" view = some owner.symbol :=
    resolveType_of_qualified? (by decide) hparameter qualified?_eq.1
  unfold javaType?
  rw [hobject, hinteger, hdeclared]
  exact ⟨rfl, rfl, rfl, rfl, rfl⟩

/-- A call of `f` in the class, with a number and an object of the class. -/
def choice (number : Primitive) : OverloadChoice where
  index := index
  candidates := [wide, boxed]
  arguments := [some number.text, some "A"]
  view := ⟨source, some "A", none⟩

theorem given?_eq {number : Primitive} (hnumber : number = .int ∨ number = .long) :
    (choice number).given? 0 = some (.primitive number) ∧
    (choice number).given? 1 = some (.declared owner.symbol) ∧
    ∀ position, (choice number).given? (position + 2) = none := by
  obtain ⟨hint, hlong, -, -, hdeclared⟩ :=
    javaType?_eq (choice number).view rfl rfl (fun _ h => by cases h)
  have harguments : (choice number).arguments[0]?.join = some number.text ∧
      (choice number).arguments[1]?.join = some "A" := ⟨rfl, rfl⟩
  have hindex : (choice number).index = index := rfl
  unfold OverloadChoice.given?
  rw [harguments.1, harguments.2, hindex, Option.bind_some, Option.bind_some]
  refine ⟨?_, hdeclared, fun _ => rfl⟩
  rcases hnumber with rfl | rfl
  · exact hint
  · exact hlong

theorem wanted?_eq (number : Primitive) :
    ((choice number).wanted? wide 0 = some (.primitive .long) ∧
      (choice number).wanted? wide 1 = some .object ∧
      ∀ position, (choice number).wanted? wide (position + 2) = none) ∧
    (choice number).wanted? boxed 0 = some (.box .int) ∧
      (choice number).wanted? boxed 1 = some (.declared owner.symbol) ∧
      ∀ position, (choice number).wanted? boxed (position + 2) = none := by
  have hwide := javaType?_eq ⟨source, some "A", some wideDecl⟩ rfl rfl
    (fun decl h => by cases h; rfl)
  have hboxed := javaType?_eq ⟨source, some "A", some boxedDecl⟩ rfl rfl
    (fun decl h => by cases h; rfl)
  have hparameter (text : String) :
      index.javaParameterType? wide text =
          index.javaType? text ⟨source, some "A", some wideDecl⟩ ∧
        index.javaParameterType? boxed text =
          index.javaType? text ⟨source, some "A", some boxedDecl⟩ := by
    have howner : wideDecl.owner = "A" ∧ boxedDecl.owner = "A" := ⟨rfl, rfl⟩
    unfold javaParameterType?
    rw [(isTypeVariable_eq text).1, (isTypeVariable_eq text).2, entryOf_eq.1, entryOf_eq.2]
    simp [howner]
  have hformal : wide.formalText? 0 = some "long" ∧ wide.formalText? 1 = some "Object" ∧
      boxed.formalText? 0 = some "Integer" ∧ boxed.formalText? 1 = some "A" := by decide
  have hnone (position : Nat) : wide.formalText? (position + 2) = none ∧
      boxed.formalText? (position + 2) = none := by
    have hfixed : wide.isVarargs = false ∧ boxed.isVarargs = false := by decide
    unfold Method.formalText?
    rw [hfixed.1, hfixed.2]
    exact ⟨rfl, rfl⟩
  unfold OverloadChoice.wanted?
  simp only [hformal, hnone, Option.bind_some, Option.bind_none, choice, hparameter]
  exact ⟨⟨hwide.2.1, hwide.2.2.2.1, fun _ => trivial⟩, hboxed.2.2.1, hboxed.2.2.2.2,
    fun _ => trivial⟩

section Calls

variable {number : Primitive} (hnumber : number = .int ∨ number = .long)

include hnumber

theorem isKnown : (choice number).IsKnown := by
  obtain ⟨hfirst, hsecond, -⟩ := given?_eq hnumber
  obtain ⟨⟨hwide, hobject, -⟩, hboxed, hdeclared, -⟩ := wanted?_eq number
  have htwo {p : Nat → Prop} (hzero : p 0) (hone : p 1) (position : Nat)
      (hposition : position < 2) : p position := by
    match position, hposition with
    | 0, _ => exact hzero
    | 1, _ => exact hone
  refine ⟨htwo (by simp [hfirst]) (by simp [hsecond]), ?_, ?_⟩
  · intro m hm
    rcases List.mem_pair.mp hm with rfl | rfl
    · rfl
    · rfl
  · intro m hm
    rcases List.mem_pair.mp hm with rfl | rfl
    · exact htwo (by simp [hwide]) (by simp [hobject])
    · exact htwo (by simp [hboxed]) (by simp [hdeclared])

theorem eq_owner_of_involves {t : TypeSymbol} (ht : (choice number).Involves (.declared t)) :
    t = owner.symbol := by
  obtain ⟨hfirst, hsecond, hnone⟩ := given?_eq hnumber
  obtain ⟨⟨hwide, hobject, hwideNone⟩, hboxed, hdeclared, hboxedNone⟩ := wanted?_eq number
  rcases ht with ⟨position, ht⟩ | ⟨m, hm, position, ht⟩
  · match position with
    | 0 => simp [hfirst] at ht
    | 1 => simpa [hsecond] using ht.symm
    | position + 2 => simp [hnone] at ht
  · rcases List.mem_pair.mp hm with rfl | rfl
    · match position with
      | 0 => simp [hwide] at ht
      | 1 => simp [hobject] at ht
      | position + 2 => simp [hwideNone] at ht
    · match position with
      | 0 => simp [hboxed] at ht
      | 1 => simpa [hdeclared] using ht.symm
      | position + 2 => simp [hboxedNone] at ht

theorem tellsApart : (choice number).TellsApart where
  plain a ha t h := by
    subst h
    rw [eq_owner_of_involves hnumber ha]
    decide
  apart a b ha hb := by
    have hsame (t u : TypeSymbol) (ht : a = .declared t) (hu : b = .declared u) : t = u := by
      subst ht hu
      rw [eq_owner_of_involves hnumber ha, eq_owner_of_involves hnumber hb]
    exact ⟨fun t u ht hu _ => hsame t u ht hu, fun t u ht hu _ _ => hsame t u ht hu⟩

/-- Java needs no boxing for the first overload, and for the second one it does. -/
theorem picks : (choice number).Picks .strict wide := by
  obtain ⟨hfirst, hsecond, -⟩ := given?_eq hnumber
  obtain ⟨⟨hwide, hobject, -⟩, hboxed, hdeclared, -⟩ := wanted?_eq number
  refine ⟨List.mem_cons_self, ⟨by decide, fun position hposition => ?_⟩, ?_, ?_⟩
  · match position, hposition with
    | 0, _ =>
        refine ⟨_, _, hfirst, hwide, ?_⟩
        rcases hnumber with rfl | rfl
        · exact .widening (by decide)
        · exact .refl _
    | 1, _ => exact ⟨_, _, hsecond, hobject, .object trivial⟩
  · intro n hn happlicable
    rcases List.mem_pair.mp hn with rfl | rfl
    · intro position hposition
      match position, hposition with
      | 0, _ => exact ⟨_, _, hwide, hwide, .refl _⟩
      | 1, _ => exact ⟨_, _, hobject, hobject, .refl _⟩
    · obtain ⟨a, b, ha, hb, haccepts⟩ := happlicable.accepts 0 Nat.zero_lt_two
      rw [hfirst, Option.some.injEq] at ha
      rw [hboxed, Option.some.injEq] at hb
      subst ha hb
      cases haccepts
  · intro before hbefore
    cases hbefore

theorem score_eq_total (m : Method) (hm : m ∈ [wide, boxed]) : (choice number).score m =
    OverloadChoice.total [(choice number).fitAt m 0, (choice number).fitAt m 1] :=
  OverloadChoice.score_eq (isKnown hnumber) (tellsApart hnumber) hm

end Calls

end Boxed

open Boxed in
/-- A `long` does not fit an `Integer`, so the overload that Java picks is left. -/
theorem picked_mem_selected_long :
    (choice .long).IsKnown ∧ (choice .long).TellsApart ∧ (choice .long).Picks .strict wide ∧
      wide ∈ (choice .long).selected := by
  have hnumber : Primitive.long = .int ∨ Primitive.long = .long := .inr rfl
  have hknown := isKnown hnumber
  have hapart := tellsApart hnumber
  have hpicks := picks hnumber
  refine ⟨hknown, hapart, hpicks,
    (OverloadChoice.picked_mem_selected_iff hknown hapart hpicks).1.mpr fun n hn _ => ?_⟩
  rcases List.mem_pair.mp hn with rfl | rfl
  · exact CodeIndex.score_le_refl _
  · have hnone : (choice .long).score boxed = none := by
      rw [score_eq_total hnumber boxed hn,
        OverloadChoice.fitAt_eq (given?_eq hnumber).1 (wanted?_eq .long).2.1]
      rfl
    rw [hnone]
    exact Option.none_le

open Boxed in
/-- Java passes an `int` without boxing it, but the box and the exact fit of the other argument
count more than the two conversions. -/
theorem picked_overload_dropped :
    (choice .int).index = CodeIndex.ofFiles [FileFacts.ofText "A.java"
      "class A\x7bvoid f(long n,Object o)\x7b\x7dvoid f(Integer n,A a)\x7b\x7d\x7d" none] ∧
    (choice .int).IsKnown ∧ (choice .int).TellsApart ∧ (choice .int).Picks .strict wide ∧
      wide ∉ (choice .int).selected := by
  have hnumber : Primitive.int = .int ∨ Primitive.int = .long := .inl rfl
  refine ⟨by rw [ofText_source]; rfl, isKnown hnumber, tellsApart hnumber, picks hnumber,
    fun hselected => ?_⟩
  obtain ⟨hfirst, hsecond, -⟩ := given?_eq hnumber
  obtain ⟨⟨hwide, hobject, -⟩, hboxed, hdeclared, -⟩ := wanted?_eq .int
  have hscores : (choice .int).score wide = some 2 ∧ (choice .int).score boxed = some 3 := by
    rw [score_eq_total hnumber wide (by simp), score_eq_total hnumber boxed (by simp),
      OverloadChoice.fitAt_eq hfirst hwide, OverloadChoice.fitAt_eq hsecond hobject,
      OverloadChoice.fitAt_eq hfirst hboxed, OverloadChoice.fitAt_eq hsecond hdeclared,
      JavaType.fit_self]
    exact ⟨rfl, rfl⟩
  have hbest := (CodeIndex.mem_selectOverloads_iff.mp hselected).2 boxed (by simp [choice])
  change (choice .int).score boxed ≤ (choice .int).score wide at hbest
  rw [hscores.1, hscores.2, Option.some_le_some] at hbest
  omega

end EntryPoints
