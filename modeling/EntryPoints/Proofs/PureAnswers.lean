import EntryPoints.Search

/-!
# Knowledge bases that keep to their answers

A knowledge base follows a record of answers when every lookup gives the
recorded answer, whatever state the knowledge base is in.  Its state may still
move, and it may still ask a search to stop.

What a search looks for in such a knowledge base is described here without
states, failures and caches: the callers of a method, its substitutes, and the
graph that the two span.  A step of this graph goes to the substitutes of a
method if it has any, and else to its callers.
-/

namespace EntryPoints

variable {σ α : Type}

/-- A lookup that succeeds with one answer in every state. -/
def Settles (question : Lookup σ α) (a : α) : Prop := ∀ s, (question s).1 = .ok a

structure Answers where
  callSites : Method → Scope → List CallSite
  overriddenRoots : Method → List Method
  functionalImplementations : TypeSymbol → Scope → List FunctionalExpression
  enclosingMethod : Location → Option Method
  isSubtypeOrSelf : TypeSymbol → TypeSymbol → Bool
  isInDocComment : Location → Bool
  productionScope : Scope
  methodsNamed : String → String → List Method

/-- Every lookup succeeds with the recorded answer in every state. -/
structure KnowledgeBase.Follows (base : KnowledgeBase σ) (answers : Answers) : Prop where
  callSites : ∀ m scope s,
    (base.callSites m scope s).1 = ⟨answers.callSites m scope, none⟩
  overriddenRoots : ∀ m, Settles (base.overriddenRoots m) (answers.overriddenRoots m)
  functionalImplementations : ∀ t scope s,
    (base.functionalImplementations t scope s).1 =
      ⟨answers.functionalImplementations t scope, none⟩
  enclosingMethod : ∀ place,
    Settles (base.enclosingMethod place) (answers.enclosingMethod place)
  isSubtypeOrSelf : ∀ sub sup,
    Settles (base.isSubtypeOrSelf sub sup) (answers.isSubtypeOrSelf sub sup)
  isInDocComment : ∀ place,
    Settles (base.isInDocComment place) (answers.isInDocComment place)
  productionScope : Settles base.productionScope answers.productionScope
  methodsNamed : ∀ owner name,
    Settles (base.methodsNamed owner name) (answers.methodsNamed owner name)

/-- The first method of every key, in the order of the list. -/
def firstOfKeys : List Method → List Method
  | [] => []
  | m :: ms => m :: (firstOfKeys ms).filter (·.key ≠ m.key)

theorem mem_keys_firstOfKeys (ms : List Method) (key : String) :
    key ∈ (firstOfKeys ms).map Method.key ↔ key ∈ ms.map Method.key := by
  induction ms with
  | nil => rfl
  | cons m ms ih =>
      rw [firstOfKeys, List.map_cons, List.map_cons, List.mem_cons, List.mem_cons, ← ih]
      by_cases hkey : key = m.key
      · simp [hkey]
      · simp only [hkey, false_or, List.mem_map, List.mem_filter, decide_eq_true_eq]
        constructor
        · rintro ⟨n, ⟨hn, -⟩, hnkey⟩
          exact ⟨n, hn, hnkey⟩
        · rintro ⟨n, hn, hnkey⟩
          exact ⟨n, ⟨hn, hnkey ▸ hkey⟩, hnkey⟩

namespace Answers

variable (answers : Answers) (names : List String)

/-! ## Relations between types -/

def comparable (a b : TypeSymbol) : Bool :=
  answers.isSubtypeOrSelf a b || answers.isSubtypeOrSelf b a

def related (expected receiver : TypeSymbol) : Bool :=
  answers.comparable expected receiver ||
    (receiver.isTypeParameter && receiver.bounds.any (answers.comparable expected))

mutual

def compatible (implementation : TypeSymbol) : TypeSymbol → Bool
  | ⟨qualifiedName, name, binaryName, kind, isAnonymous, isExternal, bounds, location⟩ =>
    if kind = .interfaceType ∨ kind = .annotationType then true
    else if kind = .typeParameter then
      bounds.isEmpty || anyCompatible implementation bounds
    else
      answers.isSubtypeOrSelf implementation
        ⟨qualifiedName, name, binaryName, kind, isAnonymous, isExternal, bounds, location⟩

def anyCompatible (implementation : TypeSymbol) : List TypeSymbol → Bool
  | [] => false
  | bound :: rest => compatible implementation bound || anyCompatible implementation rest

end

/-! ## Callers -/

/-- Whether a site counts among those of a method that `expected` declares, on behalf
of an implementation if one is given. -/
def accepts (expected : TypeSymbol) (implementation : Option TypeSymbol)
    (site : CallSite) : Bool :=
  !answers.isInDocComment site.location &&
    site.receiver.all fun receiver =>
      answers.related expected receiver &&
        implementation.all fun owner => answers.compatible owner receiver

def callerAt (expected : TypeSymbol) (implementation : Option TypeSymbol)
    (site : CallSite) : Option Method :=
  if answers.accepts expected implementation site then answers.enclosingMethod site.location
  else none

def directCallers (m : Method) (implementation : Option TypeSymbol) : List Method :=
  (answers.callSites m answers.productionScope).filterMap
    (answers.callerAt m.owner implementation)

/-- The callers at the sites of a method and of the roots that it overrides. -/
def callers (m : Method) : List Method :=
  firstOfKeys (answers.directCallers m none ++
    (answers.overriddenRoots m).flatMap fun root =>
      answers.directCallers root (some m.owner))

/-! ## Substitutes -/

def creatorOf (m : Method) : Option Method :=
  if m.owner.isAnonymous || m.owner.qualifiedName.isNone then
    m.owner.location.bind answers.enclosingMethod
  else none

def isFunctional (m : Method) : Bool :=
  m.isListedIn names || (answers.overriddenRoots m).any (Method.isListedIn names)

def expressionOwner (expression : FunctionalExpression) : Option Method :=
  if answers.isInDocComment expression.location then none
  else answers.enclosingMethod expression.location

def lambdaOwners (m : Method) : List Method :=
  firstOfKeys ((answers.functionalImplementations m.owner answers.productionScope).filterMap
    answers.expressionOwner)

/-- The methods that stand in for `m`; the creator of an anonymous object comes before
the owners of lambdas. -/
def substitutes (m : Method) : Option (List Method) :=
  match answers.creatorOf m with
  | some creator => some [creator]
  | none =>
    if answers.isFunctional names m && !(answers.lambdaOwners m).isEmpty then
      some (answers.lambdaOwners m)
    else none

/-! ## The graph of a search -/

def next (m : Method) : List Method := (answers.substitutes names m).getD (answers.callers m)

/-- A method that nothing stands in for, that nobody calls and that is not implemented
by lambdas. -/
def isTop (m : Method) : Bool :=
  (answers.substitutes names m).isNone && (answers.callers m).isEmpty &&
    !answers.isFunctional names m

/-- The methods that are `n` steps up from the start. -/
inductive Steps (start : Method) : Nat → Method → Prop
  | start : Steps start 0 start
  | step {n : Nat} {m above : Method} :
      Steps start n m → above ∈ answers.next names m → Steps start (n + 1) above

def Reaches (start m : Method) : Prop := ∃ n, answers.Steps names start n m

def ReachesWithin (limit : Int) (start m : Method) : Prop :=
  ∃ n : Nat, (n : Int) ≤ limit ∧ answers.Steps names start n m

/-- The methods of a set are told apart by their keys as far as a search can see: for
two methods of one key it finds the same substitutes and the same callers. -/
def ToldApart (known : Method → Prop) : Prop :=
  ∀ m n, known m → known n → m.key = n.key →
    answers.substitutes names m = answers.substitutes names n ∧
      answers.callers m = answers.callers n ∧
      answers.isFunctional names m = answers.isFunctional names n

variable {answers names}

/-- What a step leads to is the creator, the owner of a lambda or a caller. -/
theorem cases_of_mem_next {m above : Method} (habove : above ∈ answers.next names m) :
    answers.creatorOf m = some above ∨ above ∈ answers.lambdaOwners m ∨
      above ∈ answers.callers m := by
  unfold next substitutes at habove
  split at habove
  next creator hcreator =>
    rw [Option.getD_some, List.mem_singleton] at habove
    rw [habove]
    exact .inl hcreator
  next =>
    split at habove
    · exact .inr (.inl habove)
    · exact .inr (.inr habove)

theorem ToldApart.of_key_injective {known : Method → Prop}
    (hkeys : ∀ m n, known m → known n → m.key = n.key → m = n) :
    answers.ToldApart names known := by
  intro m n hm hn hkey
  rw [hkeys m n hm hn hkey]
  exact ⟨rfl, rfl, rfl⟩

theorem ToldApart.mono {known more : Method → Prop} (happart : answers.ToldApart names more)
    (hmore : ∀ m, known m → more m) : answers.ToldApart names known :=
  fun m n hm hn => happart m n (hmore m hm) (hmore n hn)

theorem ToldApart.next_eq {known : Method → Prop}
    (happart : answers.ToldApart names known) {m n : Method}
    (hm : known m) (hn : known n) (hkey : m.key = n.key) :
    answers.next names m = answers.next names n := by
  obtain ⟨hsubstitutes, hcallers, -⟩ := happart m n hm hn hkey
  rw [next, next, hsubstitutes, hcallers]

theorem ToldApart.isTop_eq {known : Method → Prop}
    (happart : answers.ToldApart names known) {m n : Method}
    (hm : known m) (hn : known n) (hkey : m.key = n.key) :
    answers.isTop names m = answers.isTop names n := by
  obtain ⟨hsubstitutes, hcallers, hfunctional⟩ := happart m n hm hn hkey
  rw [isTop, isTop, hsubstitutes, hcallers, hfunctional]

theorem reaches_start (start : Method) : answers.Reaches names start start := ⟨0, .start⟩

theorem Reaches.next {start m above : Method} (hm : answers.Reaches names start m)
    (habove : above ∈ answers.next names m) : answers.Reaches names start above := by
  obtain ⟨n, hsteps⟩ := hm
  exact ⟨n + 1, .step hsteps habove⟩

/-- A set that the start belongs to and no step leaves holds all that is reachable. -/
theorem Reaches.induction {start m : Method} (hm : answers.Reaches names start m)
    {known : Method → Prop} (hstart : known start)
    (hclosed : ∀ n, known n → ∀ above ∈ answers.next names n, known above) : known m := by
  obtain ⟨n, hsteps⟩ := hm
  induction hsteps with
  | start => exact hstart
  | step _ habove ih => exact hclosed _ ih _ habove

def knowledgeBase (answers : Answers) : KnowledgeBase σ where
  callSites m scope := pure ⟨answers.callSites m scope, none⟩
  overriddenRoots m := pure (answers.overriddenRoots m)
  functionalImplementations t scope :=
    pure ⟨answers.functionalImplementations t scope, none⟩
  enclosingMethod place := pure (answers.enclosingMethod place)
  isSubtypeOrSelf sub sup := pure (answers.isSubtypeOrSelf sub sup)
  isInDocComment place := pure (answers.isInDocComment place)
  productionScope := pure answers.productionScope
  methodsNamed owner name := pure (answers.methodsNamed owner name)
  cancellationRequested := pure false

theorem follows_knowledgeBase : (answers.knowledgeBase : KnowledgeBase σ).Follows answers where
  callSites _ _ _ := rfl
  overriddenRoots _ _ := rfl
  functionalImplementations _ _ _ := rfl
  enclosingMethod _ _ := rfl
  isSubtypeOrSelf _ _ _ := rfl
  isInDocComment _ _ := rfl
  productionScope _ := rfl
  methodsNamed _ _ _ := rfl

end Answers

end EntryPoints
