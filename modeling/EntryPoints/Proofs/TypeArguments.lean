import EntryPoints.Proofs.EndingWalks
import EntryPoints.Proofs.SharedNames
import EntryPoints.Proofs.SpecTexts

/-!
# Type arguments in type texts

Java allows type arguments behind every segment of a type name, and array brackets or the dots
of variable arity behind them.  Arguments do not change which type is meant: without them, the
text reads the same.

The readings of a type text stop at the first angle bracket.  What they read is the raw text as
far as nothing stands behind the first type arguments.  An inner type of a parameterised one is
taken for the outer one, and an array of a parameterised type for its element.
-/

namespace EntryPoints

namespace TypeText

/-! ## Angle brackets -/

/-- A text in which every angle bracket has its partner. -/
inductive Balanced : List Char → Prop
  | nil : Balanced []
  | char {c : Char} {rest : List Char} (hopen : c ≠ '<') (hclose : c ≠ '>')
      (hrest : Balanced rest) : Balanced (c :: rest)
  | group {inner rest : List Char} (hinner : Balanced inner) (hrest : Balanced rest) :
      Balanced ('<' :: (inner ++ '>' :: rest))

/-- The part of a text that is not in angle brackets, when so many are open before it. -/
def outside : Nat → List Char → List Char
  | _, [] => []
  | depth, c :: rest =>
    if c = '<' then outside (depth + 1) rest
    else
      match depth with
      | 0 => c :: outside 0 rest
      | depth + 1 => if c = '>' then outside depth rest else outside (depth + 1) rest

/-- A type text without its type arguments. -/
def raw (text : String) : String := String.ofList (outside 0 text.toList)

theorem outside_append_of_not_mem {s : List Char} (hs : '<' ∉ s) (rest : List Char) :
    outside 0 (s ++ rest) = s ++ outside 0 rest := by
  induction s with
  | nil => rfl
  | cons c s ih =>
      rw [List.mem_cons, not_or] at hs
      rw [List.cons_append, outside, if_neg (Ne.symm hs.1)]
      exact congrArg _ (ih hs.2)

theorem Balanced.outside_append {inner : List Char} (h : Balanced inner) (depth : Nat)
    (rest : List Char) : outside (depth + 1) (inner ++ rest) = outside (depth + 1) rest := by
  induction h generalizing depth rest with
  | nil => rfl
  | char hopen hclose _ ih =>
      rw [List.cons_append, outside, if_neg hopen]
      simp only [if_neg hclose]
      exact ih depth rest
  | @group group others _ _ ihInner ihRest =>
      rw [List.cons_append, outside, if_pos rfl, List.append_assoc, ihInner, List.cons_append,
        outside, if_neg (by decide)]
      simp only [if_true]
      exact ihRest depth rest

/-! ## Java types -/

def isNamePart (c : Char) : Bool :=
  !Text.isBlank c && !(['<', '>', '.', '[', ']'].contains c)

/-- A name with the type arguments behind it, if there are any. -/
structure Segment where
  name : List Char
  arguments : Option (List Char) := none
  nonempty : name ≠ []
  isName : ∀ c ∈ name, isNamePart c = true
  balanced : ∀ inner, arguments = some inner → Balanced inner

def Segment.text (s : Segment) : List Char :=
  match s.arguments with
  | none => s.name
  | some inner => s.name ++ '<' :: (inner ++ ['>'])

/-- A type as Java writes it. -/
structure JavaType where
  first : Segment
  inner : List Segment := []
  dimensions : Nat := 0
  isVarargs : Bool := false

namespace JavaType

def suffix (t : JavaType) : List Char :=
  brackets t.dimensions ++ if t.isVarargs then ['.', '.', '.'] else []

def text (t : JavaType) : List Char :=
  t.first.text ++ (t.inner.flatMap fun s => '.' :: s.text) ++ t.suffix

/-- The text without the type arguments. -/
def plain (t : JavaType) : List Char :=
  t.first.name ++ (t.inner.flatMap fun s => '.' :: s.name) ++ t.suffix

end JavaType

/-- What follows the first segment with type arguments, up to the end of a type. -/
def behindArguments (suffix : List Char) : List Segment → List Char
  | [] => []
  | s :: rest =>
    if s.arguments.isSome then (rest.flatMap fun s => '.' :: s.name) ++ suffix
    else behindArguments suffix rest

/-- What stands in the raw text behind the place of the first type arguments. -/
def JavaType.behind (t : JavaType) : List Char := behindArguments t.suffix (t.first :: t.inner)

/-! ## Dotted names -/

/-- Names with dots between them. -/
structure IsDotted (s : List Char) : Prop where
  all : ∀ c ∈ s, isNamePart c = true ∨ c = '.'
  head : ∃ c rest, s = c :: rest ∧ isNamePart c = true
  last : ∃ front c, s = front ++ [c] ∧ isNamePart c = true

theorem Segment.isDotted (s : Segment) : IsDotted s.name where
  all c hc := .inl (s.isName c hc)
  head := by
    obtain ⟨c, rest, h⟩ := List.exists_cons_of_ne_nil s.nonempty
    exact ⟨c, rest, h, s.isName c (h ▸ List.mem_cons_self)⟩
  last := by
    have h := (List.dropLast_concat_getLast s.nonempty).symm
    exact ⟨_, _, h, s.isName _ (List.getLast_mem s.nonempty)⟩

theorem IsDotted.append {s : List Char} (h : IsDotted s) (segment : Segment) :
    IsDotted (s ++ '.' :: segment.name) where
  all c hc := by
    rcases List.mem_append.mp hc with hc | hc
    · exact h.all c hc
    · rcases List.mem_cons.mp hc with rfl | hc
      · exact .inr rfl
      · exact .inl (segment.isName c hc)
  head := by
    obtain ⟨c, rest, rfl, hc⟩ := h.head
    exact ⟨c, _, rfl, hc⟩
  last := by
    obtain ⟨front, c, hname, hc⟩ := segment.isDotted.last
    exact ⟨s ++ '.' :: front, c, by simp [hname], hc⟩

theorem IsDotted.flatMap {s : List Char} (h : IsDotted s) (segments : List Segment) :
    IsDotted (s ++ segments.flatMap fun s => '.' :: s.name) := by
  induction segments generalizing s with
  | nil => simpa using h
  | cons segment rest ih =>
      have hmore := ih (h.append segment)
      rwa [List.append_assoc] at hmore

theorem IsDotted.not_mem {s : List Char} (h : IsDotted s) {c : Char}
    (hc : isNamePart c = false) (hdot : c ≠ '.') : c ∉ s := by
  intro hmem
  rcases h.all c hmem with hpart | heq
  · rw [hc] at hpart
    cases hpart
  · exact hdot heq

/-! ## What the readings stop at -/

theorem beforeFirst_append_of_not_mem {s : List Char} (hs : '<' ∉ s) (rest : List Char) :
    Text.beforeFirst '<' (s ++ rest) = s ++ Text.beforeFirst '<' rest := by
  unfold Text.beforeFirst
  rw [List.takeWhile_append_of_pos]
  intro c hc
  rw [decide_eq_true_eq]
  rintro rfl
  exact hs hc

theorem beforeFirst_of_not_mem {s : List Char} (hs : '<' ∉ s) : Text.beforeFirst '<' s = s := by
  simpa [Text.beforeFirst] using beforeFirst_append_of_not_mem hs []

theorem beforeFirst_arguments {s : List Char} (hs : '<' ∉ s) (rest : List Char) :
    Text.beforeFirst '<' (s ++ '<' :: rest) = s := by
  simpa [Text.beforeFirst] using beforeFirst_append_of_not_mem hs ('<' :: rest)

theorem Segment.not_mem_name (s : Segment) : '<' ∉ s.name :=
  s.isDotted.not_mem (by decide) (by decide)

theorem Segment.outside_text (s : Segment) (rest : List Char) :
    outside 0 (s.text ++ rest) = s.name ++ outside 0 rest := by
  unfold Segment.text
  split
  · exact outside_append_of_not_mem s.not_mem_name rest
  next inner harguments =>
    rw [List.append_assoc, outside_append_of_not_mem s.not_mem_name]
    simp only [List.cons_append, List.append_assoc, outside, if_true,
      (s.balanced inner harguments).outside_append]
    simp

namespace JavaType

variable (t : JavaType)

theorem mem_suffix {c : Char} (hc : c ∈ t.suffix) : c ∈ ['[', ']', '.'] := by
  rcases List.mem_append.mp hc with hc | hc
  · obtain ⟨pair, hpair, hc⟩ := List.mem_flatten.mp hc
    rw [List.eq_of_mem_replicate hpair] at hc
    exact List.mem_append_left ['.'] hc
  · split at hc
    · exact List.mem_append_right ['[', ']'] (by simpa using hc)
    · cases hc

theorem not_mem_suffix : '<' ∉ t.suffix := fun hmem => absurd (t.mem_suffix hmem) (by decide)

/-- Without its type arguments, a type is written as its names and its suffix. -/
theorem outside_text : outside 0 t.text = t.plain := by
  have hinner (segments : List Segment) :
      outside 0 ((segments.flatMap fun s => '.' :: s.text) ++ t.suffix) =
        (segments.flatMap fun s => '.' :: s.name) ++ t.suffix := by
    induction segments with
    | nil => simpa [outside] using outside_append_of_not_mem t.not_mem_suffix []
    | cons s rest ih =>
        simp only [List.flatMap_cons, List.cons_append, List.append_assoc]
        rw [outside, if_neg (by decide), s.outside_text, ih]
  unfold text plain
  rw [List.append_assoc, t.first.outside_text, hinner, List.append_assoc]

end JavaType

/-- A dotted name and what follows it are cut at the first type arguments. -/
theorem cut_text {suffix : List Char} (hsuffix : '<' ∉ suffix) (segments : List Segment)
    {s : List Char} (hs : IsDotted s) :
    Text.beforeFirst '<' (s ++ (segments.flatMap fun s => '.' :: s.text) ++ suffix) ++
        behindArguments suffix segments =
      s ++ (segments.flatMap fun s => '.' :: s.name) ++ suffix ∧
    (behindArguments suffix segments ≠ [] → IsDotted
      (Text.beforeFirst '<' (s ++ (segments.flatMap fun s => '.' :: s.text) ++ suffix))) := by
  induction segments generalizing s with
  | nil =>
      have hplain : '<' ∉ s ++ suffix := by
        rw [List.mem_append, not_or]
        exact ⟨hs.not_mem (by decide) (by decide), hsuffix⟩
      refine ⟨?_, fun h => absurd rfl h⟩
      simp [behindArguments, beforeFirst_of_not_mem hplain]
  | cons segment rest ih =>
      have hmore := hs.append segment
      simp only [List.flatMap_cons, List.append_assoc, List.cons_append]
      cases harguments : segment.arguments with
      | none =>
          have hnext := ih hmore
          simp only [List.append_assoc, List.cons_append] at hnext
          simp only [behindArguments, Segment.text, harguments, Option.isSome_none,
            Bool.false_eq_true, if_false]
          exact hnext
      | some inner =>
          have hcut (behind : List Char) :
              Text.beforeFirst '<' (s ++ '.' :: (segment.name ++ '<' :: behind)) =
                s ++ '.' :: segment.name := by
            simpa using beforeFirst_arguments (hmore.not_mem (by decide) (by decide)) behind
          simp only [behindArguments, Segment.text, harguments, Option.isSome_some, if_true,
            List.append_assoc, List.cons_append, hcut]
          exact ⟨trivial, fun _ => hmore⟩

namespace JavaType

variable (t : JavaType)

/-- The readings stop at a dotted name, if anything stands behind the first type arguments. -/
theorem cut : Text.beforeFirst '<' t.text ++ t.behind = t.plain ∧
    (t.behind ≠ [] → IsDotted (Text.beforeFirst '<' t.text)) := by
  unfold text plain behind
  cases harguments : t.first.arguments with
  | none =>
      have h := cut_text t.not_mem_suffix t.inner t.first.isDotted
      simp only [behindArguments, Segment.text, harguments, Option.isSome_none,
        Bool.false_eq_true, if_false]
      exact h
  | some inner =>
      simp only [behindArguments, Segment.text, harguments, Option.isSome_some, if_true,
        List.append_assoc, List.cons_append, beforeFirst_arguments t.first.not_mem_name]
      exact ⟨trivial, fun _ => t.first.isDotted⟩

end JavaType

/-! ## Erasure -/

theorem isBlank_eq_false {c : Char} (hc : isNamePart c = true) : Text.isBlank c = false := by
  simp only [isNamePart, Bool.and_eq_true, Bool.not_eq_true'] at hc
  exact hc.1

theorem IsDotted.isBlank {s : List Char} (h : IsDotted s) : ∀ c ∈ s, Text.isBlank c = false := by
  intro c hc
  rcases h.all c hc with hpart | rfl
  · exact isBlank_eq_false hpart
  · decide

theorem JavaType.isBlank_plain (t : JavaType) : ∀ c ∈ t.plain, Text.isBlank c = false := by
  intro c hc
  rcases List.mem_append.mp hc with hc | hc
  · exact (t.first.isDotted.flatMap t.inner).isBlank c hc
  · have hall : (['[', ']', '.'].all fun c => !Text.isBlank c) = true := by decide
    simpa using List.all_eq_true.mp hall c (t.mem_suffix hc)

/-- A text without blanks in front of its type arguments is not trimmed. -/
theorem baseOf_eq {text : List Char}
    (hblank : ∀ c ∈ Text.beforeFirst '<' text, Text.isBlank c = false) :
    baseOf text = Text.beforeFirst '<' text :=
  Text.trim_eq_self (fun c hc => hblank c (List.mem_of_mem_head? hc))
    fun c hc => hblank c (List.mem_of_getLast? hc)

theorem filter_eq_self {text : List Char} (hblank : ∀ c ∈ text, Text.isBlank c = false) :
    text.filter (· ≠ ' ') = text := by
  rw [List.filter_eq_self]
  intro c hc
  rw [decide_eq_true_eq]
  rintro rfl
  exact absurd (hblank ' ' hc) (by decide)

theorem dropBrackets_of_ne {c : Char} (hc : c ≠ ']') (rest : List Char) :
    dropBrackets (c :: rest) = (c :: rest, 0) := by
  unfold dropBrackets
  split
  next heq =>
    cases heq
    exact absurd rfl hc
  next => rfl

theorem dropBrackets_brackets (n : Nat) (rest : List Char) :
    dropBrackets ((brackets n).reverse ++ rest) =
      ((dropBrackets rest).1, (dropBrackets rest).2 + n) := by
  induction n with
  | zero => rfl
  | succ n ih =>
      rw [brackets_succ, List.reverse_append]
      change dropBrackets (']' :: '[' :: ((brackets n).reverse ++ rest)) = _
      rw [dropBrackets, ih]
      rfl

theorem IsDotted.dropBrackets_reverse {s : List Char} (h : IsDotted s) (n : Nat) :
    dropBrackets ((s ++ brackets n).reverse) = (s.reverse, n) := by
  obtain ⟨front, c, rfl, hc⟩ := h.last
  have hbracket : c ≠ ']' := by
    rintro rfl
    exact absurd hc (by decide)
  rw [List.reverse_append, dropBrackets_brackets, List.reverse_append, List.reverse_singleton,
    List.singleton_append, dropBrackets_of_ne hbracket, Nat.zero_add]

/-- A dotted name is erased to its last segment, with the dimensions behind it. -/
theorem IsDotted.eraseChars_eq {s text : List Char} (h : IsDotted s) {n : Nat}
    (htext : (baseOf text).filter (· ≠ ' ') = s ++ brackets n) :
    eraseChars text = Text.afterLast '.' s ++ brackets n := by
  have hdots : ∀ rest, s.reverse ≠ '.' :: rest := by
    obtain ⟨front, c, rfl, hc⟩ := h.last
    intro rest heq
    rw [List.reverse_append] at heq
    cases heq
    exact absurd hc (by decide)
  unfold eraseChars
  rw [htext]
  simp only [h.dropBrackets_reverse]
  split
  next rest heq => exact absurd heq (hdots _)
  next => rw [List.reverse_reverse]

theorem not_mem_afterLast {c sep : Char} {s : List Char} (hc : c ∉ s) :
    c ∉ Text.afterLast sep s := by
  unfold Text.afterLast
  rw [List.mem_reverse]
  exact fun hmem => hc (List.mem_reverse.mp ((List.takeWhile_sublist _).subset hmem))

theorem not_mem_eraseChars {text : List Char} (h : IsDotted (Text.beforeFirst '<' text)) :
    '[' ∉ eraseChars text := by
  have hcompact : (baseOf text).filter (· ≠ ' ') = Text.beforeFirst '<' text ++ brackets 0 := by
    rw [baseOf_eq h.isBlank, filter_eq_self h.isBlank]
    exact (List.append_nil _).symm
  rw [h.eraseChars_eq hcompact]
  simpa [brackets] using not_mem_afterLast (h.not_mem (by decide) (by decide))

/-- An array or a parameter of variable arity keeps its dimensions. -/
theorem JavaType.mem_eraseChars_plain {t : JavaType} (h : t.suffix ≠ []) :
    '[' ∈ eraseChars t.plain := by
  have hbody := t.first.isDotted.flatMap t.inner
  have hangle : Text.beforeFirst '<' t.plain = t.plain := by
    apply beforeFirst_of_not_mem
    unfold plain
    rw [List.mem_append, not_or]
    exact ⟨hbody.not_mem (by decide) (by decide), t.not_mem_suffix⟩
  have hcompact : (baseOf t.plain).filter (· ≠ ' ') = t.plain := by
    rw [baseOf_eq (by rw [hangle]; exact t.isBlank_plain), hangle, filter_eq_self t.isBlank_plain]
  cases hvarargs : t.isVarargs with
  | true =>
      unfold eraseChars
      rw [hcompact]
      unfold plain suffix
      simp only [hvarargs, if_true, List.reverse_append, List.reverse_cons, List.reverse_nil,
        List.nil_append, List.cons_append, dropBrackets_of_ne (show '.' ≠ ']' by decide)]
      simp [brackets]
  | false =>
      obtain ⟨n, hn⟩ : ∃ n, t.dimensions = n + 1 := by
        refine Nat.exists_eq_succ_of_ne_zero fun hzero => h ?_
        simp [suffix, hvarargs, hzero, brackets]
      have hplain : t.plain = t.first.name ++ (t.inner.flatMap fun s => '.' :: s.name) ++
          brackets (n + 1) := by
        simp [plain, suffix, hvarargs, hn]
      rw [hbody.eraseChars_eq (hcompact.trans hplain), brackets_succ]
      simp

/-! ## Resolution -/

theorem head_behindArguments (segments : List Segment) :
    behindArguments [] segments = [] ∨ ∃ rest, behindArguments [] segments = '.' :: rest := by
  induction segments with
  | nil => exact .inl rfl
  | cons s rest ih =>
      rw [behindArguments]
      split
      · cases rest with
        | nil => exact .inl rfl
        | cons segment rest => exact .inr ⟨_, rfl⟩
      · exact ih

/-- The parts of a dotted name around its first dot. -/
theorem IsDotted.cutFirst {s : List Char} (h : IsDotted s) :
    s = (Text.cutFirst '.' s).1 ∧ (Text.cutFirst '.' s).2 = [] ∨
      s = (Text.cutFirst '.' s).1 ++ '.' :: (Text.cutFirst '.' s).2 ∧
        (Text.cutFirst '.' s).2 ≠ [] := by
  have hwhole := List.takeWhile_append_dropWhile (p := fun c => decide (c ≠ '.')) (l := s)
  unfold Text.cutFirst
  cases hrest : s.dropWhile fun c => decide (c ≠ '.') with
  | nil =>
      rw [hrest, List.append_nil] at hwhole
      exact .inl ⟨hwhole.symm, rfl⟩
  | cons dot rest =>
      have hdot : dot = '.' := by
        have hnot := List.head?_dropWhile_not (fun c => decide (c ≠ '.')) s
        rw [hrest] at hnot
        simpa using hnot
      subst hdot
      rw [hrest] at hwhole
      refine .inr ⟨hwhole.symm, fun hnil => ?_⟩
      -- A dotted name does not end in a dot.
      obtain ⟨front, c, hlast, hc⟩ := h.last
      have hnone : rest = [] := hnil
      rw [hnone, hlast] at hwhole
      cases (List.append_inj' hwhole rfl).2
      exact absurd hc (by decide)

theorem cutFirst_append_dot (s rest : List Char) :
    (Text.cutFirst '.' (s ++ '.' :: rest)).1 = (Text.cutFirst '.' s).1 := by
  unfold Text.cutFirst
  induction s with
  | nil => simp
  | cons c s ih =>
      by_cases hc : c = '.'
      · simp [hc]
      · simpa [hc] using ih

end TypeText

namespace CodeIndex

open TypeText

/-- A place outside of all types in a file that says nothing. -/
def nowhere : Viewpoint := ⟨{ file := "", relativePath := "" }, none, none⟩

theorem type?_nil (k : String) : (ofFiles []).type? k = none := by
  rw [type?_ofFiles]
  rfl

theorem qualified?_nil (name : String) : (ofFiles []).qualified? name = none := by
  rw [qualified?_ofFiles]
  rfl

theorem resolveSimple_nowhere (name : String) :
    (ofFiles []).resolveSimple name nowhere =
      if Library.languageTypes.contains name then some (Library.externalType ("java.lang." ++ name))
      else none := by
  have honly : (ofFiles []).onlyNamed name = none := by
    unfold onlyNamed
    rw [simple_ofFiles]
    rfl
  unfold resolveSimple
  rw [show nowhere.owner = none from rfl, ownersFrom_none, honly]
  unfold seenInFile
  simp [nowhere, qualified?_nil]

/-- Where nothing is declared, a dotted name means a type of the library. -/
theorem resolveName_nowhere {s : List Char} (hs : IsDotted s) :
    (ofFiles []).resolveName (String.ofList s) nowhere = Library.externalType
      ((if Library.languageTypes.contains (String.ofList (Text.cutFirst '.' s).1) then "java.lang."
        else "") ++ String.ofList s) := by
  unfold resolveName
  rw [qualified?_nil]
  simp only [String.toList_ofList, resolveSimple_nowhere]
  split
  next hlanguage =>
    simp only [Option.bind_some]
    unfold resolveNested
    rcases hs.cutFirst with ⟨hhead, hrest⟩ | ⟨hjoin, hrest⟩
    · rw [hrest, if_pos rfl, ← hhead]
      rfl
    · rw [if_neg (by simpa using hrest)]
      simp only [type?_nil]
      have hname : "java.lang." ++ String.ofList s =
          "java.lang." ++ String.ofList (Text.cutFirst '.' s).1 ++ "." ++
            String.ofList (Text.cutFirst '.' s).2 := by
        conv_lhs => rw [hjoin]
        simp [← String.toList_inj]
      rw [hname]
      rfl
  next => simp

/-- Of the dotted names, the primitive types alone name no type. -/
theorem namesNoType_of_isDotted {s : List Char} (hs : IsDotted s) :
    namesNoType (String.ofList s) = Library.primitives.contains (String.ofList s) := by
  obtain ⟨front, c, hlast, hc⟩ := hs.last
  have hbracket : c ≠ ']' ∧ c ≠ '.' := by
    constructor
    · rintro rfl
      exact absurd hc (by decide)
    · rintro rfl
      exact absurd hc (by decide)
  have hends (ending : List Char) (d : Char) (hd : c ≠ d) :
      (ending ++ [d]).isSuffixOf s = false := by
    rw [← Bool.not_eq_true, List.isSuffixOf_iff_suffix, hlast]
    rintro ⟨more, hmore⟩
    rw [← List.append_assoc] at hmore
    exact hd (List.singleton_inj.mp (List.append_inj' hmore rfl).2).symm
  have hbrackets : Text.endsWith "]" (String.ofList s) = false := by
    simpa [Text.endsWith] using hends [] ']' hbracket.1
  have hdots : isVarargs (String.ofList s) = false := by
    simpa [isVarargs, Text.endsWith] using hends ['.', '.'] '.' hbracket.2
  have hnonempty : (String.ofList s == "") = false := by
    simp [← String.toList_inj, hlast]
  unfold namesNoType
  rw [hbrackets, hdots, hnonempty, Bool.or_false, Bool.or_false, Bool.false_or]

theorem namesNoType_eq_false {s rest : List Char} (hs : IsDotted (s ++ '.' :: rest)) :
    namesNoType (String.ofList (s ++ '.' :: rest)) = false := by
  have hprimitive : ∀ name ∈ Library.primitives, '.' ∉ name.toList := by decide
  rw [namesNoType_of_isDotted hs, ← Bool.not_eq_true, List.contains_iff_mem]
  intro hmem
  exact hprimitive _ hmem (by simp)

/-- Where nothing is declared, a dotted name and one that goes on behind it mean two types. -/
theorem resolveType_ne {s rest : List Char} (hs : IsDotted s) (hmore : IsDotted (s ++ '.' :: rest))
    {a b : String} (ha : TypeText.base a = String.ofList s)
    (hb : TypeText.base b = String.ofList (s ++ '.' :: rest)) :
    (ofFiles []).resolveType a nowhere ≠ (ofFiles []).resolveType b nowhere := by
  have hparameter (name : String) : (ofFiles []).typeParameter name nowhere = none :=
    typeParameter_eq_none (fun k entry hentry => by rw [type?_nil] at hentry; cases hentry)
      (fun _ hdecl => by cases hdecl) name
  have hresolve (text : String) (hnamed : namesNoType (TypeText.base text) = false) :
      (ofFiles []).resolveType text nowhere =
        some ((ofFiles []).resolveName (TypeText.base text) nowhere) := by
    unfold resolveType
    simp [hnamed, hparameter]
  intro heq
  rw [hresolve b (by rw [hb]; exact namesNoType_eq_false hmore), hb, resolveName_nowhere hmore,
    cutFirst_append_dot] at heq
  cases hnamed : namesNoType (TypeText.base a) with
  | true =>
      unfold resolveType at heq
      simp [hnamed] at heq
  | false =>
      rw [hresolve a hnamed, ha, resolveName_nowhere hs, Option.some.injEq] at heq
      have hname := congrArg TypeSymbol.binaryName heq
      have hlength := congrArg String.length hname
      simp [Library.externalType] at hlength

end CodeIndex

namespace TypeText

/-! ## Texts with and without arguments -/

/-- Two texts that are the same type to a reader of an index: erased, named by its simple name,
and resolved from any place of any files. -/
structure ReadAlike (a b : String) : Prop where
  erase : erase a = TypeText.erase b
  simpleName : simpleName a = TypeText.simpleName b
  resolved : ∀ files view, (CodeIndex.ofFiles files).resolveType a view =
    (CodeIndex.ofFiles files).resolveType b view

theorem readAlike_of_beforeFirst {a b : String}
    (h : Text.beforeFirst '<' a.toList = Text.beforeFirst '<' b.toList) : ReadAlike a b := by
  have hbase : baseOf a.toList = baseOf b.toList := congrArg (Text.trim Text.isBlank) h
  refine ⟨?_, ?_, fun files view => ?_⟩
  · unfold TypeText.erase eraseChars
    rw [hbase]
  · unfold TypeText.simpleName
    rw [hbase]
  · unfold CodeIndex.resolveType TypeText.base
    rw [hbase]

def JavaType.written (t : JavaType) : String := String.ofList t.text

/-- A type text is read up to its first type arguments.  So it is read like its raw text exactly
when nothing stands behind them: no inner type, no dimensions and no dots of variable arity. -/
theorem readAlike_raw_iff (t : JavaType) :
    raw t.written = String.ofList t.plain ∧
    Text.beforeFirst '<' t.text ++ t.behind = t.plain ∧
    ReadAlike t.written (String.ofList (Text.beforeFirst '<' t.text)) ∧
    (ReadAlike t.written (raw t.written) ↔ t.behind = []) := by
  have hraw : raw t.written = String.ofList t.plain := by
    unfold raw JavaType.written
    rw [String.toList_ofList, t.outside_text]
  obtain ⟨hcut, hdotted⟩ := t.cut
  have hangle : '<' ∉ t.plain := by
    unfold JavaType.plain
    rw [List.mem_append, not_or]
    exact ⟨(t.first.isDotted.flatMap t.inner).not_mem (by decide) (by decide), t.not_mem_suffix⟩
  have hfront : Text.beforeFirst '<' (Text.beforeFirst '<' t.text) =
      Text.beforeFirst '<' t.text := by
    refine beforeFirst_of_not_mem fun hmem => hangle ?_
    rw [← hcut]
    exact List.mem_append_left _ hmem
  refine ⟨hraw, hcut, readAlike_of_beforeFirst ?_, fun hlaw => ?_, fun hnone => ?_⟩
  · unfold JavaType.written
    rw [String.toList_ofList, String.toList_ofList, hfront]
  · by_contra hsome
    have hshort := hdotted hsome
    rw [hraw] at hlaw
    unfold JavaType.written at hlaw
    by_cases hsuffix : t.suffix = []
    · -- What stands behind is an inner type, which a file without declarations tells from its
      -- outer one.
      obtain ⟨rest, hrest⟩ : ∃ rest, t.behind = '.' :: rest := by
        unfold JavaType.behind at hsome ⊢
        rw [hsuffix] at hsome ⊢
        exact (head_behindArguments (t.first :: t.inner)).resolve_left hsome
      have hlong : IsDotted t.plain := by
        unfold JavaType.plain
        rw [hsuffix, List.append_nil]
        exact t.first.isDotted.flatMap t.inner
      have hplain : baseOf t.plain = t.plain := by
        have hwhole := beforeFirst_of_not_mem hangle
        rw [baseOf_eq (by rw [hwhole]; exact t.isBlank_plain), hwhole]
      rw [← hcut, hrest] at hlong hplain
      refine CodeIndex.resolveType_ne hshort hlong ?_ ?_ (hlaw.resolved [] CodeIndex.nowhere)
      · unfold TypeText.base
        rw [String.toList_ofList, baseOf_eq hshort.isBlank]
      · unfold TypeText.base
        rw [String.toList_ofList, ← hcut, hrest, hplain]
    · -- The dimensions are lost.
      have herase : eraseChars t.text = eraseChars t.plain := by
        simpa [TypeText.erase, String.ofList_inj] using hlaw.erase
      exact not_mem_eraseChars hshort (herase ▸ t.mem_eraseChars_plain hsuffix)
  · rw [hnone, List.append_nil] at hcut
    rw [hraw, ← hcut]
    apply readAlike_of_beforeFirst
    unfold JavaType.written
    rw [String.toList_ofList, String.toList_ofList, hfront]

/-! ## An array of a parameterised type -/

theorem balanced_of_not_mem {s : List Char} (hopen : '<' ∉ s) (hclose : '>' ∉ s) : Balanced s := by
  induction s with
  | nil => exact .nil
  | cons c s ih =>
      rw [List.mem_cons, not_or] at hopen hclose
      exact .char (Ne.symm hopen.1) (Ne.symm hclose.1) (ih hopen.2 hclose.2)

def listOfStrings : Segment where
  name := "List".toList
  arguments := some "String".toList
  nonempty := by decide
  isName := List.all_eq_true.mp (by decide)
  balanced := by
    rintro inner ⟨⟩
    exact balanced_of_not_mem (by decide) (by decide)

/-- The array type `List<String>[]` is erased like its element type, and its raw text is not. -/
theorem array_of_parameterised_erased :
    (⟨listOfStrings, [], 1, false⟩ : JavaType).written = "List<String>[]" ∧
    raw "List<String>[]" = "List[]" ∧
    TypeText.erase "List<String>[]" = "List" ∧ TypeText.erase "List[]" = "List[]" ∧
    ¬ ReadAlike "List<String>[]" (raw "List<String>[]") := by
  have hraw : raw "List<String>[]" = "List[]" := by decide
  have herase : TypeText.erase "List<String>[]" = "List" := by decide
  have hplain : TypeText.erase "List[]" = "List[]" := by decide
  refine ⟨by decide, hraw, herase, hplain, fun hlaw => ?_⟩
  have hsame := hlaw.erase
  rw [hraw, herase, hplain] at hsame
  exact absurd hsame (by decide)

end TypeText

end EntryPoints
