import EntryPoints.Proofs.SpecTexts
import Mathlib.Data.List.Infix

/-!
# Specs as they are written

A spec is an owner, a sign and a name, and optionally a list of parameter types in parentheses;
blanks may stand around it and before the list.  Such a text comes apart in one way only.  The
name holds neither `#` nor `.`, so the sign is the last of them, however many dots the owner has.
No character of an owner or a name is a blank, so the name ends where the blanks or the list
begin.  Inside the list a comma separates two types when as many angle brackets are closed as are
opened before it.

Every other text is malformed: `MethodSpec.Spells` says what a trimmed text must look like, and the
reader accepts these texts and no others.
-/

namespace EntryPoints

/-! ## Blanks -/

namespace Text

variable {c : Char}

/-- The code points of the characters that lie in the ranges. -/
def Ranges.codes (ranges : Ranges) : List Nat :=
  ranges.flatMap fun r => List.range' r.1 (r.2 + 1 - r.1)

theorem Ranges.toNat_mem_codes {ranges : Ranges} (hc : ranges.has c = true) :
    c.toNat ∈ ranges.codes := by
  obtain ⟨r, hr, hbounds⟩ := List.any_eq_true.mp hc
  simp only [Bool.and_eq_true, decide_eq_true_eq] at hbounds
  refine List.mem_flatMap.mpr ⟨r, hr, List.mem_range'_1.mpr ⟨hbounds.1, ?_⟩⟩
  omega

theorem isWord_of_isBlank (hc : isBlank c = true) : isWord c = false := by
  have hcodes : blankRanges.codes.all (fun n => !isWord (Char.ofNat n)) = true := by
    decide +kernel
  have hword := List.all_eq_true.mp hcodes _ (Ranges.toNat_mem_codes hc)
  simpa using hword

variable {blank : Char → Bool} {s before after : List Char}

/-- Blanks around a text are all that trimming takes away. -/
theorem trim_append (hbefore : before.all blank = true) (hafter : after.all blank = true)
    (hfirst : ∀ c ∈ s.head?, blank c = false) (hlast : ∀ c ∈ s.getLast?, blank c = false)
    (hs : s ≠ []) : trim blank (before ++ s ++ after) = s := by
  have hhead : ∀ c ∈ (s ++ after).head?, blank c = false := by
    obtain ⟨d, rest, rfl⟩ := List.exists_cons_of_ne_nil hs
    exact hfirst
  have hleft : trimLeft blank (before ++ s ++ after) = s ++ after := by
    rw [List.append_assoc]
    exact (cut_append (List.all_eq_true.mp hbefore) hhead).2
  have hright : (s ++ after).reverse.dropWhile blank = s.reverse := by
    rw [List.reverse_append]
    refine (cut_append (fun c hc => ?_) (by rwa [List.head?_reverse])).2
    exact List.all_eq_true.mp hafter c (List.mem_reverse.mp hc)
  rw [trim, hleft, trimRight, hright, List.reverse_reverse]

/-- A trimmed text does not end with a blank. -/
theorem isBlank_of_mem_getLast?_trim (hc : c ∈ (trim blank s).getLast?) : blank c = false := by
  rw [trim, trimRight, List.getLast?_reverse] at hc
  have hfirst := List.head?_dropWhile_not blank (trimLeft blank s).reverse
  cases hrest : (trimLeft blank s).reverse.dropWhile blank with
  | nil =>
      rw [hrest] at hc
      cases hc
  | cons d rest =>
      rw [hrest] at hc hfirst
      cases hc
      simpa using hfirst

end Text

/-! ## Commas and angle brackets -/

namespace TypeText

variable {depth after : Nat} {c : Char} {text : List Char}

theorem forall_front_cons {p : List Char → Prop} :
    (∀ front, front <+: c :: text → p front) ↔
      p [] ∧ ∀ front, front <+: text → p (c :: front) := by
  constructor
  · intro h
    exact ⟨h [] List.nil_prefix, fun front hfront => h _ (List.cons_prefix_cons.mpr ⟨rfl, hfront⟩)⟩
  · rintro ⟨hnil, hcons⟩ front hfront
    rcases List.prefix_cons_iff.mp hfront with rfl | ⟨more, rfl, hmore⟩
    · exact hnil
    · exact hcons more hmore

theorem forall_comma_cons {p : List Char → Prop} :
    (∀ front rest, c :: text = front ++ ',' :: rest → p front) ↔
      (c = ',' → p []) ∧ ∀ front rest, text = front ++ ',' :: rest → p (c :: front) := by
  constructor
  · intro h
    refine ⟨fun hc => h [] text (by rw [hc]; rfl), fun front rest htext => ?_⟩
    exact h (c :: front) rest (by rw [htext]; rfl)
  · rintro ⟨hnil, hcons⟩ front rest htext
    rcases List.cons_eq_append_iff.mp htext with ⟨rfl, hrest⟩ | ⟨front, rfl, hfront⟩
    · exact hnil (List.cons.inj hrest).1.symm
    · exact hcons front rest hfront

/-- The depth behind a text is told by the brackets before each of its places. -/
theorem depthAfter_eq_some_iff : depthAfter depth text = some after ↔
    (∀ front, front <+: text → front.count '>' ≤ depth + front.count '<') ∧
    (∀ front rest, text = front ++ ',' :: rest → front.count '>' < depth + front.count '<') ∧
    depth + text.count '<' = after + text.count '>' := by
  induction text generalizing depth with
  | nil => simp [depthAfter]
  | cons c text ih =>
      -- A bracket at the front shifts the depth of every later place by one, on both sides.
      rw [forall_front_cons, forall_comma_cons, depthAfter]
      by_cases hless : c = '<'
      · subst hless
        rw [if_pos rfl, ih]
        simp [Nat.add_right_comm depth 1, Nat.add_assoc]
      · rw [if_neg hless]
        by_cases hgreater : c = '>'
        · subst hgreater
          cases depth with
          | zero =>
              have hclosed : ¬(['>'].count '>' ≤ 0 + ['>'].count '<') := by decide
              simp only [true_and, or_true, if_true, reduceCtorEq, false_iff]
              exact fun h => hclosed (h.1.2 [] List.nil_prefix)
          | succ depth =>
              rw [if_neg (by simp), if_pos rfl, Nat.add_sub_cancel, ih]
              simp [Nat.add_right_comm depth 1, ← Nat.add_assoc]
        · by_cases hcomma : c = ','
          · subst hcomma
            cases depth with
            | zero => simp
            | succ depth =>
                rw [if_neg (by simp), if_neg hgreater, ih]
                simp
          · rw [if_neg (by simp [hgreater, hcomma]), if_neg hgreater, ih]
            simp [hless, hgreater, hcomma]

end TypeText

namespace MethodSpec

/-- A text that reads as one parameter type wherever it stands in a list. -/
structure IsParameter (text : List Char) : Prop where
  nonempty : text ≠ []
  trimmed : Text.trim Text.isBlank text = text
  unclosed : ')' ∉ text
  balanced : text.count '<' = text.count '>'
  /-- No prefix closes more angle brackets than it opens. -/
  opened : ∀ front, front <+: text → front.count '>' ≤ front.count '<'
  /-- Every comma lies inside angle brackets. -/
  inside : ∀ front rest, text = front ++ ',' :: rest → front.count '>' < front.count '<'

theorem isParameter_iff {text : List Char} : IsParameter text ↔
    TypeText.IsOneType text ∧ Text.trim Text.isBlank text = text ∧ ')' ∉ text := by
  rw [TypeText.IsOneType, TypeText.depthAfter_eq_some_iff]
  simp only [Nat.zero_add]
  constructor
  · intro h
    exact ⟨⟨h.nonempty, h.opened, h.inside, h.balanced⟩, h.trimmed, h.unclosed⟩
  · rintro ⟨⟨hnonempty, hopened, hinside, hbalanced⟩, htrimmed, hunclosed⟩
    exact ⟨hnonempty, htrimmed, hunclosed, hbalanced, hopened, hinside⟩

instance (text : List Char) : Decidable (IsParameter text) :=
  decidable_of_iff _ isParameter_iff.symm

theorem parametersOf_written {types : List (List Char)} (htypes : ∀ t ∈ types, IsParameter t) :
    parametersOf ([',', ' '].intercalate types) = types :=
  parametersOf_joined fun t ht => ⟨(isParameter_iff.mp (htypes t ht)).1, (htypes t ht).trimmed⟩

theorem unclosed_intercalate {types : List (List Char)} (htypes : ∀ t ∈ types, IsParameter t) :
    ')' ∉ [',', ' '].intercalate types := by
  induction types with
  | nil => simp
  | cons first types ih =>
      have hfirst := (htypes first (by simp)).unclosed
      cases types with
      | nil => simpa using hfirst
      | cons t ts =>
          have hrest := ih fun u hu => htypes u (by simp [hu])
          rw [List.intercalate_cons_cons]
          simp [hfirst, hrest]

/-! ## The text behind the name -/

variable {rest gap inner : List Char}

theorem tail?_append_of_blank (hgap : gap.all Text.isBlank = true) :
    tail? (gap ++ rest) = tail? rest := by
  unfold tail?
  rw [List.dropWhile_append_of_pos (List.all_eq_true.mp hgap)]

theorem tail?_eq_some_none_iff : tail? rest = some none ↔ rest.all Text.isBlank = true := by
  have hdrop : rest.dropWhile Text.isBlank = [] ↔ rest.all Text.isBlank = true := by
    rw [List.dropWhile_eq_nil_iff, List.all_eq_true]
  rw [← hdrop]
  unfold tail?
  split
  · simp_all
  · split <;> simp_all
  · simp_all

theorem tail?_eq_some_some_iff : tail? rest = some (some inner) ↔
    ∃ gap, gap.all Text.isBlank = true ∧ ')' ∉ inner ∧ rest = gap ++ '(' :: (inner ++ [')']) := by
  constructor
  · intro h
    unfold tail? at h
    split at h
    case h_1 => simp at h
    case h_3 => simp at h
    case h_2 list hlist =>
      simp only [Option.ite_none_right_eq_some, Option.some.injEq] at h
      obtain ⟨hend, rfl⟩ := h
      refine ⟨rest.takeWhile Text.isBlank, List.all_takeWhile, ?_, ?_⟩
      · intro hclosed
        simpa using List.mem_takeWhile_imp hclosed
      · have hcut := List.takeWhile_append_dropWhile (p := (· ≠ ')')) (l := list)
        rw [hend] at hcut
        rw [hcut, ← hlist, List.takeWhile_append_dropWhile]
  · rintro ⟨gap, hgap, hclosed, rfl⟩
    rw [tail?_append_of_blank hgap, tail?_parenthesised, if_neg hclosed]

/-! ## The whole text -/

/-- The trimmed texts that spell an owner, a name and possibly a list of parameter types. -/
inductive Spells (owner name : List Char) : Option (List Char) → List Char → Prop
  | plain {sign : Char} (hnames : CanSpell owner name []) (hsign : isSeparator sign = true) :
      Spells owner name none (owner ++ sign :: name)
  | listed {sign : Char} {gap inner : List Char} (hnames : CanSpell owner name inner)
      (hsign : isSeparator sign = true) (hgap : gap.all Text.isBlank = true) :
      Spells owner name (some inner) (owner ++ sign :: name ++ (gap ++ '(' :: (inner ++ [')'])))

variable {owner name text : List Char} {sign c : Char} {list : Option (List Char)}

theorem isOwnerChar_of_isBlank (hc : Text.isBlank c = true) : isOwnerChar c = false := by
  have hword := Text.isWord_of_isBlank hc
  have hsigns : c ≠ '$' ∧ c ≠ '.' := by
    constructor <;> rintro rfl <;> revert hc <;> decide
  simp [isOwnerChar, isNameChar, hword, hsigns]

theorem isBlank_of_isOwnerChar (hc : isOwnerChar c = true) : Text.isBlank c = false := by
  by_contra hblank
  simp [isOwnerChar_of_isBlank (by simpa using hblank)] at hc

/-- Neither a blank nor a parenthesis is part of a name. -/
theorem not_belongs_of_mem_head? (hgap : gap.all Text.isBlank = true) (rest : List Char) :
    ∀ c ∈ (gap ++ '(' :: rest).head?, (isOwnerChar c || isSeparator c) = false := by
  intro c hc
  cases gap with
  | nil =>
      cases hc
      decide
  | cons d gap =>
      cases hc
      have hblank : Text.isBlank c = true := List.all_eq_true.mp hgap c (by simp)
      have hsign : isSeparator c = false := by
        by_contra hseparator
        simp only [isSeparator, Bool.not_eq_false, Bool.or_eq_true, beq_iff_eq] at hseparator
        rcases hseparator with rfl | rfl <;> revert hblank <;> decide
      rw [isOwnerChar_of_isBlank hblank, hsign]
      rfl

/-- A sign is part of an owner or a name, so the last one of them is the one between the two. -/
theorem CanSpell.split?_sign (hnames : CanSpell owner name inner)
    (hsign : isSeparator sign = true) : split? (owner ++ sign :: name) = some (owner, name) :=
  split?_eq_some_iff.mpr ⟨⟨sign, hsign, rfl⟩,
    fun c hc => isSeparator_of_isNameChar (List.all_eq_true.mp hnames.name.2 c hc),
    hnames.name.1, hnames.owner.1, hnames.owner.2⟩

theorem Spells.cut (h : Spells owner name list text) :
    split? (text.takeWhile fun c => isOwnerChar c || isSeparator c) = some (owner, name) ∧
      tail? (text.dropWhile fun c => isOwnerChar c || isSeparator c) = some list := by
  cases h with
  | @plain sign hnames hsign =>
      have hbelongs := hnames.belongs hsign
      rw [List.takeWhile_eq_self_iff.mpr hbelongs, List.dropWhile_eq_nil_iff.mpr hbelongs]
      exact ⟨hnames.split?_sign hsign, rfl⟩
  | @listed sign gap inner hnames hsign hgap =>
      obtain ⟨hfront, hrest⟩ := Text.cut_append (hnames.belongs hsign)
        (not_belongs_of_mem_head? hgap _)
      rw [hfront, hrest]
      exact ⟨hnames.split?_sign hsign, tail?_eq_some_some_iff.mpr ⟨gap, hgap, hnames.inner, rfl⟩⟩

/-- A text without blanks at its end is cut as an owner, a name and a list only if it spells
them. -/
theorem spells_iff (hlast : ∀ c ∈ text.getLast?, Text.isBlank c = false) :
    Spells owner name list text ↔
      split? (text.takeWhile fun c => isOwnerChar c || isSeparator c) = some (owner, name) ∧
        tail? (text.dropWhile fun c => isOwnerChar c || isSeparator c) = some list := by
  refine ⟨Spells.cut, ?_⟩
  rintro ⟨hsplit, htail⟩
  obtain ⟨⟨sign, hsign, hhead⟩, hseparators, hname, howner, hchars⟩ := split?_eq_some_iff.mp hsplit
  have hletters : name.all isNameChar = true := by
    refine List.all_eq_true.mpr fun c hc => ?_
    have hmem : c ∈ text.takeWhile fun c => isOwnerChar c || isSeparator c := by
      simp [hhead, hc]
    have hbelongs : (isOwnerChar c || isSeparator c) = true := by
      simpa using List.mem_takeWhile_imp hmem
    exact isNameChar_of_belongs hbelongs (hseparators c hc)
  have hcut := List.takeWhile_append_dropWhile (p := fun c => isOwnerChar c || isSeparator c)
    (l := text)
  rw [hhead] at hcut
  cases list with
  | none =>
      -- Blanks behind the name would end the text, so there are none.
      have hblanks := tail?_eq_some_none_iff.mp htail
      have hend : text.dropWhile (fun c => isOwnerChar c || isSeparator c) = [] := by
        by_contra hrest
        obtain ⟨c, hc⟩ := List.getLast?_isSome.mpr hrest |> Option.isSome_iff_exists.mp
        have hblank := List.all_eq_true.mp hblanks c (List.mem_of_getLast? hc)
        rw [hlast c] at hblank
        · cases hblank
        · rw [← hcut, List.getLast?_append, hc]
          rfl
      rw [hend, List.append_nil] at hcut
      rw [← hcut]
      exact .plain ⟨⟨howner, hchars⟩, ⟨hname, hletters⟩, by simp⟩ hsign
  | some inner =>
      obtain ⟨gap, hgap, hclosed, hrest⟩ := tail?_eq_some_some_iff.mp htail
      rw [← hcut, hrest]
      exact .listed ⟨⟨howner, hchars⟩, ⟨hname, hletters⟩, hclosed⟩ hsign hgap

theorem ofChars?_eq_some_iff {spec : MethodSpec} : ofChars? text = some spec ↔
    ∃ owner name list, Spells owner name list (Text.trim Text.isBlank text) ∧
      spec = ⟨String.ofList owner, String.ofList name,
        list.map fun inner => (parametersOf inner).map String.ofList⟩ := by
  have hlast : ∀ c ∈ (Text.trim Text.isBlank text).getLast?, Text.isBlank c = false :=
    fun c hc => Text.isBlank_of_mem_getLast?_trim hc
  simp only [ofChars?, Option.bind_eq_bind, Option.bind_eq_some_iff, Prod.exists, Option.pure_def,
    Option.some.injEq]
  constructor
  · rintro ⟨owner, name, hsplit, list, htail, rfl⟩
    exact ⟨owner, name, list, (spells_iff hlast).mpr ⟨hsplit, htail⟩, rfl⟩
  · rintro ⟨owner, name, list, hspells, rfl⟩
    obtain ⟨hsplit, htail⟩ := (spells_iff hlast).mp hspells
    exact ⟨owner, name, hsplit, list, htail, rfl⟩

theorem ofChars?_eq_none_iff : ofChars? text = none ↔
    ¬∃ owner name list, Spells owner name list (Text.trim Text.isBlank text) := by
  rw [Option.eq_none_iff_forall_ne_some]
  constructor
  · rintro hnone ⟨owner, name, list, hspells⟩
    exact hnone _ (ofChars?_eq_some_iff.mpr ⟨owner, name, list, hspells, rfl⟩)
  · intro hnone spec hspec
    obtain ⟨owner, name, list, hspells, -⟩ := ofChars?_eq_some_iff.mp hspec
    exact hnone ⟨owner, name, list, hspells⟩

/-- A text that spells something begins with its owner and ends with its name or its list. -/
theorem Spells.ends (h : Spells owner name list text) : text ≠ [] ∧
    (∀ c ∈ text.head?, Text.isBlank c = false) ∧ ∀ c ∈ text.getLast?, Text.isBlank c = false := by
  have hstart {inner rest : List Char} (hnames : CanSpell owner name inner) :
      ∀ c ∈ (owner ++ rest).head?, Text.isBlank c = false := by
    obtain ⟨d, more, rfl⟩ := List.exists_cons_of_ne_nil hnames.owner.1
    rintro c hc
    cases hc
    exact isBlank_of_isOwnerChar (List.all_eq_true.mp hnames.owner.2 d (by simp))
  cases h with
  | @plain sign hnames hsign =>
      refine ⟨by simp, hstart hnames, fun c hc => ?_⟩
      obtain ⟨front, d, rfl⟩ := (List.eq_nil_or_concat name).resolve_left hnames.name.1
      have hd : isNameChar d = true := List.all_eq_true.mp hnames.name.2 d (by simp)
      have hend : owner ++ sign :: front.concat d = (owner ++ sign :: front) ++ [d] := by simp
      rw [hend, List.getLast?_concat] at hc
      cases hc
      exact isBlank_of_isOwnerChar (by simp [isOwnerChar, hd])
  | @listed sign gap inner hnames hsign hgap =>
      have hend : owner ++ sign :: name ++ (gap ++ '(' :: (inner ++ [')'])) =
          (owner ++ sign :: name ++ (gap ++ '(' :: inner)) ++ [')'] := by simp
      refine ⟨by simp, ?_, fun c hc => ?_⟩
      · rw [List.append_assoc]
        exact hstart hnames
      · rw [hend, List.getLast?_concat] at hc
        cases hc
        decide

/-- Blanks around a text that spells something do not matter. -/
theorem Spells.ofChars? {before after : List Char} (h : Spells owner name list text)
    (hbefore : before.all Text.isBlank = true) (hafter : after.all Text.isBlank = true) :
    ofChars? (before ++ text ++ after) = some ⟨String.ofList owner, String.ofList name,
      list.map fun inner => (parametersOf inner).map String.ofList⟩ := by
  obtain ⟨hnonempty, hfirst, hlast⟩ := h.ends
  refine ofChars?_eq_some_iff.mpr ⟨owner, name, list, ?_, rfl⟩
  rwa [Text.trim_append hbefore hafter hfirst hlast hnonempty]

/-! ## Reading a text -/

theorem parse_eq_ok_iff {text : String} {spec : MethodSpec} :
    parse text = .ok spec ↔ ofChars? text.toList = some spec := by
  unfold parse
  cases ofChars? text.toList <;> simp

theorem parse_eq_error_iff {text : String} {failure : Failure} :
    parse text = .error failure ↔ failure = .malformedSpec text ∧ ofChars? text.toList = none := by
  unfold parse
  cases ofChars? text.toList <;> simp [eq_comm]

/-- A spec is read as what it was written from, and the malformed texts are those that spell
nothing. -/
theorem parse_written :
    (∀ (owner name before gap after : String) (sign : Char) (types : List String),
      CanSpell owner.toList name.toList [] → isSeparator sign = true →
      (∀ type ∈ types, IsParameter type.toList) →
      before.toList.all Text.isBlank = true → gap.toList.all Text.isBlank = true →
      after.toList.all Text.isBlank = true →
        parse (before ++ (owner ++ String.singleton sign ++ name ++ gap ++ "(" ++
          Text.joinWith ", " types ++ ")") ++ after) = .ok ⟨owner, name, some types⟩ ∧
        parse (before ++ (owner ++ String.singleton sign ++ name) ++ after) =
          .ok ⟨owner, name, none⟩) ∧
    ∀ (text : String) (failure : Failure), parse text = .error failure ↔
      failure = .malformedSpec text ∧
        ¬∃ owner name list, Spells owner name list (Text.trim Text.isBlank text.toList) := by
  constructor
  · intro owner name before gap after sign types hnames hsign htypes hbefore hgap hafter
    have hparameters : ∀ t ∈ types.map String.toList, IsParameter t := by
      intro t ht
      obtain ⟨type, htype, rfl⟩ := List.mem_map.mp ht
      exact htypes type htype
    have hlisted := Spells.listed
      ⟨hnames.owner, hnames.name, unclosed_intercalate hparameters⟩ hsign hgap
    constructor
    · have hread := hlisted.ofChars? hbefore hafter
      rw [Option.map_some, parametersOf_written hparameters] at hread
      rw [parse_eq_ok_iff]
      simpa [Text.joinWith] using hread
    · have hread := (Spells.plain hnames hsign).ofChars? hbefore hafter
      rw [parse_eq_ok_iff]
      simpa using hread
  · intro text failure
    rw [parse_eq_error_iff, ofChars?_eq_none_iff]

/-- A nested type in the owner, nested type arguments in the list, and blanks around both. -/
theorem parse_written_nested :
    (CanSpell "a.Outer$Inner".toList "run".toList [] ∧ isSeparator '.' = true ∧
      (∀ type ∈ ["Map<A, List<B>>", "int[]"], IsParameter type.toList) ∧
      parse " a.Outer$Inner.run (Map<A, List<B>>, int[])\n" =
        .ok ⟨"a.Outer$Inner", "run", some ["Map<A, List<B>>", "int[]"]⟩) ∧
    parse "run" = .error (.malformedSpec "run") := by
  have hnames : CanSpell "a.Outer$Inner".toList "run".toList [] := by decide +kernel
  have htypes : ∀ type ∈ ["Map<A, List<B>>", "int[]"], IsParameter type.toList := by
    decide +kernel
  have hread := parse_written.1 "a.Outer$Inner" "run" " " " " "\n" '.' ["Map<A, List<B>>", "int[]"]
    hnames rfl htypes (by decide) (by decide) (by decide)
  refine ⟨⟨hnames, rfl, htypes, hread.1⟩, ?_⟩
  refine (parse_written.2 "run" _).mpr ⟨rfl, ?_⟩
  rintro ⟨owner, name, list, hspells⟩
  have hcut : split? ((Text.trim Text.isBlank "run".toList).takeWhile
      fun c => isOwnerChar c || isSeparator c) = none := by decide +kernel
  have hsplit := hspells.cut.1
  rw [hcut] at hsplit
  cases hsplit

end MethodSpec

end EntryPoints
