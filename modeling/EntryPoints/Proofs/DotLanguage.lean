import Mathlib.Data.List.TakeWhile
import Mathlib.Data.List.Infix

/-!
# Reading DOT

The DOT language describes a graph by statements about nodes and edges.  What is read here is the
part of it that has named directed graphs, their settings, the defaults of their nodes and edges,
and nodes and paths with at most one list of attributes.  A text with subgraphs, ports, numerals,
comments or HTML in it is not read, although it may be well-formed.

Between quotes a backslash belongs to the character after it.  Before a quote it says that the text
does not end there, at the end of a line it takes both away, and two backslashes stay two.  Every
other character, a line end too, stands for itself.

A text that is put between quotes as it is should be read back as it is.  Where a text is made of
such texts and of phrases between them, this holds exactly when each of them is plain.
-/

namespace EntryPoints.Dot

/-! ## Tokens -/

inductive Token where
  | word (text : String)
  | quoted (text : String)
  | openBrace
  | closeBrace
  | openBracket
  | closeBracket
  | equals
  | comma
  | semicolon
  | arrow
deriving DecidableEq, Repr

def isGap (c : Char) : Bool := c == ' ' || c == '\t' || c == '\n' || c == '\r'

def isWordStart (c : Char) : Bool := c.isAlpha || c == '_' || decide (128 ≤ c.toNat)

def isWordChar (c : Char) : Bool := isWordStart c || c.isDigit

def mark? : Char → Option Token
  | '\x7b' => some .openBrace
  | '\x7d' => some .closeBrace
  | '[' => some .openBracket
  | ']' => some .closeBracket
  | '=' => some .equals
  | ',' => some .comma
  | ';' => some .semicolon
  | _ => none

/-- What a backslash and the character after it stand for together, if they are not two
characters. -/
def escape? : Char → Option (List Char)
  | '"' => some ['"']
  | '\\' => some ['\\', '\\']
  | '\n' => some []
  | _ => none

/-- The text that an opened quote holds, and what is left after the quote that closes it. -/
def quotedText : List Char → Option (List Char × List Char)
  | [] => none
  | '"' :: after => some ([], after)
  | '\\' :: c :: more =>
    match escape? c with
    | some meant => (quotedText more).map fun (text, after) => (meant ++ text, after)
    | none => (quotedText (c :: more)).map fun (text, after) => ('\\' :: text, after)
  | c :: more => (quotedText more).map fun (text, after) => (c :: text, after)

theorem quotedText_suffix {s text after : List Char} (h : quotedText s = some (text, after)) :
    after <:+ s ∧ after.length < s.length := by
  fun_induction quotedText s generalizing text with
  | case1 => cases h
  | case2 =>
      cases h
      exact ⟨List.suffix_cons _ _, by simp⟩
  | case3 c more _ _ ih =>
      obtain ⟨_, hmore, heq⟩ := Option.map_eq_some_iff.mp h
      cases heq
      obtain ⟨hsuffix, hlength⟩ := ih hmore
      exact ⟨hsuffix.trans ⟨['\\', c], rfl⟩, by simp; omega⟩
  | case4 c more _ ih | case5 c more _ _ ih =>
      obtain ⟨_, hmore, heq⟩ := Option.map_eq_some_iff.mp h
      cases heq
      obtain ⟨hsuffix, hlength⟩ := ih hmore
      exact ⟨hsuffix.trans (List.suffix_cons _ _), by simp at hlength ⊢; omega⟩

def tokens (s : List Char) : Option (List Token) :=
  match s with
  | [] => some []
  | '"' :: rest =>
    match h : quotedText rest with
    | some (text, after) =>
      have : after.length < rest.length := (quotedText_suffix h).2
      (tokens after).map (.quoted (String.ofList text) :: ·)
    | none => none
  | '-' :: '>' :: rest => (tokens rest).map (.arrow :: ·)
  | c :: rest =>
    if isGap c then tokens rest
    else if isWordStart c then
      have : (rest.dropWhile isWordChar).length ≤ rest.length := (List.dropWhile_suffix _).length_le
      (tokens (rest.dropWhile isWordChar)).map
        (.word (String.ofList (c :: rest.takeWhile isWordChar)) :: ·)
    else
      match mark? c with
      | some mark => (tokens rest).map (mark :: ·)
      | none => none
termination_by s.length

/-! ## Statements -/

def keywords : List String := ["strict", "graph", "digraph", "subgraph", "node", "edge"]

/-- The name that a token stands for.  A keyword is a name between quotes only, whether it is
written in small letters or in capitals. -/
def Token.name? : Token → Option String
  | .word text =>
    if String.ofList (text.toList.map Char.toLower) ∈ keywords then none else some text
  | .quoted text => some text
  | _ => none

structure Attribute where
  name : String
  value : String
deriving DecidableEq, Repr

inductive Statement where
  | setting (entry : Attribute)
  /-- Attributes that all nodes or edges have from now on, or the graph itself. -/
  | defaults (kind : String) (attributes : List Attribute)
  /-- A node, or a path with an edge from each of its nodes to the next. -/
  | path (first : String) (others : List String) (attributes : List Attribute)
deriving DecidableEq, Repr

def Statement.edges : Statement → List (String × String)
  | .path first others _ => (first :: others).zip others
  | _ => []

structure Graph where
  name : String
  statements : List Statement
deriving DecidableEq, Repr

def Graph.edges (graph : Graph) : List (String × String) :=
  graph.statements.flatMap Statement.edges

def entry? (name value : Token) : Option Attribute := do
  return ⟨← name.name?, ← value.name?⟩

/-- The attributes up to a closing bracket. -/
def attributes : List Token → Option (List Attribute × List Token)
  | .closeBracket :: rest => some ([], rest)
  | name :: .equals :: value :: .comma :: rest
  | name :: .equals :: value :: .semicolon :: rest
  | name :: .equals :: value :: rest => do
    let entry ← entry? name value
    let (more, after) ← attributes rest
    return (entry :: more, after)
  | _ => none

def attributeList : List Token → Option (List Attribute × List Token)
  | .openBracket :: rest => attributes rest
  | rest => some ([], rest)

/-- The nodes that the arrows of a path lead to. -/
def targets : List Token → Option (List String × List Token)
  | .arrow :: node :: rest => do
    let name ← node.name?
    let (more, after) ← targets rest
    return (name :: more, after)
  | .arrow :: [] => none
  | rest => some ([], rest)

def statement : List Token → Option (Statement × List Token)
  | .word "graph" :: .openBracket :: rest => defaults "graph" rest
  | .word "node" :: .openBracket :: rest => defaults "node" rest
  | .word "edge" :: .openBracket :: rest => defaults "edge" rest
  | name :: .equals :: value :: rest => do
    return (.setting (← entry? name value), rest)
  | node :: rest => do
    let first ← node.name?
    let (others, afterPath) ← targets rest
    let (attributes, after) ← attributeList afterPath
    return (.path first others attributes, after)
  | [] => none
where
  defaults (kind : String) (rest : List Token) : Option (Statement × List Token) := do
    let (found, after) ← attributes rest
    return (.defaults kind found, after)

def skipSemicolon : List Token → List Token
  | .semicolon :: rest => rest
  | rest => rest

/-- The statements up to a closing brace. -/
def statements (s : List Token) : Option (List Statement × List Token) :=
  match s with
  | .closeBrace :: rest => some ([], rest)
  | s =>
    match statement s with
    | some (first, rest) =>
      let left := skipSemicolon rest
      -- a statement takes at least one token
      if left.length < s.length then do
        let (more, after) ← statements left
        return (first :: more, after)
      else none
    | none => none
termination_by s.length

def graph : List Token → Option Graph
  | .word "digraph" :: name :: .openBrace :: rest => do
    let name ← name.name?
    match ← statements rest with
    | (found, []) => some ⟨name, found⟩
    | _ => none
  | _ => none

def read (text : String) : Option Graph := do
  graph (← tokens text.toList)

section Statements

variable {s rest : List Token} {first : Statement}

theorem statement_closeBrace : statement (.closeBrace :: rest) = none := by
  unfold statement
  split <;> rename_i heq <;> cases heq <;> rfl

theorem statements_cons (hfirst : statement s = some (first, .semicolon :: rest))
    (hlength : rest.length < s.length) :
    statements s = (statements rest).map fun read => (first :: read.1, read.2) := by
  have hbrace : ∀ rest, s ≠ .closeBrace :: rest := by
    rintro rest rfl
    cases statement_closeBrace.symm.trans hfirst
  rw [statements]
  · simp only [hfirst, skipSemicolon, hlength]
    cases statements rest <;> simp
  · exact hbrace

end Statements

/-! ## Plain texts -/

/-- Whether a text that stands between quotes is read as it is. -/
def isPlain : List Char → Bool
  | [] => true
  | '"' :: _ => false
  | '\\' :: '\\' :: more => isPlain more
  | '\\' :: c :: more => c != '"' && c != '\n' && isPlain (c :: more)
  | ['\\'] => false
  | _ :: more => isPlain more

variable {s text after rest : List Char} {c : Char}

theorem quotedText_cons (hquote : c ≠ '"') (hbackslash : c ≠ '\\') :
    quotedText (c :: s) = (quotedText s).map fun (text, after) => (c :: text, after) := by
  rw [quotedText] <;> simp [hquote, hbackslash]

/-- A text that was read has no single backslash at the end of a line. -/
theorem quotedText_ne_continued : quotedText s ≠ some ('\\' :: '\n' :: text, after) := by
  fun_induction quotedText s with
  | case1 | case2 => simp
  | case3 c more meant hescape ih =>
      intro h
      obtain ⟨⟨text', after'⟩, hmore, heq⟩ := Option.map_eq_some_iff.mp h
      unfold escape? at hescape
      split at hescape <;> cases hescape
      · simp at heq
      · simp at heq
      · cases heq
        exact ih hmore
  | case4 c more hescape ih =>
      intro h
      obtain ⟨⟨text', after'⟩, hmore, heq⟩ := Option.map_eq_some_iff.mp h
      obtain ⟨rfl, rfl⟩ : text' = '\n' :: text ∧ after' = after := by simpa using heq
      -- a backslash that stands for itself is not followed by the end of a line
      have hquote : c ≠ '"' := by rintro rfl; cases hescape
      have hbackslash : c ≠ '\\' := by rintro rfl; cases hescape
      rw [quotedText_cons hquote hbackslash] at hmore
      obtain ⟨_, _, hread⟩ := Option.map_eq_some_iff.mp hmore
      obtain rfl : c = '\n' := (List.cons.inj (Prod.mk.inj hread).1).1
      cases hescape
  | case5 c more hquote hpair ih =>
      intro h
      obtain ⟨⟨text', after'⟩, hmore, heq⟩ := Option.map_eq_some_iff.mp h
      obtain ⟨⟨rfl, -⟩, -⟩ : (c = '\\' ∧ text' = '\n' :: text) ∧ after' = after := by
        simpa using heq
      cases more with
      | nil => cases hmore
      | cons d more => exact hpair d more rfl rfl

theorem quotedText_eq_self_iff :
    quotedText (text ++ '"' :: rest) = some (text, after) ↔ isPlain text ∧ after = rest := by
  fun_induction isPlain text with
  | case1 => simp [quotedText, eq_comm]
  | case2 more => simp [quotedText]
  | case3 more ih => simp [quotedText, escape?, ← ih]
  | case4 c more hpair ih =>
      by_cases hquote : c = '"'
      · simp [hquote, quotedText, escape?]
      by_cases hend : c = '\n'
      · simpa [hend, quotedText, escape?] using quotedText_ne_continued
      have hescape : escape? c = none := by simp [escape?]
      rw [List.cons_append, List.cons_append, quotedText, hescape]
      simpa [hquote, hend] using ih
  | case5 => simp [quotedText, escape?]
  | case6 c more hquote hpair hescape hsingle ih =>
      have hbackslash : c ≠ '\\' := by
        rintro rfl
        cases more with
        | nil => exact hsingle rfl rfl
        | cons d more => exact hescape d more rfl rfl
      rw [List.cons_append, quotedText_cons hquote hbackslash]
      simpa using ih

theorem quotedText_append (h : quotedText s = some (text, after)) :
    quotedText (s ++ rest) = some (text, after ++ rest) := by
  fun_induction quotedText s generalizing text with
  | case1 => cases h
  | case2 =>
      cases h
      rfl
  | case3 c more meant hescape ih | case4 c more hescape ih =>
      obtain ⟨_, hmore, heq⟩ := Option.map_eq_some_iff.mp h
      cases heq
      simpa [quotedText, hescape] using ih hmore
  | case5 c more hquote hpair ih =>
      obtain ⟨_, hmore, heq⟩ := Option.map_eq_some_iff.mp h
      cases heq
      cases more with
      | nil => cases hmore
      | cons d more =>
          have hbackslash : c ≠ '\\' := fun h => hpair d more h rfl
          rw [List.cons_append, quotedText_cons hquote hbackslash, ih hmore]
          rfl

/-! ## Phrases and texts between quotes -/

theorem tokens_quote : tokens ('"' :: s) = (quotedText s).bind fun read =>
    (tokens read.2).map (.quoted (String.ofList read.1) :: ·) := by
  rw [tokens]
  split
  · next hread => simp [hread]
  · next hread => simp [hread]

theorem tokens_cons (hquote : c ≠ '"') (hdash : c ≠ '-') :
    tokens (c :: s) =
      if isGap c then tokens s
      else if isWordStart c then
        (tokens (s.dropWhile isWordChar)).map
          (.word (String.ofList (c :: s.takeWhile isWordChar)) :: ·)
      else
        match mark? c with
        | some mark => (tokens s).map (mark :: ·)
        | none => none := by
  rw [tokens] <;> simp [hquote, hdash]

/-- Whether a text does not end within a word. -/
def EndsApart (s : List Char) : Prop := ∀ c ∈ s.getLast?, isWordChar c = false

theorem EndsApart.suffix (hends : EndsApart s) (hsuffix : after <:+ s) : EndsApart after := by
  obtain ⟨before, rfl⟩ := hsuffix
  intro c hc
  exact hends c (by simp [List.getLast?_append, Option.mem_def.mp hc])

/-- A word ends before a text that does not end within a word does. -/
theorem EndsApart.dropWhile_ne_nil (hends : EndsApart (c :: s)) (hstart : isWordStart c) :
    s.dropWhile isWordChar ≠ [] := by
  intro hnil
  have hall : ∀ d ∈ c :: s, isWordChar d := by
    rw [List.forall_mem_cons]
    exact ⟨by simp [isWordChar, hstart], List.dropWhile_eq_nil_iff.mp hnil⟩
  have hlast := List.getLast?_eq_some_getLast (List.cons_ne_nil c s)
  have hword := hall _ (List.getLast_mem (List.cons_ne_nil c s))
  rw [hends _ hlast] at hword
  cases hword

variable {found : List Token}

/-- How a text is read does not depend on what comes after it, unless it ends within a word. -/
theorem tokens_append (hread : tokens s = some found) (hends : EndsApart s) :
    tokens (s ++ rest) = (tokens rest).map (found ++ ·) := by
  fun_induction tokens s generalizing found with
  | case1 =>
      cases hread
      simp
  | case2 s text after hquoted _ ih =>
      obtain ⟨more, hmore, rfl⟩ := Option.map_eq_some_iff.mp hread
      have hsuffix := (quotedText_suffix hquoted).1.trans (List.suffix_cons '"' s)
      rw [List.cons_append, tokens_quote, quotedText_append hquoted, Option.bind_some,
        ih hmore (hends.suffix hsuffix)]
      simp [Function.comp_def]
  | case4 s ih =>
      obtain ⟨more, hmore, rfl⟩ := Option.map_eq_some_iff.mp hread
      rw [List.cons_append, List.cons_append, tokens, ih hmore (hends.suffix ⟨['-', '>'], rfl⟩)]
      simp [Function.comp_def]
  | case5 c s hquote _ hgap ih =>
      have hdash : c ≠ '-' := by rintro rfl; cases hgap
      rw [List.cons_append, tokens_cons hquote hdash, if_pos hgap]
      exact ih hread (hends.suffix (List.suffix_cons c s))
  | case6 c s hquote _ hgap hstart _ ih =>
      obtain ⟨more, hmore, rfl⟩ := Option.map_eq_some_iff.mp hread
      have hdash : c ≠ '-' := by rintro rfl; cases hstart
      have hrest := hends.dropWhile_ne_nil hstart
      have hshort : (s.takeWhile isWordChar).length ≠ s.length := fun hlength =>
        hrest (List.append_right_eq_self.mp (List.takeWhile_append_dropWhile.trans
          ((List.takeWhile_prefix _).eq_of_length hlength).symm))
      have hsuffix := (List.dropWhile_suffix isWordChar).trans (List.suffix_cons c s)
      rw [List.cons_append, tokens_cons hquote hdash, if_neg hgap, if_pos hstart,
        List.dropWhile_append, List.takeWhile_append, if_neg hshort, if_neg (by simpa using hrest),
        ih hmore (hends.suffix hsuffix)]
      simp [Function.comp_def]
  | case7 c s hquote _ hgap hstart mark hmark ih =>
      obtain ⟨more, hmore, rfl⟩ := Option.map_eq_some_iff.mp hread
      have hdash : c ≠ '-' := by rintro rfl; cases hmark
      rw [List.cons_append, tokens_cons hquote hdash, if_neg hgap, if_neg hstart, hmark,
        ih hmore (hends.suffix (List.suffix_cons c s))]
      simp [Function.comp_def]
  | case3 | case8 => cases hread

instance (s : List Char) : Decidable (EndsApart s) :=
  decidable_of_iff (s.getLast?.all fun c => !isWordChar c) (by
    rw [EndsApart]
    cases s.getLast? <;> simp)

/-- A text that is read in one way whatever comes after it. -/
structure Phrase where
  text : String
  tokens : List Token
  reads : Dot.tokens text.toList = some tokens := by decide +kernel
  endsApart : EndsApart text.toList := by decide +kernel

/-- What a text is put together from. -/
inductive Piece where
  | fixed (phrase : Phrase)
  | quoted (text : String)

namespace Piece

def chars : Piece → List Char
  | .fixed phrase => phrase.text.toList
  | .quoted text => '"' :: text.toList ++ ['"']

def tokens : Piece → List Token
  | .fixed phrase => phrase.tokens
  | .quoted text => [.quoted text]

end Piece

theorem tokens_phrase_iff (phrase : Phrase) :
    tokens (phrase.text.toList ++ rest) = some (phrase.tokens ++ found) ↔
      tokens rest = some found := by
  rw [tokens_append phrase.reads phrase.endsApart]
  cases tokens rest <;> simp

/-- A text between quotes ends where it was meant to exactly when it is plain. -/
theorem tokens_quoted_iff (text : String) :
    tokens ('"' :: text.toList ++ '"' :: rest) = some (.quoted text :: found) ↔
      isPlain text.toList ∧ tokens rest = some found := by
  rw [List.cons_append, tokens_quote]
  constructor
  · intro h
    obtain ⟨⟨held, after⟩, hquoted, hmore⟩ := Option.bind_eq_some_iff.mp h
    obtain ⟨more, hafter, heq⟩ := Option.map_eq_some_iff.mp hmore
    obtain ⟨hheld, rfl⟩ : String.ofList held = text ∧ more = found := by simpa using heq
    rw [← hheld, String.toList_ofList] at hquoted ⊢
    obtain ⟨hplain, rfl⟩ := quotedText_eq_self_iff.mp hquoted
    exact ⟨hplain, hafter⟩
  · rintro ⟨hplain, hrest⟩
    rw [quotedText_eq_self_iff.mpr ⟨hplain, rfl⟩, Option.bind_some, hrest]
    simp

/-- What is put together from pieces is read piece by piece exactly when the texts between quotes
are plain. -/
theorem tokens_pieces_iff (pieces : List Piece) :
    tokens (pieces.flatMap Piece.chars) = some (pieces.flatMap Piece.tokens) ↔
      ∀ text, .quoted text ∈ pieces → isPlain text.toList := by
  induction pieces with
  | nil => simp [tokens]
  | cons piece pieces ih =>
      rw [List.flatMap_cons, List.flatMap_cons]
      cases piece with
      | fixed phrase =>
          rw [Piece.chars, Piece.tokens, tokens_phrase_iff, ih]
          simp
      | quoted text =>
          have hchars : (Piece.quoted text).chars ++ pieces.flatMap Piece.chars =
              '"' :: text.toList ++ '"' :: pieces.flatMap Piece.chars := by simp [Piece.chars]
          rw [hchars, Piece.tokens, List.singleton_append, tokens_quoted_iff, ih]
          simp

end EntryPoints.Dot
