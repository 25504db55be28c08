/-!
# Tokens of Java text

A token is a piece of the text that the grammar reads as one symbol.  Comments are
kept apart: they may stand between any two tokens and are put back into the tree once
it is built.  Every piece knows the bytes it covers and the line it starts on.

A run of `>` is read one by one, because it may close several lists of type arguments;
the grammar joins them again where an operator is meant.
-/

namespace EntryPoints.Java

/-- The bytes that a piece of text covers, and the line on which it starts. -/
structure Span where
  start : Nat
  stop : Nat
  line : Nat
deriving DecidableEq, Repr, Inhabited

def Span.contains (outer inner : Span) : Bool :=
  decide (outer.start ≤ inner.start) && decide (inner.stop ≤ outer.stop)

inductive TokenKind where
  | word
  | integer
  | floating
  | character
  | string
  | symbol
deriving DecidableEq, Repr, Inhabited

structure Token where
  kind : TokenKind
  text : String
  span : Span
deriving DecidableEq, Repr, Inhabited

structure Comment where
  isBlock : Bool
  text : String
  span : Span
deriving DecidableEq, Repr, Inhabited

/-- A comment that opens with two asterisks documents what follows it. -/
def isDocComment (text : String) : Bool := "/**".toList.isPrefixOf text.toList

def reservedWords : List String :=
  ["abstract", "assert", "boolean", "break", "byte", "case", "catch", "char", "class", "const",
    "continue", "default", "do", "double", "else", "enum", "extends", "final", "finally",
    "float", "for", "goto", "if", "implements", "import", "instanceof", "int", "interface",
    "long", "native", "new", "package", "private", "protected", "public", "return", "short",
    "static", "strictfp", "super", "switch", "synchronized", "this", "throw", "throws",
    "transient", "try", "void", "volatile", "while", "true", "false", "null"]

def Token.isName (t : Token) : Bool := t.kind == .word && !reservedWords.contains t.text

end EntryPoints.Java
