import EntryPoints.Java.Lexer
import EntryPoints.Java.Grammar.Declarations

/-!
# From text to tree

The tokens of a file are read as a list of packages, imports, types and statements;
then the comments go where they belong.  A comment is given to the innermost construct
that has a token before and a token after it, which is found by walking down the tree
with the comments in the order of the text.

This is one parser among others: what is analyzed is a tree, and the analysis takes whatever
parser it is given.
-/

namespace EntryPoints.Java

def Comment.toNode (comment : Comment) : Node where
  kind := if comment.isBlock then .blockComment else .lineComment
  span := comment.span
  text := comment.text

/-- Splits off the comments that start before an offset. -/
def commentsBefore (offset : Nat) (comments : List Comment) : List Comment × List Comment :=
  comments.span fun c => decide (c.span.start < offset)

mutual

/-- Puts comments into a node, and hands back those that lie behind it. -/
def weave : Node → List Comment → Node × List Comment
  | ⟨kind, role, span, text, children⟩, comments =>
    let (children, comments) := weaveAll children comments
    (⟨kind, role, span, text, children⟩, comments)

def weaveAll : List Node → List Comment → List Node × List Comment
  | [], comments => ([], comments)
  | child :: rest, comments =>
    let (before, comments) := commentsBefore child.span.start comments
    let (child, comments) := weave child comments
    let (rest, comments) := weaveAll rest comments
    (before.map Comment.toNode ++ child :: rest, comments)

end

/-- The nodes of a file before its comments are put in. -/
def readFile (tokens : List Token) : Option (List Node) :=
  let rounds := tokens.length
  let grammar := Grammar.atDepth rounds Grammar.rule (4 * rounds + 16)
  match Reader.many (Grammar.fileItem grammar) rounds tokens with
  | some (items, []) => some items
  | _ => none

/-- The tree of a Java file; nothing when the text is no Java file. -/
def parse? (text : String) : Option Node := do
  let pieces ← Lexer.read text
  let items ← readFile pieces.tokens
  let (nodes, behind) := weaveAll items pieces.comments
  some { kind := .program, span := ⟨0, text.utf8ByteSize, 1⟩
         children := nodes ++ behind.map Comment.toNode }

/-- What turns the text of a file into a tree.  It gives a tree for every text. -/
abbrev Parser := String → Node

/-- The reader of this library.  A text that is no Java file gives a tree without parts. -/
def parse : Parser := fun text =>
  (parse? text).getD { kind := .program, span := ⟨0, text.utf8ByteSize, 1⟩ }

def slice (source : String) (span : Span) : String :=
  String.Pos.Raw.extract source ⟨span.start⟩ ⟨span.stop⟩

end EntryPoints.Java
