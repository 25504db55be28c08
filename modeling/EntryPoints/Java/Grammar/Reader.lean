import EntryPoints.Java.Tree

/-!
# Readers of tokens

A reader takes tokens off the front of a list and builds nodes of them, or refuses.
A reader that refuses has taken nothing, so the next alternative starts from the same
place.

The constructs of Java contain each other.  A rule therefore reads its parts through a
`Grammar`, which knows how to read every construct, and `Grammar.atDepth` closes the
circle: at depth `n + 1` a construct is read by its rule with the grammar of depth `n`.
Repetitions take at most as many rounds as the file has tokens.
-/

namespace EntryPoints.Java

abbrev Reader := StateT (List Token) Option

/-- The constructs that other constructs contain. -/
inductive Construct where
  | expression
  | unary
  | type
  | annotationUse
  | arguments
  | arrayInitializer
  | switchBody
  | statement
  | block
  | classBody
  | typeDeclaration
deriving DecidableEq, Repr

structure Grammar where
  /-- A bound on the rounds of every repetition. -/
  rounds : Nat
  read : Construct → Reader Node

/-- The grammar that reads constructs nested at most `depth` deep. -/
def Grammar.atDepth (rounds : Nat) (rule : Grammar → Construct → Reader Node) : Nat → Grammar
  | 0 => ⟨rounds, fun _ _ => none⟩
  | depth + 1 => ⟨rounds, fun construct => rule (atDepth rounds rule depth) construct⟩

namespace Reader

variable {α : Type}

def token (accepts : Token → Bool) : Reader Token
  | t :: rest => if accepts t then some (t, rest) else none
  | [] => none

def leaf (kind : Kind) (t : Token) : Node := { kind, span := t.span, text := t.text }

def isSymbol (text : String) (t : Token) : Bool := t.kind == .symbol && t.text == text

def isWord (text : String) (t : Token) : Bool := t.kind == .word && t.text == text

def symbol (text : String) : Reader Node := leaf .symbol <$> token (isSymbol text)

def keyword (text : String) : Reader Node := leaf .keyword <$> token (isWord text)

def name : Reader Node := leaf .identifier <$> token Token.isName

/-- Whether the next tokens are the given words or symbols. -/
def ahead (texts : List String) : Reader Bool := fun tokens =>
  let next := (tokens.take texts.length).filter fun t => t.kind == .word || t.kind == .symbol
  some (next.map Token.text == texts, tokens)

/-- Whether a condition holds of the tokens that are left. -/
def aheadIs (condition : List Token → Bool) : Reader Bool := fun tokens =>
  some (condition tokens, tokens)

def ensure (condition : List Token → Bool) : Reader Unit := fun tokens =>
  if condition tokens then some ((), tokens) else none

def maybe (reader : Reader α) : Reader (Option α) := some <$> reader <|> pure none

/-- Reads a node if it can, as a list of at most one. -/
def atMostOne (reader : Reader Node) : Reader (List Node) := Option.toList <$> maybe reader

/-- Whether a reader succeeds here; takes nothing. -/
def test (reader : Reader α) : Reader Bool := fun tokens => some ((reader tokens).isSome, tokens)

def many (reader : Reader α) : (rounds : Nat) → Reader (List α)
  | 0 => return []
  | rounds + 1 => do
    match ← maybe reader with
    | none => return []
    | some a => return a :: (← many reader rounds)

/-- Nodes with a separator between them; the separators are kept. -/
def separated (separator : String) (reader : Reader Node) (rounds : Nat) : Reader (List Node) := do
  let first ← reader
  let rest ← many (do return [← symbol separator, ← reader]) rounds
  return first :: rest.flatten

/-- Like `separated`, but there may be nothing. -/
def listOf (reader : Reader Node) (rounds : Nat) : Reader (List Node) :=
  separated "," reader rounds <|> pure []

/-- A symbol is ahead, or one of several words. -/
def nextText (tokens : List Token) : String :=
  match tokens with
  | t :: _ => if t.kind == .word || t.kind == .symbol then t.text else ""
  | [] => ""

/-- The tokens after a group that starts with an opening parenthesis. -/
def afterGroup : (depth : Nat) → List Token → List Token
  | _, [] => []
  | depth, t :: rest =>
    if isSymbol "(" t then afterGroup (depth + 1) rest
    else if isSymbol ")" t then if depth ≤ 1 then rest else afterGroup (depth - 1) rest
    else afterGroup depth rest

end Reader

end EntryPoints.Java
