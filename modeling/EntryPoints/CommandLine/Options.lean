import EntryPoints.Text.Numeral

/-!
# Options on a command line

Arguments that start with a dash are options, and the others are words.  A long option
may be cut short as long as only one fits, and takes a value after an equals sign.  A
short one takes its value right behind it, and short ones without values may stand
together.  An option without its value takes it from the next word.  What looks like a
negative number or holds a space is a word unless it starts like an option.  After a
double dash everything is a word.

The words are values, as many as are wanted.  The double dash next to a value vanishes;
one more double dash, where a value is wanted, gives no value.
-/

namespace EntryPoints.CommandLine

inductive OptionName where
  | help
  | verbose
  | output
  | maxDepth
  | includeTests
deriving DecidableEq, Repr, Inhabited

namespace OptionName

def long : OptionName → String
  | help => "help"
  | verbose => "verbose"
  | output => "output"
  | maxDepth => "max-depth"
  | includeTests => "include-tests"

def short? : OptionName → Option Char
  | help => some 'h'
  | verbose => some 'v'
  | output => some 'o'
  | maxDepth => none
  | includeTests => none

def takesValue : OptionName → Bool
  | output | maxDepth => true
  | _ => false

end OptionName

/-- Why arguments cannot be understood. -/
inductive UsageFault where
  | ambiguousOption (text : String)
  | unexpectedValue (option : OptionName) (text : String)
  | valueMissing (option : OptionName)
  | notInteger (option : OptionName) (text : String)
  | unknownCommand (text : String)
  | argumentMissing
  | unrecognized (texts : List String)
deriving DecidableEq, Repr, Inhabited

def UsageFault.message : UsageFault → String
  | ambiguousOption text => "ambiguous option: " ++ text
  | unexpectedValue option text => "--" ++ option.long ++ ": unexpected value " ++ text
  | valueMissing option => "--" ++ option.long ++ ": value expected"
  | notInteger option text => "--" ++ option.long ++ ": not an integer: " ++ text
  | unknownCommand text => "unknown command: " ++ text
  | argumentMissing => "argument missing"
  | unrecognized texts => "unrecognized arguments: " ++ Text.joinWith " " texts

/-- Why the reading of arguments ends before all are read. -/
inductive Stop where
  | helpWanted
  | fault (fault : UsageFault)
deriving DecidableEq, Repr, Inhabited

/-- What stands behind the name of an option in one argument. -/
structure Attached where
  /-- Whether an equals sign stands between. -/
  isJoined : Bool
  text : List Char
deriving DecidableEq, Repr, Inhabited

inductive Token where
  | separator
  | word (text : String)
  | option (name : OptionName) (isShort : Bool) (attached : Option Attached) (text : String)
  /-- An argument that starts like an option that is not known. -/
  | unknown (text : String)
deriving DecidableEq, Repr, Inhabited

namespace Token

def text : Token → String
  | separator => "--"
  | word text => text
  | option _ _ _ text => text
  | unknown text => text

/-- The option of a name that is written out, and whether it is the short one. -/
def named? (known : List OptionName) : List Char → Option (OptionName × Bool)
  | '-' :: '-' :: name => (known.find? (·.long.toList = name)).map (·, false)
  | ['-', c] => (known.find? (·.short? = some c)).map (·, true)
  | _ => none

/-- The options that an argument may stand for that names none in full. -/
def readings (known : List OptionName) (attached : Option Attached) (text : String) :
    List Char → List Token
  | '-' :: '-' :: name =>
    (known.filter fun o => (Text.beforeFirst '=' name).isPrefixOf o.long.toList).map
      (option · false attached text)
  | '-' :: c :: rest =>
    (known.filter (·.short? = some c)).map (option · true (some ⟨false, rest⟩) text)
  | _ => []

/-- What an argument before the double dash is. -/
def ofText (known : List OptionName) (text : String) : Except UsageFault Token :=
  let s := text.toList
  let (name, value) := Text.cutFirst '=' s
  let attached : Option Attached := if '=' ∈ s then some ⟨true, value⟩ else none
  if s.head? ≠ some '-' ∨ s = ['-'] then .ok (word text)
  else
    match named? known s, named? known name with
    | some (o, isShort), _ => .ok (option o isShort none text)
    | none, some (o, isShort) => .ok (option o isShort attached text)
    | none, none =>
      match readings known attached text s with
      | [reading] => .ok reading
      | _ :: _ :: _ => .error (.ambiguousOption text)
      | [] => .ok (if Text.looksNegative s || ' ' ∈ s then word text else unknown text)

def ofTexts (known : List OptionName) : List String → Except UsageFault (List Token)
  | [] => .ok []
  | text :: rest =>
    if text = "--" then .ok (separator :: rest.map word)
    else do return (← ofText known text) :: (← ofTexts known rest)

end Token

/-! ## Options in one argument -/

/-- An option with its value, if it has one. -/
abbrev Use := OptionName × Option String

/-- What is left to do after the options in one argument. -/
inductive Leftover where
  | nothing
  /-- The last option takes its value from the next word. -/
  | wantsValue (option : OptionName)
  | unknown (text : String)
deriving DecidableEq, Repr, Inhabited

/-- What stands behind an option in a row of short ones. -/
def attachedBehind : List Char → Option Attached
  | [] => none
  | '=' :: value => some ⟨true, value⟩
  | more => some ⟨false, more⟩

theorem length_attachedBehind {more : List Char} {attached : Attached}
    (h : attachedBehind more = some attached) : attached.text.length ≤ more.length := by
  unfold attachedBehind at h
  split at h <;> simp at h <;> subst h <;> simp

def unfoldOption (known : List OptionName) (name : OptionName) (isShort : Bool) :
    Option Attached → Except UsageFault (List Use × Leftover)
  | none => .ok (if name.takesValue then ([], .wantsValue name) else ([(name, none)], .nothing))
  | some attached =>
    if name.takesValue then .ok ([(name, some (String.ofList attached.text))], .nothing)
    else
      match _h : attached.text with
      | [] => .error (.unexpectedValue name "")
      | c :: more =>
        if !isShort || attached.isJoined || c = '-' then
          .error (.unexpectedValue name (String.ofList attached.text))
        else
          match known.find? (·.short? = some c) with
          | none => .ok ([(name, none)], .unknown (String.ofList ('-' :: attached.text)))
          | some next =>
            match _k : attachedBehind more with
            | none =>
              (unfoldOption known next true none).map fun (uses, left) =>
                ((name, none) :: uses, left)
            | some behind =>
              have := length_attachedBehind _k
              (unfoldOption known next true (some behind)).map fun (uses, left) =>
                ((name, none) :: uses, left)
termination_by attached => (attached.map fun a => a.text.length + 1).getD 0
decreasing_by
  · simp only [Option.map_none, Option.getD_none, Option.map_some, Option.getD_some]
    omega
  · simp only [Option.map_some, Option.getD_some, _h, List.length_cons]
    omega

/-! ## Reading from left to right -/

structure Reading where
  options : List Use := []
  values : List (Option String) := []
  unrecognized : List String := []
deriving DecidableEq, Repr, Inhabited

namespace Reading

/-- The last value of an option. -/
def valueOf (r : Reading) (name : OptionName) : Option String :=
  (r.options.reverse.find? (·.1 = name)).bind (·.2)

def has (r : Reading) (name : OptionName) : Bool := r.options.any (·.1 = name)

/-- Takes an option up: asking for help ends the reading, and a depth has to be an
integer. -/
def take (r : Reading) (use : Use) : Except Stop Reading :=
  match use with
  | (.help, _) => .error .helpWanted
  | (.maxDepth, some text) =>
    if (Text.integer? text).isSome then .ok { r with options := r.options ++ [use] }
    else .error (.fault (.notInteger .maxDepth text))
  | use => .ok { r with options := r.options ++ [use] }

def takeAll (r : Reading) (uses : List Use) : Except Stop Reading := uses.foldlM take r

def leave (r : Reading) (text : String) : Reading :=
  { r with unrecognized := r.unrecognized ++ [text] }

def addValue (r : Reading) (text : String) : Reading :=
  { r with values := r.values ++ [if text = "--" then none else some text] }

/-- Takes up an option and tells which tokens come next. -/
def takeOption (known : List OptionName) (r : Reading) (name : OptionName) (isShort : Bool)
    (attached : Option Attached) (rest : List Token) :
    Except Stop (Reading × { next : List Token // next.length ≤ rest.length }) :=
  match unfoldOption known name isShort attached with
  | .error fault => .error (.fault fault)
  | .ok (uses, .nothing) => (r.takeAll uses).map (·, ⟨rest, Nat.le_refl _⟩)
  | .ok (uses, .unknown text) =>
    (r.takeAll uses).map fun r => (r.leave text, ⟨rest, Nat.le_refl _⟩)
  | .ok (uses, .wantsValue option) =>
    match rest with
    | .word value :: next =>
      (r.takeAll (uses ++ [(option, some value)])).map (·, ⟨next, by simp⟩)
    | _ => .error (.fault (.valueMissing option))

end Reading

/-- Reads tokens of which `wanted` are values. -/
def readValues (known : List OptionName) (wanted : Nat) (tokens : List Token) (r : Reading) :
    Except Stop Reading :=
  match wanted, tokens with
  | 0, [] => .ok r
  | _ + 1, [] => .error (.fault .argumentMissing)
  | _, .option name isShort attached _ :: rest =>
    match r.takeOption known name isShort attached rest with
    | .error stop => .error stop
    | .ok (r, ⟨next, _⟩) => readValues known wanted next r
  | _, .unknown text :: rest => readValues known wanted rest (r.leave text)
  | wanted + 1, .separator :: .word text :: rest =>
    readValues known wanted rest { r with values := r.values ++ [some text] }
  | wanted + 1, .word text :: .separator :: rest => readValues known wanted rest (r.addValue text)
  | wanted + 1, .word text :: rest => readValues known wanted rest (r.addValue text)
  | _, token :: rest => readValues known wanted rest (r.leave token.text)
termination_by tokens.length

/-- Reads tokens up to the first word, which names a command; the tokens behind it are the
arguments of the command.  There may be none at all. -/
def readCommand (known : List OptionName) (tokens : List Token) (r : Reading) :
    Except Stop (Reading × Option (String × List String)) :=
  match tokens with
  | [] => .ok (r, none)
  | .option name isShort attached _ :: rest =>
    match r.takeOption known name isShort attached rest with
    | .error stop => .error stop
    | .ok (r, ⟨next, _⟩) => readCommand known next r
  | .unknown text :: rest => readCommand known rest (r.leave text)
  | .word text :: rest => .ok (r, some (text, rest.map Token.text))
  | .separator :: rest =>
    if rest.isEmpty then .ok (r.leave "--", none)
    else .ok (r, some ("--", rest.map Token.text))
termination_by tokens.length

end EntryPoints.CommandLine
