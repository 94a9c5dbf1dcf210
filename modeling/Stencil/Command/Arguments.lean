import Stencil.Text.Word

/-!
# Arguments

How the words of a command line are told apart: options with and without values, in full, shortened
or run together, and plain words. After a word of two hyphens all words are plain.
-/

namespace Stencil.Command

/-- An option. -/
structure OptionSpec where
  /-- The name after two hyphens. -/
  long : Text
  /-- The letter after one hyphen. -/
  short : Option Char
  takesValue : Bool
  /-- The values that the option may have, if not all. -/
  choices : Option (List Text)

namespace OptionSpec

/-- An option without a value. -/
def flag (long : String) (short : Option Char) : OptionSpec := ⟨long.toList, short, false, none⟩

/-- An option with a value. -/
def valued (long : String) (short : Option Char) : OptionSpec := ⟨long.toList, short, true, none⟩

/-- An option with one of several values. -/
def choice (long : String) (choices : List Text) : OptionSpec :=
  ⟨long.toList, none, true, some choices⟩

/-- The option that asks for help. -/
def help : OptionSpec := flag "help" (some 'h')

/-- Whether an option may have a value. -/
def allows (spec : OptionSpec) (value : Text) : Bool :=
  match spec.choices with
  | some choices => choices.contains value
  | none => true

end OptionSpec

/-- Why a command line is not carried out. -/
inductive Stop
  /-- The user asked for help. -/
  | help
  /-- The command line is wrong. -/
  | usage
deriving DecidableEq, Repr

/-- What a word of a command line is. -/
inductive Token
  | word (s : Text)
  /-- Two hyphens. -/
  | separator
  /-- An option by its long name, with the value attached to it. -/
  | long (spec : OptionSpec) (attached : Option Text)
  /-- An option by its letter, with the characters that follow the letter. -/
  | short (spec : OptionSpec) (attached : Text)
  /-- An option that there is not. -/
  | unknown
  /-- A beginning of several long names. -/
  | ambiguous

/-- Whether what follows a hyphen is a number, which makes the word a plain one. A line break may
end it. -/
def isNegativeNumber (rest : Text) : Bool :=
  let digits := if rest.getLast? == some '\n' then rest.dropLast else rest
  match digits.dropWhile Text.isDecimal with
  | [] => !digits.isEmpty
  | '.' :: places => !places.isEmpty && places.all Text.isDecimal
  | _ => false

/-- A word with an equals sign cut at the first one. -/
def attachedValue (s : Text) : Text × Option Text :=
  match Text.cut? ['='] s with
  | some (name, value) => (name, some value)
  | none => (s, none)

/-- The option of a letter. -/
def ofLetter? (specs : List OptionSpec) (letter : Char) : Option OptionSpec :=
  specs.find? (·.short == some letter)

/-- A word that is no option. -/
def plain (s rest : Text) : Token :=
  if isNegativeNumber rest || s.contains ' ' then .word s else .unknown

/-- What a word is before any separator. -/
def classify (specs : List OptionSpec) (s : Text) : Token :=
  match s with
  | ['-', '-'] => .separator
  | '-' :: '-' :: rest =>
    let (name, value) := attachedValue rest
    match specs.find? (·.long == rest), specs.find? (·.long == name) with
    | some spec, _ => .long spec none
    | none, some spec => .long spec value
    | none, none =>
      match specs.filter (name.isPrefixOf ·.long) with
      | [] => plain s ('-' :: rest)
      | [spec] => .long spec value
      | _ => .ambiguous
  | '-' :: letter :: rest =>
    match ofLetter? specs letter with
    | some spec => .short spec rest
    | none => plain s (letter :: rest)
  | _ => .word s

/-- What the words of a command line are. -/
def tokens (specs : List OptionSpec) : List Text → List Token
  | [] => []
  | s :: rest =>
    match classify specs s with
    | .separator => .separator :: rest.map .word
    | token => token :: tokens specs rest

/-- Options with the values attached to them. -/
structure Chain where
  options : List (OptionSpec × Option Text)
  /-- Whether letters follow that are no options. -/
  excess : Bool

/-- An option by its letter with what is attached to it: a value, or the letters of further options
if this one takes no value. -/
def unchain? (specs : List OptionSpec) (spec : OptionSpec) : Text → Option Chain
  | [] => some ⟨[(spec, none)], false⟩
  | '=' :: value => if spec.takesValue then some ⟨[(spec, some value)], false⟩ else none
  | letter :: rest =>
    if spec.takesValue then some ⟨[(spec, some (letter :: rest))], false⟩
    else if letter == '-' then none
    else
      match ofLetter? specs letter with
      | none => some ⟨[(spec, none)], true⟩
      | some next =>
        (unchain? specs next rest).map fun chain =>
          { chain with options := (spec, none) :: chain.options }

/-- The options that a token names. -/
def chain? (specs : List OptionSpec) : Token → Option Chain
  | .long spec attached =>
    if attached.isSome && !spec.takesValue then none else some ⟨[(spec, attached)], false⟩
  | .short spec attached => unchain? specs spec attached
  | _ => none

/-- What a command line gives: values by option, flags with an empty value, and one plain word. -/
structure Given where
  options : List (Text × Text)
  word : Option Text
  /-- Whether there is something that cannot be taken up. -/
  excess : Bool

namespace Given

/-- Nothing yet. -/
def empty : Given := ⟨[], none, false⟩

/-- All values of an option, in order. -/
def values (g : Given) (long : String) : List Text :=
  g.options.filterMap fun (name, value) => if name == long.toList then some value else none

/-- The last value of an option. -/
def value? (g : Given) (long : String) : Option Text := (g.values long).getLast?

/-- The last value of an option, or its usual value. -/
def valueOr (g : Given) (long : String) (usual : Text) : Text := (g.value? long).getD usual

/-- What is given with an option added. -/
def add (g : Given) (option : OptionSpec × Text) : Except Stop Given :=
  if option.1.long == OptionSpec.help.long then .error .help
  else if option.1.takesValue && !option.1.allows option.2 then .error .usage
  else .ok { g with options := g.options ++ [(option.1.long, option.2)] }

/-- What is given with the options of a chain added; the last one takes its value from `next` if it
needs one. Also whether it did so. -/
def addAll (g : Given) (chain : Chain) (next : Option Text) : Except Stop (Given × Bool) :=
  let start := { g with excess := g.excess || chain.excess }
  let addWith (value : Text) := (chain.options.map fun o => (o.1, o.2.getD value)).foldlM add start
  match chain.options.getLast? with
  | some (⟨_, _, true, _⟩, none) =>
    match next with
    | some value => (addWith value).map (·, true)
    | none => .error .usage
  | _ => (addWith []).map (·, false)

end Given

/-- The text of a token that is a plain word. -/
def Token.word? : Token → Option Text
  | word s => some s
  | _ => none

/-- Reads tokens. A separator belongs to the plain word beside it; `fresh` says that the plain word
stood just before. -/
def readTokens (specs : List OptionSpec) (g : Given) (fresh : Bool) :
    List Token → Except Stop Given
  | [] => .ok g
  | .word s :: rest =>
    if g.word.isNone then readTokens specs { g with word := some s } true rest
    else readTokens specs { g with excess := true } false rest
  | .separator :: rest =>
    readTokens specs { g with excess := g.excess || (g.word.isSome && !fresh) } fresh rest
  | .unknown :: rest => readTokens specs { g with excess := true } false rest
  | .ambiguous :: _ => .error .usage
  | token :: next :: rest =>
    match chain? specs token with
    | none => .error .usage
    | some chain => do
      let (given, taken) ← g.addAll chain next.word?
      if taken then readTokens specs given false rest
      else readTokens specs given false (next :: rest)
  | [token] =>
    match chain? specs token with
    | none => .error .usage
    | some chain => (g.addAll chain none).map (·.1)

/-- Whether a token is the beginning of several names. -/
def Token.isAmbiguous : Token → Bool
  | ambiguous => true
  | _ => false

/-- Reads the words after a command. -/
def readWords (specs : List OptionSpec) (words : List Text) : Except Stop Given := do
  let tokens := tokens specs words
  if tokens.any Token.isAmbiguous then .error .usage
  else
    let given ← readTokens specs .empty false tokens
    if given.excess then .error .usage else return given

end Stencil.Command
