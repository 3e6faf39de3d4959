import Elementwise.Data.Quoted
import Elementwise.Unicode.Digit

/-!
# The options of the command line

Arguments are options, the values behind them, and paths of routine files.  An option is spelled
with one letter or with a word, which may be cut short as long as it is clear; letters can be joined
in one argument, and a value can be joined to its option.  All paths stand in one row: more paths
behind a later option are not recognized.

## What is here

* `Argument.ofText` — what an argument looks like.
* `Options.ofArguments` — the options that arguments spell, or why they spell none.
-/

set_option autoImplicit false
namespace Elementwise

/-- The options, in the order in which they are documented. -/
inductive Flag where
  | help
  | config
  | extraGlobal
  | format
  | output
  | verbose
deriving DecidableEq, Inhabited, Repr

namespace Flag

/-- All options. -/
def all : List Flag := [help, config, extraGlobal, format, output, verbose]

/-- The word of an option. -/
def word : Flag → Text
  | help => .ofString "--help"
  | config => .ofString "--config"
  | extraGlobal => .ofString "--global"
  | format => .ofString "--format"
  | output => .ofString "--output"
  | verbose => .ofString "--verbose"

/-- The letter of an option. -/
def letter : Flag → CodePoint
  | help => 'h'
  | config => 'c'
  | extraGlobal => 'g'
  | format => 'f'
  | output => 'o'
  | verbose => 'v'

/-- Whether an option has a value. -/
def hasValue : Flag → Bool
  | help | verbose => false
  | _ => true

/-- How messages call an option. -/
def label (f : Flag) : Text :=
  let short : Text := [.scalar '-', f.letter]
  if f = help then short ++ .scalar '/' :: f.word else f.word ++ .scalar '/' :: short

/-- The option with a letter. -/
def ofLetter? (c : CodePoint) : Option Flag := all.find? fun f => f.letter = c

/-- The option with a word. -/
def ofWord? (t : Text) : Option Flag := all.find? fun f => f.word = t

end Flag

/-! ## Arguments -/

/-- Why arguments spell no options. -/
inductive UsageError where
  | ambiguous (argument : Text) (candidates : List Flag)
  | missingValue (flag : Flag)
  | superfluousValue (flag : Flag) (value : Text)
  | unknownFormat (value : Text)
  | missingFiles
  | unrecognized (arguments : List Text)
deriving DecidableEq, Inhabited, Repr

/-- The wording of a usage error. -/
def UsageError.message : UsageError → Text
  | ambiguous argument candidates =>
    .ofString "ambiguous option: " ++ argument ++ .ofString " could match " ++
      Text.join (.ofString ", ") (candidates.map Flag.word)
  | missingValue f => .ofString "argument " ++ f.label ++ .ofString ": expected one argument"
  | superfluousValue f value =>
    .ofString "argument " ++ f.label ++ .ofString ": ignored explicit argument " ++
      Quoted.text value
  | unknownFormat value =>
    .ofString "argument " ++ Flag.format.label ++ .ofString ": invalid choice: " ++
      Quoted.text value ++ .ofString " (choose from 'json', 'text')"
  | missingFiles => .ofString "the following arguments are required: files"
  | unrecognized arguments =>
    .ofString "unrecognized arguments: " ++ Text.join [.scalar ' '] arguments

/-- What an argument looks like. -/
inductive Argument where
  /-- A path or the value of an option. -/
  | plain (text : Text)
  /-- An option spelled by its letter or its word, with what is joined to it. -/
  | flag (flag : Flag) (isLetter : Bool) (joined : Option Text) (text : Text)
  /-- Something that looks like an option and is none. -/
  | unknown (text : Text)
deriving DecidableEq, Inhabited, Repr

/-- The text of an argument. -/
def Argument.text : Argument → Text
  | plain t | flag _ _ _ t | unknown t => t

namespace Argument

/-- The argument behind which all others are plain. -/
def allPlain : Text := [.scalar '-', .scalar '-']

/-- A text up to its first equals sign, and what stands behind that. -/
def splitAtEquals : Text → Text × Option Text
  | [] => ([], none)
  | c :: t =>
    if c = '=' then ([], some t)
    else
      let (front, value) := splitAtEquals t
      (c :: front, value)

/-- Whether digits, with at most one point among or in front of them, make up a text. -/
def isUnsignedNumber (t : Text) : Bool :=
  let rest := t.dropWhile CodePoint.isDecimal
  match rest with
  | [] => !t.isEmpty
  | c :: part => c = '.' && !part.isEmpty && part.all CodePoint.isDecimal

/-- Whether a text is a negative number; a line feed at its end is overlooked. -/
def isNegativeNumber : Text → Bool
  | [] => false
  | c :: t =>
    c = '-' &&
      (isUnsignedNumber t || (t.getLast? = some (.scalar '\n') && isUnsignedNumber t.dropLast))

/-- An argument that starts with two hyphens: the word of an option, or the beginning of one. -/
def ofWord (t : Text) : Except UsageError (Option Argument) :=
  let (front, joined) := splitAtEquals t
  match Flag.ofWord? front with
  | some f => .ok (some (.flag f false joined t))
  | none =>
    match Flag.all.filter fun f => front.isPrefixOf f.word with
    | [] => .ok none
    | [f] => .ok (some (.flag f false joined t))
    | fs => .error (.ambiguous t fs)

/-- An argument that starts with one hyphen and a letter. -/
def ofLetters (c : CodePoint) (rest text : Text) : Option Argument :=
  (Flag.ofLetter? c).map fun f =>
    match rest with
    | [] => .flag f true none text
    | d :: more => if d = '=' then .flag f true (some more) text else .flag f true (some rest) text

/-- What an argument looks like that starts with a hyphen and spells no option. -/
def other (t : Text) : Argument :=
  if isNegativeNumber t || t.contains (.scalar ' ') then .plain t else .unknown t

/-- What an argument looks like. -/
def ofText (t : Text) : Except UsageError Argument :=
  match t with
  | first :: second :: rest =>
    if first ≠ '-' then .ok (.plain t)
    else if second = '-' then (ofWord t).map fun a => a.getD (other t)
    else .ok ((ofLetters second rest t).getD (other t))
  | _ => .ok (.plain t)

/-- What arguments look like.  All that stand behind two hyphens are plain, and these with them. -/
def ofTexts : List Text → Except UsageError (List Argument)
  | [] => .ok []
  | t :: ts =>
    if t = allPlain then .ok ((t :: ts).map .plain)
    else do
      let a ← ofText t
      return a :: (← ofTexts ts)

end Argument

/-! ## Options -/

/-- The formats of reports. -/
inductive Format where
  | json
  | listing
deriving DecidableEq, Inhabited, Repr

/-- What the command line asks for. -/
structure Options where
  files : List Text
  config : Text := []
  /-- Further globals in order.  Two hyphens joined to the option give no name. -/
  globals : List (Option Text) := []
  format : Format := .json
  output : Text := []
  isVerbose : Bool := false
deriving DecidableEq, Inhabited, Repr

/-- What a use of the command line comes to. -/
inductive Request where
  | help
  | compile (options : Options)
deriving DecidableEq, Inhabited, Repr

namespace Options

/-- An option with its value; a value of two hyphens counts as none. -/
structure Setting where
  flag : Flag
  value : Option Text := none
deriving DecidableEq, Inhabited, Repr

/-- An option with a value. -/
def settingOf (f : Flag) (value : Text) : Setting :=
  ⟨f, if value = Argument.allPlain then none else some value⟩

/-- The options joined in an argument of letters, behind an option that has no value.  The last one
can have the value that is joined to it, or need the next argument. -/
def joinedLetters (f : Flag) : Text → Except UsageError (List Setting × Option Flag)
  | [] => .ok ([⟨f, none⟩], none)
  | c :: t =>
    match Flag.ofLetter? c with
    | none => .error (.superfluousValue f (c :: t))
    | some g =>
      if g.hasValue then
        if t.isEmpty then .ok ([⟨f, none⟩], some g) else .ok ([⟨f, none⟩, settingOf g t], none)
      else do
        let (settings, last) ← joinedLetters g t
        return (⟨f, none⟩ :: settings, last)

/-- The options of an argument, and the one that needs the next argument. -/
def settingsOf (f : Flag) (isLetter : Bool) (joined : Option Text) :
    Except UsageError (List Setting × Option Flag) :=
  match joined with
  | none => if f.hasValue then .ok ([], some f) else .ok ([⟨f, none⟩], none)
  | some value =>
    if f.hasValue then .ok ([settingOf f value], none)
    else if isLetter && !value.isEmpty then joinedLetters f value
    else .error (.superfluousValue f value)

/-- The state of reading arguments. -/
structure Reading where
  options : Options := { files := [] }
  hasFiles : Bool := false
  unrecognized : List Text := []
  wantsHelp : Bool := false
deriving DecidableEq, Inhabited, Repr

/-- Takes account of an option. -/
def Reading.set (r : Reading) (s : Setting) : Except UsageError Reading :=
  if r.wantsHelp then .ok r
  else
    let o := r.options
    match s.flag with
    | .help => .ok { r with wantsHelp := true }
    | .config => .ok { r with options := { o with config := s.value.getD [] } }
    | .extraGlobal => .ok { r with options := { o with globals := o.globals ++ [s.value] } }
    | .format =>
      match s.value with
      | none => .ok { r with options := { o with format := .listing } }
      | some t =>
        if t = .ofString "json" then .ok { r with options := { o with format := .json } }
        else if t = .ofString "text" then .ok { r with options := { o with format := .listing } }
        else .error (.unknownFormat t)
    | .output => .ok { r with options := { o with output := s.value.getD [] } }
    | .verbose => .ok { r with options := { o with isVerbose := true } }

/-- Takes account of a row of plain arguments.  The first row with a path in it holds the paths. -/
def Reading.addRow (r : Reading) (row : List Text) : Reading :=
  let paths := row.erase Argument.allPlain
  if r.hasFiles || paths.isEmpty then { r with unrecognized := r.unrecognized ++ row }
  else { r with options := { r.options with files := paths }, hasFiles := true }

/-- The row of plain arguments at the beginning of arguments. -/
def row : List Argument → List Text
  | .plain t :: more => t :: row more
  | _ => []

/-- Where reading arguments stands. -/
inductive Mode where
  | anywhere
  /-- In a row of plain arguments that is accounted for. -/
  | inRow
  /-- Behind options the last of which needs a value. -/
  | behind (settings : List Setting) (flag : Flag)
deriving DecidableEq, Inhabited, Repr

/-- Reads an option: those joined to it are taken account of together with it. -/
def Reading.addFlag (r : Reading) (f : Flag) (isLetter : Bool) (joined : Option Text) :
    Except UsageError (Reading × Mode) := do
  match ← settingsOf f isLetter joined with
  | (settings, none) => return (← settings.foldlM Reading.set r, .anywhere)
  | (settings, some g) => return (r, .behind settings g)

/-- Reads arguments one after another, until one asks for help. -/
def read : Mode → List Argument → Reading → Except UsageError Reading
  | .behind _ g, [], _ => .error (.missingValue g)
  | _, [], r => .ok r
  | .behind settings g, a :: more, r =>
    match a with
    | .plain t =>
      if t = Argument.allPlain then .error (.missingValue g)
      else do read .anywhere more (← (settings ++ [Setting.mk g (some t)]).foldlM Reading.set r)
    | _ => .error (.missingValue g)
  | mode, a :: more, r =>
    if r.wantsHelp then .ok r
    else
      match a with
      | .plain t =>
        read .inRow more (if mode = .inRow then r else r.addRow (t :: row more))
      | .unknown t => read .anywhere more { r with unrecognized := r.unrecognized ++ [t] }
      | .flag f isLetter joined _ => do
        let (r, mode) ← r.addFlag f isLetter joined
        read mode more r

/-- What arguments ask for. -/
def ofArguments (arguments : List Text) : Except UsageError Request := do
  let r ← read .anywhere (← Argument.ofTexts arguments) {}
  if r.wantsHelp then return .help
  if !r.hasFiles then throw .missingFiles
  if r.unrecognized.isEmpty then return .compile r.options
  throw (.unrecognized r.unrecognized)

end Options
end Elementwise
