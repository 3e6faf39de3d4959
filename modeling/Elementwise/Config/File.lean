import Elementwise.Config
import Elementwise.Yaml.Document
import Elementwise.Yaml.Printer

/-!
# Configuration files

A configuration file is a mapping with up to three entries: `globals` takes the place of the default
globals, `extra_globals` is added to whichever are in effect, and `prefix_stem` takes the place of
the default stem.  Other entries are overlooked, and so is a list that is null.

* `Config.ofText` — the configuration in the text of a file.
* `Config.load` — the configuration in a file that may be missing.
* `Config.toText` — the text of the file that holds a configuration.
-/

set_option autoImplicit false
namespace Elementwise

/-- A text with line feeds for all its line ends. -/
def Text.unifyLineEnds : Text → Text
  | [] => []
  | c :: t =>
    if c = '\r' then
      match t with
      | [] => [.scalar '\n']
      | d :: t' =>
        if d = '\n' then unifyLineEnds (d :: t') else .scalar '\n' :: unifyLineEnds (d :: t')
    else c :: unifyLineEnds t

namespace Config

/-- The key of the list that replaces the globals. -/
def globalsKey : Text := .ofChars ['g', 'l', 'o', 'b', 'a', 'l', 's']

/-- The key of the list that is added to the globals. -/
def extraKey : Text := .ofChars ['e', 'x', 't', 'r', 'a', '_'] ++ globalsKey

/-- The key of the stem. -/
def stemKey : Text := .ofChars ['p', 'r', 'e', 'f', 'i', 'x', '_', 's', 't', 'e', 'm']

/-- The texts in a value; the given ones if there is none. -/
def textsIn (key : Text) (otherwise : List Text) (value : Option Value) :
    Except Failure (List Text) :=
  match value.getD .null with
  | .null => .ok otherwise
  | v =>
    match v.texts? with
    | some ts => .ok ts
    | none => .error (.fileNotTexts key v)

/-- The configuration that the entries of a file give; `value?` looks them up. -/
def ofEntries (path : Text) (value? : Text → Option Value) : Except Failure Config := do
  let names ← textsIn globalsKey defaultGlobals (value? globalsKey)
  let more ← textsIn extraKey [] (value? extraKey)
  let stem := (value? stemKey).getD (.text defaultStem)
  let config := Config.ofNames (names ++ more) stem
  match config.check with
  | .ok [] => return config
  | .ok errors => throw (.fileInvalid path errors)
  | .error cause => throw (.conversion cause)

/-- The configuration in the text of the file with a given path. -/
def ofText (path text : Text) : Except Failure Config :=
  match Yaml.Document.ofText text.unifyLineEnds with
  | .ok document =>
    match document.entries? with
    | some _ => ofEntries path document.entry?
    | none => .error (.fileNotMapping path)
  | .error .malformed => .error (.fileMalformed path)
  | .error (.conversion cause) => .error (.conversion cause)

/-- The configuration in a file with a given path, which may be missing. -/
def load (path : Text) : Option Text → Except Failure Config
  | none => .error (.fileMissing path)
  | some text => ofText path text

/-- The text of the file that holds a configuration. -/
def toText (c : Config) : Text :=
  Yaml.document [(globalsKey, .list (c.globals.map .text)), (stemKey, c.stem)]

end Config
end Elementwise
