import Elementwise.Data.Utf8

/-!
# Files and directories

What a run can read and write.  `Disk` says what stands at a path and why a file cannot be written
there; `Folder` is a directory whose content is known, and the disk that one sees from inside.
-/

set_option autoImplicit false
namespace Elementwise

/-- What stands at a path. -/
inductive Entry where
  | file (bytes : List UInt8)
  | directory
deriving DecidableEq, Inhabited, Repr

/-- Why a path cannot be opened. -/
inductive AccessError where
  | missing
  | notDirectory
  | isDirectory
  | longName
  /-- The path holds the character that ends paths. -/
  | nullCharacter
  /-- The path holds surrogates that stand for no byte. -/
  | unencodable (cause : Utf8.Unencodable)
deriving DecidableEq, Inhabited, Repr

/-- The wording of an access error. -/
def AccessError.message (e : AccessError) (path : Text) : Text :=
  let about (reason : String) : Text := .ofString reason ++ Quoted.text path
  match e with
  | missing => about "[Errno 2] No such file or directory: "
  | notDirectory => about "[Errno 20] Not a directory: "
  | isDirectory => about "[Errno 21] Is a directory: "
  | longName => about "[Errno 36] File name too long: "
  | nullCharacter => .ofString "embedded null byte"
  | unencodable cause => cause.message

/-- What a run sees of the files around it. -/
structure Disk where
  /-- What stands at a path, if anything does. -/
  look : Text → Option Entry
  /-- Why a file cannot be written at a path. -/
  refusal : Text → Option AccessError

/-! ## Paths -/

namespace Path

/-- The number of bytes of a code point in a path.  The surrogates from `U+DC80` to `U+DCFF` stand
for a byte each. -/
def sizeOf (c : CodePoint) : Nat :=
  let n := c.val
  if n < 0x80 then 1
  else if 0xDC80 ≤ n && n ≤ 0xDCFF then 1
  else if n < 0x800 then 2
  else if n < 0x10000 then 3
  else 4

/-- The number of bytes of a path. -/
def size (t : Text) : Nat := t.foldl (fun n c => n + sizeOf c) 0

/-- The number of bytes that a name can have. -/
def nameLimit : Nat := 255

/-- The number of bytes that a path can have. -/
def sizeLimit : Nat := 4095

/-- The first surrogates of a path that stand for no byte, and those that follow them; `start` tells
where the text begins. -/
def unencodable? (start : Nat) : Text → Option Utf8.Unencodable
  | [] => none
  | c :: t =>
    if Utf8.isSurrogate c && !(0xDC80 ≤ c.val && c.val ≤ 0xDCFF) then
      some ⟨c, start, (t.takeWhile Utf8.isSurrogate).length + 1⟩
    else unencodable? (start + 1) t

/-- Why nothing can stand at a path. -/
def fault? (path : Text) : Option AccessError :=
  match unencodable? 0 path with
  | some e => some (.unencodable e)
  | none =>
    if path.contains (.scalar '\x00') then some .nullCharacter
    else if sizeLimit < size path then some .longName
    else none

/-- The parts of a path. -/
def parts : Text → List Text
  | [] => [[]]
  | c :: t =>
    if c = '/' then [] :: parts t
    else
      match parts t with
      | p :: ps => (c :: p) :: ps
      | [] => [[c]]

/-- Parts without the empty ones at the end. -/
def trimParts (ps : List Text) : List Text := (ps.reverse.dropWhile List.isEmpty).reverse

/-- The parent directory. -/
def parent : Text := .ofChars ['.', '.']

/-- Whether a part of a path stays where it is. -/
def isHere (part : Text) : Bool := part.isEmpty || part = Text.ofChars ['.']

end Path

/-! ## Folders -/

/-- The names on the way to an entry. -/
abbrev Trail := List Text

/-- The directories that stand at the root of a disk. -/
def rootDirectories : List Text :=
  ["bin", "boot", "dev", "etc", "home", "lib", "media", "mnt", "opt", "proc", "root", "run", "sbin",
   "srv", "sys", "tmp", "usr", "var"].map Text.ofString

/-- The file that stays empty whatever is written to it. -/
def emptyFile : Trail := [Text.ofString "dev", Text.ofString "null"]

/-- What is known to stand at a trail from the root of a disk. -/
def rootEntryAt (trail : Trail) : Option Entry :=
  if trail = emptyFile then some (.file [])
  else
    match trail with
    | [] => some .directory
    | [name] => if rootDirectories.contains name then some .directory else none
    | _ => none

/-- A directory whose content is known. -/
structure Folder where
  entries : List (Trail × Entry)
deriving Inhabited, Repr

namespace Folder

/-- The entry at a trail; what holds other entries is a directory. -/
def entryAt (f : Folder) (trail : Trail) : Option Entry :=
  match f.entries.lookup trail with
  | some e => some e
  | none => if f.entries.any fun e => trail.isPrefixOf e.1 then some .directory else none

/-- Where a path leads: to a trail inside of the folder, to a directory above it, about which
nothing is known, or to a trail from the root of the disk. -/
inductive Target where
  | inside (trail : Trail)
  | above
  | fromRoot (trail : Trail)
deriving DecidableEq, Inhabited, Repr

namespace Target

/-- The target of a name in a directory; none if nothing is known about it. -/
def child? (name : Text) : Target → Option Target
  | inside trail => some (inside (trail ++ [name]))
  | above => none
  | fromRoot trail => some (fromRoot (trail ++ [name]))

/-- The target of the parent directory. -/
def parent : Target → Target
  | inside [] | above => above
  | inside trail => inside trail.dropLast
  | fromRoot trail => fromRoot trail.dropLast

end Target

/-- What stands at a target. -/
def entryOf (f : Folder) : Target → Option Entry
  | .inside [] | .above => some .directory
  | .inside trail => f.entryAt trail
  | .fromRoot trail => rootEntryAt trail

/-- Follows the parts of a path. -/
def follow (f : Folder) : Target → List Text → Except AccessError Target
  | target, [] => .ok target
  | target, p :: ps =>
    match f.entryOf target with
    | none => .error .missing
    | some (.file _) => .error .notDirectory
    | some .directory =>
      if Path.isHere p then follow f target ps
      else if p = Path.parent then follow f target.parent ps
      else if Path.nameLimit < Path.size p then .error .longName
      else
        match target.child? p with
        | some target => follow f target ps
        | none => .error .missing

/-- Where the parts of a path lead from the folder, or from the root if the path is absolute. -/
def resolve (f : Folder) (path : Text) (ps : List Text) : Except AccessError Target :=
  f.follow (if path.head? = some (.scalar '/') then .fromRoot [] else .inside []) ps

/-- What stands at a path. -/
def look (f : Folder) (path : Text) : Option Entry :=
  if path.isEmpty || (Path.fault? path).isSome then none
  else
    match f.resolve path (Path.parts path) with
    | .ok target => f.entryOf target
    | .error _ => none

/-- Why a file cannot be written in a directory under a name. -/
def refusalIn (f : Folder) (target : Target) (name : Text) : Option AccessError :=
  match f.entryOf target with
  | none => some .missing
  | some (.file _) => some .notDirectory
  | some .directory =>
    if Path.isHere name || name = Path.parent then some .isDirectory
    else if Path.nameLimit < Path.size name then some .longName
    else
      match (target.child? name).bind f.entryOf with
      | some .directory => some .isDirectory
      | _ => none

/-- Why a file cannot be written at a path.  The directory that is to hold it must be there, and a
path with a slash at its end is that of a directory. -/
def refusal (f : Folder) (path : Text) : Option AccessError :=
  match Path.fault? path with
  | some e => some e
  | none =>
    let ps := Path.trimParts (Path.parts path)
    let last := if path.getLast? = some (.scalar '/') then [] else ps.getLast?.getD []
    match f.resolve path ps.dropLast with
    | .error e => some e
    | .ok target => f.refusalIn target last

/-- The trail of a path inside of the folder. -/
def trail? (f : Folder) (path : Text) : Option Trail :=
  match f.resolve path (Path.parts path) with
  | .ok (.inside trail) => some trail
  | _ => none

/-- The disk that one sees from inside of the folder. -/
def disk (f : Folder) : Disk := ⟨f.look, f.refusal⟩

end Folder
end Elementwise
