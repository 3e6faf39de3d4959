import Elementwise.Data.Conversion

/-!
# Faults of configuration files

Why the text of a configuration file has no value.
-/

set_option autoImplicit false
namespace Elementwise
namespace Yaml

/-- Why a configuration file has no value. -/
inductive Fault where
  | malformed
  /-- A scalar or a character that cannot be converted. -/
  | conversion (cause : ConversionFault)
deriving DecidableEq, Inhabited, Repr

/-- What is there, or else a malformed file. -/
def expect {α : Type} : Option α → Except Fault α
  | some a => .ok a
  | none => .error .malformed

end Yaml
end Elementwise
