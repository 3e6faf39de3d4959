import Elementwise.Syntax.Node

/-!
# Patterns

A list in brackets or braces in front of `=` or `=>` is read as an expression first.
`Node.asPattern` gives the pattern it stands for, and `Node.boundNames` the names a pattern binds.
-/

set_option autoImplicit false
namespace Elementwise
namespace Node

mutual

/-- The pattern an expression stands for as a target of an assignment or a parameter.  What has no
reading as a pattern stays as it is. -/
def asPattern : Node → Node
  | spread s argument => rest s argument.asPattern
  | array s elements => arrayPattern s (asPatterns elements)
  | object s properties => objectPattern s (asPropertyPatterns properties)
  | assignment s _ left right => assignmentPattern s left.asPattern right
  | node => node

/-- The patterns of the elements of a list. -/
def asPatterns : List Node → List Node
  | [] => []
  | node :: nodes => node.asPattern :: asPatterns nodes

/-- The patterns of the properties of an object: each property keeps its key. -/
def asPropertyPatterns : List Node → List Node
  | [] => []
  | property s kind computed method shorthand key value :: nodes =>
    property s kind computed method shorthand key value.asPattern :: asPropertyPatterns nodes
  | node :: nodes => node.asPattern :: asPropertyPatterns nodes

end

mutual

/-- The names that a pattern binds, from left to right. -/
def boundNames : Node → List Text
  | identifier _ name => [name]
  | rest _ argument => argument.boundNames
  | assignmentPattern _ left _ => left.boundNames
  | arrayPattern _ elements => boundNamesOfAll elements
  | objectPattern _ properties => boundNamesOfProperties properties
  | _ => []

/-- The names that the elements of a list bind. -/
def boundNamesOfAll : List Node → List Text
  | [] => []
  | node :: nodes => node.boundNames ++ boundNamesOfAll nodes

/-- The names that the properties of an object pattern bind. -/
def boundNamesOfProperties : List Node → List Text
  | [] => []
  | property _ _ _ _ _ _ value :: nodes => value.boundNames ++ boundNamesOfProperties nodes
  | rest _ argument :: nodes => argument.boundNames ++ boundNamesOfProperties nodes
  | _ :: nodes => boundNamesOfProperties nodes

end

end Node
end Elementwise
