import Elementwise.Syntax.Node

/-!
# How a variable is used

An occurrence of a variable writes it, reads it, or does both, and the construct directly around it
decides which.
-/

set_option autoImplicit false
namespace Elementwise

/-- How one occurrence of a variable uses it. -/
structure Usage where
  isWrite : Bool
  isRead : Bool
deriving DecidableEq, Inhabited, Repr

/-- What a node is to the construct directly around it. -/
inductive Position where
  /-- The target of an assignment, plain or combined with an operator. -/
  | target (op : Option BinaryOp)
  /-- What is increased or decreased. -/
  | updated
  /-- The object or the property of a member access. -/
  | memberPart
  | plain
deriving DecidableEq, Inhabited, Repr

/-- The usage of a variable in a given position. -/
def Position.usage : Position → Usage
  | target none => ⟨true, false⟩
  | target (some _) => ⟨true, true⟩
  | updated => ⟨true, true⟩
  | memberPart | plain => ⟨false, true⟩

/-- The usage as a number: one for writing, two for reading. -/
def Usage.flags (u : Usage) : Nat := (if u.isWrite then 1 else 0) + (if u.isRead then 2 else 0)

/-- A part of a construct: the role it has there, the node, and its position. -/
structure Part where
  role : String
  node : Node
  position : Position

namespace Node

/-- The parts in a list, all in one role. -/
def partsOf (role : String) (nodes : List Node) : List Part :=
  nodes.map fun node => ⟨role, node, .plain⟩

/-- The part that may be absent. -/
def partOf? (role : String) (node? : Option Node) : List Part := partsOf role node?.toList

/-- The constructs directly inside a construct, in the order in which they are visited. -/
def parts : Node → List Part
  | identifier .. | literal .. | this _ | superReference _ | importReference _
  | templateElement .. | hole | empty _ | debugger _ => []
  | metaProperty _ head key => [⟨"meta", head, .plain⟩, ⟨"property", key, .plain⟩]
  | template _ quasis expressions => partsOf "quasis" quasis ++ partsOf "expressions" expressions
  | taggedTemplate _ tag quasi => [⟨"tag", tag, .plain⟩, ⟨"quasi", quasi, .plain⟩]
  | array _ elements | arrayPattern _ elements =>
    partsOf "elements" (elements.filter fun | hole => false | _ => true)
  | object _ properties | objectPattern _ properties => partsOf "properties" properties
  | property _ _ _ _ _ key value => [⟨"key", key, .plain⟩, ⟨"value", value, .plain⟩]
  | spread _ argument | rest _ argument => [⟨"argument", argument, .plain⟩]
  | function _ _ _ _ id params body =>
    partOf? "id" id ++ partsOf "params" params ++ [⟨"body", body, .plain⟩]
  | arrow _ _ params body => partsOf "params" params ++ [⟨"body", body, .plain⟩]
  | arrowParameters _ params => partsOf "params" params
  | class_ _ _ id superClass body =>
    partOf? "id" id ++ partOf? "superClass" superClass ++ [⟨"body", body, .plain⟩]
  | classBody _ members => partsOf "body" members
  | classMember _ _ _ _ key value => [⟨"key", key, .plain⟩, ⟨"value", value, .plain⟩]
  | member _ _ owner key =>
    [⟨"object", owner, .memberPart⟩, ⟨"property", key, .memberPart⟩]
  | call _ callee arguments | new _ callee arguments =>
    ⟨"callee", callee, .plain⟩ :: partsOf "arguments" arguments
  | update _ _ _ argument => [⟨"argument", argument, .updated⟩]
  | unary _ _ argument | await _ argument => [⟨"argument", argument, .plain⟩]
  | binary _ _ left right => [⟨"left", left, .plain⟩, ⟨"right", right, .plain⟩]
  | conditional _ test consequent alternate =>
    [⟨"test", test, .plain⟩, ⟨"consequent", consequent, .plain⟩,
     ⟨"alternate", alternate, .plain⟩]
  | yield _ _ argument => partOf? "argument" argument
  | assignment _ op left right => [⟨"left", left, .target op⟩, ⟨"right", right, .plain⟩]
  | sequence _ expressions => partsOf "expressions" expressions
  | assignmentPattern _ left right => [⟨"left", left, .plain⟩, ⟨"right", right, .plain⟩]
  | block _ body => partsOf "body" body
  | expression _ e _ => [⟨"expression", e, .plain⟩]
  | ifElse _ test consequent alternate =>
    [⟨"test", test, .plain⟩, ⟨"consequent", consequent, .plain⟩] ++
      partOf? "alternate" alternate
  | doWhile _ body test => [⟨"body", body, .plain⟩, ⟨"test", test, .plain⟩]
  | whileDo _ test body => [⟨"test", test, .plain⟩, ⟨"body", body, .plain⟩]
  | loop _ init test step body =>
    partOf? "init" init ++ partOf? "test" test ++ partOf? "update" step ++
      [⟨"body", body, .plain⟩]
  | forIn _ left right body | forOf _ left right body =>
    [⟨"left", left, .plain⟩, ⟨"right", right, .plain⟩, ⟨"body", body, .plain⟩]
  | continueTo _ label | breakTo _ label => partOf? "label" label
  | returning _ argument => partOf? "argument" argument
  | withObject _ owner body => [⟨"object", owner, .plain⟩, ⟨"body", body, .plain⟩]
  | switch _ discriminant cases =>
    ⟨"discriminant", discriminant, .plain⟩ :: partsOf "cases" cases
  | switchCase _ test consequent => partOf? "test" test ++ partsOf "consequent" consequent
  | labeled _ label body => [⟨"label", label, .plain⟩, ⟨"body", body, .plain⟩]
  | throwing _ argument => [⟨"argument", argument, .plain⟩]
  | trying _ body handler finalizer =>
    ⟨"block", body, .plain⟩ :: partOf? "handler" handler ++
      partOf? "finalizer" finalizer
  | catching _ param body => [⟨"param", param, .plain⟩, ⟨"body", body, .plain⟩]
  | declaration _ _ declarations => partsOf "declarations" declarations
  | declarator _ id init => ⟨"id", id, .plain⟩ :: partOf? "init" init

end Node
end Elementwise
