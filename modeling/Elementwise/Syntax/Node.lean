import Elementwise.Token

/-!
# Syntax trees

A `Node` is a construct of a routine's source with the span it covers.  Expressions, patterns and
statements share one type, because a pattern may be read as an expression first and several
constructs hold either.

## What is here

* `Node` — one constructor for each construct.
* `Node.span?` — the part of the text a node covers; only a parenthesised list that has not become
  the parameter list of an arrow function has none.
* `Node.typeName` — the name by which reports call a construct.
-/

set_option autoImplicit false
namespace Elementwise

/-- The value of a literal. -/
inductive Literal where
  | string (value : Text)
  | number (value : Numeral)
  | boolean (value : Bool)
  | null
  | regex (pattern flags : Text)
deriving DecidableEq, Inhabited, Repr

/-- An operator with one operand. -/
inductive UnaryOp where
  | delete | void | typeof | plus | minus | complement | not
deriving DecidableEq, Inhabited, Repr

/-- An operator that changes its operand by one. -/
inductive UpdateOp where
  | increment | decrement
deriving DecidableEq, Inhabited, Repr

/-- What a property of an object is. -/
inductive PropertyKind where
  | value | getter | setter
deriving DecidableEq, Inhabited, Repr

/-- What a member of a class is. -/
inductive MemberKind where
  | method | getter | setter | constructor
deriving DecidableEq, Inhabited, Repr

/-- How variables are declared. -/
inductive VariableKind where
  | variable | lexical | constant
deriving DecidableEq, Inhabited, Repr

/-- A construct of a routine's source. -/
inductive Node where
  -- names and values
  | identifier (span : Span) (name : Text)
  | literal (span : Span) (value : Literal)
  | this (span : Span)
  | superReference (span : Span)
  | importReference (span : Span)
  | metaProperty (span : Span) (head property : Node)
  -- templates
  | templateElement (span : Span) (raw cooked : Text) (tail : Bool)
  | template (span : Span) (quasis expressions : List Node)
  | taggedTemplate (span : Span) (tag quasi : Node)
  -- composite values
  | array (span : Span) (elements : List Node)
  | object (span : Span) (properties : List Node)
  | property (span : Span) (kind : PropertyKind) (computed method shorthand : Bool)
      (key value : Node)
  | spread (span : Span) (argument : Node)
  /-- An element that an array leaves out. -/
  | hole
  -- functions and classes
  | function (span : Span) (isDeclaration isAsync isGenerator : Bool) (id : Option Node)
      (params : List Node) (body : Node)
  | arrow (span : Span) (isAsync : Bool) (params : List Node) (body : Node)
  /-- A parenthesised list that can only be the parameter list of an arrow function. -/
  | arrowParameters (isAsync : Bool) (params : List Node)
  | class_ (span : Span) (isDeclaration : Bool) (id superClass : Option Node) (body : Node)
  | classBody (span : Span) (members : List Node)
  | classMember (span : Span) (kind : MemberKind) (isStatic computed : Bool) (key value : Node)
  -- operations
  | member (span : Span) (computed : Bool) (object property : Node)
  | call (span : Span) (callee : Node) (arguments : List Node)
  | new (span : Span) (callee : Node) (arguments : List Node)
  | update (span : Span) (op : UpdateOp) (before : Bool) (argument : Node)
  | unary (span : Span) (op : UnaryOp) (argument : Node)
  | await (span : Span) (argument : Node)
  | binary (span : Span) (op : BinaryOp) (left right : Node)
  | conditional (span : Span) (test consequent alternate : Node)
  | yield (span : Span) (delegate : Bool) (argument : Option Node)
  /-- An assignment, plain or combined with a binary operator. -/
  | assignment (span : Span) (op : Option BinaryOp) (left right : Node)
  | sequence (span : Span) (expressions : List Node)
  -- patterns
  | arrayPattern (span : Span) (elements : List Node)
  | objectPattern (span : Span) (properties : List Node)
  | assignmentPattern (span : Span) (left right : Node)
  | rest (span : Span) (argument : Node)
  -- statements
  | block (span : Span) (body : List Node)
  | empty (span : Span)
  /-- A statement made of an expression; `directive` is the text of a directive between its
  quotes. -/
  | expression (span : Span) (expression : Node) (directive : Option Text)
  | ifElse (span : Span) (test consequent : Node) (alternate : Option Node)
  | doWhile (span : Span) (body test : Node)
  | whileDo (span : Span) (test body : Node)
  | loop (span : Span) (init test update : Option Node) (body : Node)
  | forIn (span : Span) (left right body : Node)
  | forOf (span : Span) (left right body : Node)
  | continueTo (span : Span) (label : Option Node)
  | breakTo (span : Span) (label : Option Node)
  | returning (span : Span) (argument : Option Node)
  | withObject (span : Span) (object body : Node)
  | switch (span : Span) (discriminant : Node) (cases : List Node)
  | switchCase (span : Span) (test : Option Node) (consequent : List Node)
  | labeled (span : Span) (label body : Node)
  | throwing (span : Span) (argument : Node)
  | trying (span : Span) (block : Node) (handler finalizer : Option Node)
  | catching (span : Span) (param body : Node)
  | debugger (span : Span)
  | declaration (span : Span) (kind : VariableKind) (declarations : List Node)
  | declarator (span : Span) (id : Node) (init : Option Node)
deriving Repr

namespace Node

instance : Inhabited Node := ⟨.hole⟩

/-- The part of the text that a node covers. -/
def span? : Node → Option Span
  | hole | arrowParameters .. => none
  | identifier s .. | literal s .. | this s | superReference s | importReference s
  | metaProperty s .. | templateElement s .. | template s .. | taggedTemplate s .. | array s ..
  | object s .. | property s .. | spread s .. | function s .. | arrow s .. | class_ s ..
  | classBody s .. | classMember s .. | member s .. | call s .. | new s .. | update s ..
  | unary s .. | await s .. | binary s .. | conditional s .. | yield s .. | assignment s ..
  | sequence s .. | arrayPattern s .. | objectPattern s .. | assignmentPattern s .. | rest s ..
  | block s .. | empty s | expression s .. | ifElse s .. | doWhile s .. | whileDo s .. | loop s ..
  | forIn s .. | forOf s .. | continueTo s .. | breakTo s .. | returning s .. | withObject s ..
  | switch s .. | switchCase s .. | labeled s .. | throwing s .. | trying s .. | catching s ..
  | debugger s | declaration s .. | declarator s .. => some s

/-- The name by which reports call a construct. -/
def typeName : Node → String
  | identifier .. => "Identifier"
  | literal .. => "Literal"
  | this _ => "ThisExpression"
  | superReference _ => "Super"
  | importReference _ => "Import"
  | metaProperty .. => "MetaProperty"
  | templateElement .. => "TemplateElement"
  | template .. => "TemplateLiteral"
  | taggedTemplate .. => "TaggedTemplateExpression"
  | array .. => "ArrayExpression"
  | object .. => "ObjectExpression"
  | property .. => "Property"
  | spread .. => "SpreadElement"
  | hole => "Hole"
  | function _ isDeclaration .. =>
    if isDeclaration then "FunctionDeclaration" else "FunctionExpression"
  | arrow .. => "ArrowFunctionExpression"
  | arrowParameters .. => "ArrowParameterPlaceHolder"
  | class_ _ isDeclaration .. => if isDeclaration then "ClassDeclaration" else "ClassExpression"
  | classBody .. => "ClassBody"
  | classMember .. => "MethodDefinition"
  | member .. => "MemberExpression"
  | call .. => "CallExpression"
  | new .. => "NewExpression"
  | update .. => "UpdateExpression"
  | unary .. => "UnaryExpression"
  | await .. => "AwaitExpression"
  | binary _ op .. => if op.isLogical then "LogicalExpression" else "BinaryExpression"
  | conditional .. => "ConditionalExpression"
  | yield .. => "YieldExpression"
  | assignment .. => "AssignmentExpression"
  | sequence .. => "SequenceExpression"
  | arrayPattern .. => "ArrayPattern"
  | objectPattern .. => "ObjectPattern"
  | assignmentPattern .. => "AssignmentPattern"
  | rest .. => "RestElement"
  | block .. => "BlockStatement"
  | empty _ => "EmptyStatement"
  | expression .. => "ExpressionStatement"
  | ifElse .. => "IfStatement"
  | doWhile .. => "DoWhileStatement"
  | whileDo .. => "WhileStatement"
  | loop .. => "ForStatement"
  | forIn .. => "ForInStatement"
  | forOf .. => "ForOfStatement"
  | continueTo .. => "ContinueStatement"
  | breakTo .. => "BreakStatement"
  | returning .. => "ReturnStatement"
  | withObject .. => "WithStatement"
  | switch .. => "SwitchStatement"
  | switchCase .. => "SwitchCase"
  | labeled .. => "LabeledStatement"
  | throwing .. => "ThrowStatement"
  | trying .. => "TryStatement"
  | catching .. => "CatchClause"
  | debugger _ => "DebuggerStatement"
  | declaration .. => "VariableDeclaration"
  | declarator .. => "VariableDeclarator"

/-- Whether a node is an identifier. -/
def isIdentifier : Node → Bool
  | identifier .. => true
  | _ => false

/-- The name of an identifier. -/
def name? : Node → Option Text
  | identifier _ name => some name
  | _ => none

/-- Whether a property key is a given text, written as a name or as a string. -/
def isKey (key : Text) : Node → Bool
  | identifier _ name => name = key
  | literal _ (.string value) => value = key
  | _ => false

/-- Whether a node is a function marked as a generator. -/
def isGenerator : Node → Bool
  | function _ _ _ isGenerator .. => isGenerator
  | _ => false

end Node
end Elementwise
