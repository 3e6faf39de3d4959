import Elementwise.Usage

/-!
# The places of a tree that matter

A walk over a tree from left to right meets names that stand for variables, properties of `this`,
strings, and constructs that cannot be flattened.  `Node.sites` lists these places in the order of
the walk; what becomes of each of them is decided elsewhere.

Names that stand for no variable are not listed: property names behind a point, keys that are plain
names, and the two words of a meta property.  Neither are strings that are plain keys of class
members.
-/

set_option autoImplicit false
namespace Elementwise

/-- A place of a tree that matters for flattening it. -/
inductive Site where
  /-- A name that stands for a variable.  In a shorthand property it is the key as well, which then
  is given. -/
  | variable (span : Span) (name : Text) (usage : Usage) (key : Option Text)
  /-- The access to a property of `this` by its name. -/
  | thisProperty (span : Span) (name : Text)
  /-- A string literal. -/
  | string (span : Span) (value : Text)
  /-- A `this` that is not the object of such an access; it may be a part of another one. -/
  | this (span : Span) (inMember : Bool)
  /-- A `with` statement. -/
  | withObject (span : Span)
deriving DecidableEq, Inhabited, Repr

namespace Node

/-- What a key without a name is called. -/
def namelessKey : Text := .ofChars ['N', 'o', 'n', 'e']

/-- The key that a shorthand property shows when it is written in full: its name.  Behind `async`
the key of a shorthand property can also be a string or a number, which has no name. -/
def shorthandKey (key : Node) : Text := key.name?.getD namelessKey

/-- The site of a variable that is the target of a shorthand property. -/
def shorthandSites (key : Node) : Node → List Site
  | identifier s name => [.variable s name ⟨false, true⟩ (some key.shorthandKey)]
  | _ => []

mutual

/-- The sites of a node in a given position. -/
def sites : Node → Position → List Site
  | identifier s name, p => [.variable s name p.usage none]
  | literal s (.string value), _ => [.string s value]
  | this s, p => [.this s (p = .memberPart)]
  | withObject s _ _, _ => [.withObject s]
  | member s false (this _) key, _ => [.thisProperty s (key.name?.getD [])]
  | member _ false owner _, _ => owner.sites .memberPart
  | member _ true owner key, _ => owner.sites .memberPart ++ key.sites .memberPart
  | property _ _ true _ _ key value, _ => key.sites .plain ++ value.sites .plain
  | property _ _ false _ true key (identifier s name), _ =>
    shorthandSites key (identifier s name)
  | property _ _ false _ true key (assignmentPattern _ (identifier s name) right), _ =>
    shorthandSites key (identifier s name) ++ right.sites .plain
  | property _ _ false _ true _ value, _ => value.sites .plain
  | property _ _ false _ false (literal s value) node, _ =>
    (literal s value).sites .plain ++ node.sites .plain
  | property _ _ false _ false _ value, _ => value.sites .plain
  | classMember _ _ _ true key value, _ => key.sites .plain ++ value.sites .plain
  | classMember _ _ _ false _ value, _ => value.sites .plain
  | update _ _ _ argument, _ => argument.sites .updated
  | assignment _ op left right, _ => left.sites (.target op) ++ right.sites .plain
  | metaProperty .., _ | literal .., _ | superReference _, _ | importReference _, _
  | templateElement .., _ | hole, _ | empty _, _ | debugger _, _ => []
  | template _ quasis expressions, _ => sitesOfAll quasis ++ sitesOfAll expressions
  | taggedTemplate _ tag quasi, _ => tag.sites .plain ++ quasi.sites .plain
  | array _ elements, _ | arrayPattern _ elements, _ => sitesOfAll elements
  | object _ properties, _ | objectPattern _ properties, _ => sitesOfAll properties
  | spread _ argument, _ | rest _ argument, _ => argument.sites .plain
  | function _ _ _ _ id params body, _ =>
    sitesOf? id ++ sitesOfAll params ++ body.sites .plain
  | arrow _ _ params body, _ => sitesOfAll params ++ body.sites .plain
  | arrowParameters _ params, _ => sitesOfAll params
  | class_ _ _ id superClass body, _ =>
    sitesOf? id ++ sitesOf? superClass ++ body.sites .plain
  | classBody _ members, _ => sitesOfAll members
  | call _ callee arguments, _ | new _ callee arguments, _ =>
    callee.sites .plain ++ sitesOfAll arguments
  | unary _ _ argument, _ | await _ argument, _ => argument.sites .plain
  | binary _ _ left right, _ => left.sites .plain ++ right.sites .plain
  | conditional _ test consequent alternate, _ =>
    test.sites .plain ++ consequent.sites .plain ++ alternate.sites .plain
  | yield _ _ argument, _ => sitesOf? argument
  | sequence _ expressions, _ => sitesOfAll expressions
  | assignmentPattern _ left right, _ => left.sites .plain ++ right.sites .plain
  | block _ body, _ => sitesOfAll body
  | expression _ e _, _ => e.sites .plain
  | ifElse _ test consequent alternate, _ =>
    test.sites .plain ++ consequent.sites .plain ++ sitesOf? alternate
  | doWhile _ body test, _ => body.sites .plain ++ test.sites .plain
  | whileDo _ test body, _ => test.sites .plain ++ body.sites .plain
  | loop _ init test step body, _ =>
    sitesOf? init ++ sitesOf? test ++ sitesOf? step ++ body.sites .plain
  | forIn _ left right body, _ | forOf _ left right body, _ =>
    left.sites .plain ++ right.sites .plain ++ body.sites .plain
  | continueTo _ label, _ | breakTo _ label, _ => sitesOf? label
  | returning _ argument, _ => sitesOf? argument
  | switch _ discriminant cases, _ => discriminant.sites .plain ++ sitesOfAll cases
  | switchCase _ test consequent, _ => sitesOf? test ++ sitesOfAll consequent
  | labeled _ label body, _ => label.sites .plain ++ body.sites .plain
  | throwing _ argument, _ => argument.sites .plain
  | trying _ body handler finalizer, _ =>
    body.sites .plain ++ sitesOf? handler ++ sitesOf? finalizer
  | catching _ param body, _ => param.sites .plain ++ body.sites .plain
  | declaration _ _ declarations, _ => sitesOfAll declarations
  | declarator _ id init, _ => id.sites .plain ++ sitesOf? init

/-- The sites of a list of nodes. -/
def sitesOfAll : List Node → List Site
  | [] => []
  | node :: nodes => node.sites .plain ++ sitesOfAll nodes

/-- The sites of a node that may be absent. -/
def sitesOf? : Option Node → List Site
  | none => []
  | some node => node.sites .plain

end

end Node
end Elementwise
