import Elementwise.Place

/-!
# Faults of routine sources

Why a source text was refused, and where.  `Fault` names the causes, `Fault.message` words them.
-/

set_option autoImplicit false
namespace Elementwise

/-- The cause for which a source text is refused. -/
inductive Fault where
  -- tokens
  | illegal
  | missingSlash
  | invalidRegex
  | hexEscape
  | escapedKeyword
  | octalInTemplate
  -- a token in the wrong place
  | unexpected (shown : Text)
  | unexpectedSomething
  | unexpectedEnd
  | unexpectedIdentifier
  | unexpectedNumber
  | unexpectedString
  | unexpectedTemplate (shown : Text)
  | reservedWord
  | strictReservedWord
  -- expressions
  | invalidTarget
  | duplicateProto
  | getterArity
  | setterArity
  | setterRest
  -- bindings and parameters
  | missingConstInitializer
  | letBinding
  | restNotLast
  | duplicateBinding (name : Text)
  | directiveAfterPatterns
  -- classes
  | duplicateConstructor
  | constructorAccessor
  | constructorAsync
  | staticPrototype
  -- statements
  | invalidForInTarget
  | invalidForOfTarget
  | loopInitializer
  | illegalBreak
  | illegalContinue
  | illegalReturn
  | undefinedLabel (name : Text)
  | duplicateLabel (name : Text)
  | newlineAfterThrow
  | missingHandler
  | duplicateDefault
  | generatorInLegacyContext
  -- strict code
  | strictWith
  | strictDelete
  | strictAssignment
  | strictPostfix
  | strictPrefix
  | strictVariable
  | strictParameter
  | strictFunctionName
  | strictCatch
  | strictDuplicateParameter
  | strictOctal
  | strictFunction
deriving DecidableEq, Inhabited, Repr

namespace Fault

/-- The wording of a fault. -/
def message : Fault → Text
  | illegal => .ofString "Unexpected token ILLEGAL"
  | missingSlash => .ofString "Invalid regular expression: missing /"
  | invalidRegex => .ofString "Invalid regular expression"
  | hexEscape => .ofString "Invalid hexadecimal escape sequence"
  | escapedKeyword => .ofString "Keyword must not contain escaped characters"
  | octalInTemplate => .ofString "Octal literals are not allowed in template strings."
  | unexpected shown => .ofString "Unexpected token " ++ shown
  | unexpectedSomething => .ofString "Unexpected token"
  | unexpectedEnd => .ofString "Unexpected end of input"
  | unexpectedIdentifier => .ofString "Unexpected identifier"
  | unexpectedNumber => .ofString "Unexpected number"
  | unexpectedString => .ofString "Unexpected string"
  | unexpectedTemplate shown => .ofString "Unexpected quasi " ++ shown
  | reservedWord => .ofString "Unexpected reserved word"
  | strictReservedWord => .ofString "Use of future reserved word in strict mode"
  | invalidTarget => .ofString "Invalid left-hand side in assignment"
  | duplicateProto =>
    .ofString "Duplicate __proto__ fields are not allowed in object literals"
  | getterArity => .ofString "Getter must not have any formal parameters"
  | setterArity => .ofString "Setter must have exactly one formal parameter"
  | setterRest => .ofString "Setter function argument must not be a rest parameter"
  | missingConstInitializer => .ofString "Missing initializer in const declaration"
  | letBinding => .ofString "let is disallowed as a lexically bound name"
  | restNotLast => .ofString "Rest parameter must be last formal parameter"
  | duplicateBinding name => .ofString "Duplicate binding " ++ name
  | directiveAfterPatterns =>
    .ofString "Illegal 'use strict' directive in function with non-simple parameter list"
  | duplicateConstructor => .ofString "A class may only have one constructor"
  | constructorAccessor => .ofString "Class constructor may not be an accessor"
  | constructorAsync => .ofString "Class constructor may not be an async method"
  | staticPrototype => .ofString "Classes may not have static property named prototype"
  | invalidForInTarget => .ofString "Invalid left-hand side in for-in"
  | invalidForOfTarget => .ofString "Invalid left-hand side in for-loop"
  | loopInitializer =>
    .ofString "for-in loop variable declaration may not have an initializer"
  | illegalBreak => .ofString "Illegal break statement"
  | illegalContinue => .ofString "Illegal continue statement"
  | illegalReturn => .ofString "Illegal return statement"
  | undefinedLabel name => .ofString "Undefined label '" ++ name ++ .ofString "'"
  | duplicateLabel name =>
    .ofString "Label '" ++ name ++ .ofString "' has already been declared"
  | newlineAfterThrow => .ofString "Illegal newline after throw"
  | missingHandler => .ofString "Missing catch or finally after try"
  | duplicateDefault => .ofString "More than one default clause in switch statement"
  | generatorInLegacyContext =>
    .ofString "Generator declarations are not allowed in legacy contexts"
  | strictWith => .ofString "Strict mode code may not include a with statement"
  | strictDelete => .ofString "Delete of an unqualified identifier in strict mode."
  | strictAssignment =>
    .ofString "Assignment to eval or arguments is not allowed in strict mode"
  | strictPostfix =>
    .ofString
      "Postfix increment/decrement may not have eval or arguments operand in strict mode"
  | strictPrefix =>
    .ofString "Prefix increment/decrement may not have eval or arguments operand in strict mode"
  | strictVariable =>
    .ofString "Variable name may not be eval or arguments in strict mode"
  | strictParameter =>
    .ofString "Parameter name eval or arguments is not allowed in strict mode"
  | strictFunctionName =>
    .ofString "Function name may not be eval or arguments in strict mode"
  | strictCatch => .ofString "Catch variable may not be eval or arguments in strict mode"
  | strictDuplicateParameter =>
    .ofString "Strict mode function may not have duplicate parameter names"
  | strictOctal => .ofString "Octal literals are not allowed in strict mode."
  | strictFunction =>
    .ofString
      "In strict mode code, functions can only be declared at top level or inside a block"

end Fault

/-- Why a text does not parse.  `index` and `column` say where, `line` on which line. -/
inductive ParseError where
  | fault (index line : Nat) (column : Int) (cause : Fault)
  /-- The part of a template behind a substitution stands where a template may only begin. -/
  | templateContinuation
deriving DecidableEq, Inhabited, Repr

/-- A fault found at a place. -/
def Place.fault (p : Place) (cause : Fault) : ParseError := .fault p.index p.line p.column cause

end Elementwise
