/-!
# Faults of the expression engine

What can go wrong while an expression or a template is read and evaluated. The variable scope is
not known here; `Template.Error` adds it.
-/

namespace SoftwareCensus.Template

/-- A fault of the expression engine. -/
inductive Fault where
  /-- The text is no template. -/
  | malformed (why : String)
  /-- An undefined value was used. -/
  | undefinedValue
  | unknownFilter (name : String)
  | unknownTest (name : String)
  | unknownFunction (name : String)
  | unknownMethod (name : String)
  | invalidOperation (why : String)
  | missingArgument
  | tooManyArguments (why : Option String)
  | badEscape
  /-- The value has no document form. -/
  | notSerializable (why : String)
  | cannotUnpack (why : String)
  | templateNotFound (name : String)
  deriving DecidableEq, Inhabited, Repr

namespace Fault

/-- The kind of a fault, with the detail if there is one. -/
def message : Fault → String
  | malformed why => "syntax error: " ++ why
  | undefinedValue => "undefined value"
  | unknownFilter name => "unknown filter: filter " ++ name ++ " is unknown"
  | unknownTest name => "unknown test: test " ++ name ++ " is unknown"
  | unknownFunction name => "unknown function: " ++ name ++ " is unknown"
  | unknownMethod name => "unknown method: value has no method named " ++ name
  | invalidOperation why => "invalid operation: " ++ why
  | missingArgument => "missing argument"
  | tooManyArguments none => "too many arguments"
  | tooManyArguments (some why) => "too many arguments: " ++ why
  | badEscape => "bad string escape"
  | notSerializable why => "could not serialize to value: " ++ why
  | cannotUnpack why => "cannot unpack: " ++ why
  | templateNotFound name => "template not found: template \"" ++ name ++ "\" does not exist"

end Fault

end SoftwareCensus.Template
