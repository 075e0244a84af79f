import SoftwareCensus.Plugin.Basic

/-!
# Plugins that look and check

Showing the value of an expression, and asserting conditions.
-/

namespace SoftwareCensus.Plugin

/-- What is shown for a variable that is not there. -/
def undefinedMarker : String := "VARIABLE IS NOT DEFINED!"

/-- The text of an expression's value. -/
def shownValue (call : Call) (expression : String) : Except Error String :=
  match Template.evaluate call.lookup expression with
  | .ok (.str s) => .ok s
  | .ok d => .ok d.toPrettyJson
  | .error e => if e.isUndefined then .ok undefinedMarker else .error (.template e)

/-- Shows the value of an expression. -/
def printVar : Plugin where
  name := "print_var"
  description := "Log the value of a variable or expression"
  args := .fields [{ name := "var", type := .str, required := true }]
  templated := false
  run call := call.answer do
    let expression := call.text "var"
    let shown ← shownValue call expression
    return .ofFields [("msg", .str (expression ++ " = " ++ shown))]

/-- A message among the arguments, or another one if there is none. -/
def messageOr (call : Call) (key fallback : String) : Except Error String :=
  match (call.arg? key).getD .null with
  | .null => .ok fallback
  | raw => (Except.mapError .template (Template.render call.lookup raw)).map Document.display

/-- Fails at the first condition that does not hold. -/
def assertAll (call : Call) : List Document → Except Error Unit
  | [] => .ok ()
  | condition :: rest => do
    if ← Except.mapError .template (Template.condition call.lookup condition) then
      assertAll call rest
    else
      let fallback ← messageOr call "msg" "Assertion failed"
      throw (.assertion (← messageOr call "fail_msg" fallback))

/-- Fails unless all conditions hold. -/
def assertPlugin : Plugin where
  name := "assert"
  description := "Fail the task unless every condition holds"
  args := .fields [{ name := "that", type := .raw, required := true },
    { name := "fail_msg", type := .raw }, { name := "msg", type := .raw },
    { name := "success_msg", type := .raw }]
  templated := false
  run call := call.answer do
    let conditions := match call.arg? "that" with
      | some (.list items) => items
      | some d => [d]
      | none => []
    assertAll call conditions
    let message ← messageOr call "success_msg" "All assertions passed"
    return .ofFields [("msg", .str message), ("evaluated", .int conditions.length)]

end SoftwareCensus.Plugin
