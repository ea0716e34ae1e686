import Primitives.Library.ConsoleOperations
import Primitives.Library.FileOperations
import Primitives.Library.NumberOperations
import Primitives.Library.TextOperations
import Primitives.Surroundings.Standard

/-!
# The library

The library lists its operations by module, finds operations and constants by their qualified names, and
applies an operation by name. The library of a session is built on first use, after the settings are
loaded.

## Main definitions

* `Library.modules`: the modules with their operations.
* `Library.functions`: the qualified names, in order.
* `Library.function?`: the description of a qualified name.
* `Library.constant`: the constant of a qualified name.
* `Library.call`: an operation applied by name.
* `Action.library`: the library of a session.
-/

namespace Primitives

variable [Surroundings]

namespace Library

/-- The modules with their operations, in order. -/
def modules : List (String × List Operation) :=
  [("string", textOperations), ("math", numberOperations), ("io", consoleOperations),
    ("fs", fileOperations)]

/-- The name of an operation or a constant behind that of its module. -/
def qualified (moduleName name : String) : Text :=
  moduleName.toList ++ '.' :: name.toList

/-- What is known of a function: its qualified name, its module and a description. -/
structure Function where
  name : Text
  category : Text
  description : Text

/-- The description of an operation: its remark, or its name if it has none. -/
def describe (moduleName : String) (operation : Operation) : Function :=
  let description : Text :=
    if operation.remark.isEmpty then moduleName ++ " function " ++ operation.name
    else operation.remark
  ⟨qualified moduleName operation.name, moduleName, description⟩

/-- The function that makes text builders. -/
def builderFunction : Function :=
  ⟨"string.StringBuilder", "string", "Mutable text accumulator"⟩

/-- The functions in order. -/
def functions : List Function :=
  modules.flatMap (fun (moduleName, operations) => operations.map (describe moduleName))
    ++ [builderFunction]

/-- The names of the modules. -/
def moduleNames : List Text :=
  modules.map fun (name, _) => name.toList

/-- The qualified names of the functions of a module, or of all functions. -/
def functionNames (moduleName : Text) : List Text :=
  let names := functions.map Function.name
  if moduleName.isEmpty then names
  else names.filter fun name => Text.startsWith name (moduleName ++ ['.'])

/-- The function of a qualified name. -/
def function? (name : Text) : Option Function :=
  functions.find? (·.name == name)

/-- The constant of a qualified name. -/
def constant (name : Text) : Except Fault Value :=
  match numberConstants.find? fun (c, _) => qualified "math" c == name with
  | some (_, v) => .ok v
  | none => .error (.unknownConstant name)

/-- The operation of a qualified name. -/
def operation? (name : Text) : Option Operation :=
  modules.findSome? fun (moduleName, operations) =>
    operations.find? fun operation => qualified moduleName operation.name == name

/-- Applies the operation of a qualified name to arguments; a name without one is reported. -/
def call (name : Text) (args : List Value) : Action Value := do
  match operation? name with
  | some operation => operation.call args
  | none =>
    if name = builderFunction.name then throw .misapplied
    Action.report "KaedeRT.runtime" .error ("Unresolved runtime symbol: " ++ name)
    throw (.unresolved name)

end Library

namespace Action

/-- The number of the library of the session, built after loading the settings if there is none. -/
def library : Action Nat := do
  match (← get).library with
  | some library => return library.number
  | none =>
    let _ ← settings
    let number ← makeNumber
    modify fun session => { session with library := some ⟨number, ()⟩ }
    return number

/-- Drops the library; the next use builds one. -/
def dropLibrary : Action Unit :=
  modify fun session => { session with library := none }

/-- The names of the modules of the library, and whether it is the one that was shown last. -/
def showLibrary : Action (Bool × List Text) := do
  let number ← library
  let same := (← get).shownLibrary == some number
  modify fun session => { session with shownLibrary := some number }
  return (same, Library.moduleNames)

/-- Applies the operation of a qualified name with the library of the session. -/
def call (name : Text) (args : List Value) : Action Value := do
  let _ ← library
  Library.call name args

end Action

end Primitives
