import Primitives.Session.Basic

/-!
# Operations by name

An operation has a name, a remark that describes it, and a way to read its arguments. Arguments are read
one after another; those at the end may be left out where they have a default, and a call with other
arguments than the operation takes is misapplied.

## Main definitions

* `Arguments`: readers of arguments.
* `Operation`: operations, made by `Operation.plain`, `Operation.checked` and `Operation.acting`.
* `Operation.call`: an operation applied to arguments.
-/

namespace Primitives

/-- Reads arguments of a call and leaves the rest. -/
abbrev Arguments (α : Type) := StateT (List Value) Option α

namespace Arguments

variable {α : Type}

/-- Reads one argument. -/
def next (read : Value → Option α) : Arguments α
  | [] => none
  | v :: args => (read v).map fun a => (a, args)

def value : Arguments Value :=
  next some

def text : Arguments Text :=
  next fun
    | .text s => some s
    | _ => none

def int : Arguments Int :=
  next Value.toInt?

def number : Arguments Number :=
  next Value.toNumber?

/-- The texts that values are. -/
def textsOf : List Value → Option (List Text)
  | [] => some []
  | .text s :: items => (textsOf items).map (s :: ·)
  | _ => none

def texts : Arguments (List Text) :=
  next fun
    | .list items => textsOf items
    | _ => none

/-- All arguments that are left. -/
def rest : Arguments (List Value) :=
  fun args => some (args, [])

/-- An argument with a default for when it is left out. -/
def withDefault (default : α) (read : Arguments α) : Arguments α
  | [] => some (default, [])
  | args => read args

/-- An argument that may be null or left out. -/
def nullable (read : Arguments α) : Arguments (Option α)
  | [] => some (none, [])
  | .null :: args => some (none, args)
  | args => (read args).map fun (a, args) => (some a, args)

end Arguments

/-- An operation. -/
structure Operation where
  name : String
  remark : String
  run : Arguments (Action Value)

namespace Operation

/-- An operation whose value depends on its arguments only. -/
def plain (name remark : String) (f : Arguments Value) : Operation :=
  ⟨name, remark, do return pure (← f)⟩

/-- An operation whose value or fault depends on its arguments only. -/
def checked (name remark : String) (f : Arguments (Except Fault Value)) : Operation :=
  ⟨name, remark, do return Action.ofExcept id (← f)⟩

/-- An operation on the session. -/
def acting (name remark : String) (f : Arguments (Action Value)) : Operation :=
  ⟨name, remark, f⟩

/-- The operation applied to arguments. -/
def call (operation : Operation) (args : List Value) : Action Value :=
  match operation.run args with
  | some (action, []) => action
  | _ => throw .misapplied

end Operation

end Primitives
