import Primitives.Number.Numeral
import Primitives.Text.Quoted

/-!
# Reported errors

Errors that a program sees are sorted into classes below a common one. Four kinds of failure have a
class each, and a rejected template is a special invalid argument that tells the offset in the
template. An operation that was under way stands in front of the message.

## Main definitions

* `ErrorKind`: the kinds of failure.
* `ErrorClass`: the classes, with the class above each.
* `ErrorReport`: an error of a class, with its wording.
* `HostResult`: the value or the failure of a host request.
-/

namespace Primitives

/-! ### Kinds and classes -/

/-- The kinds of failure that a result can carry. -/
inductive ErrorKind where
  | notFound
  | invalidArgument
  | ioFailure
  | conversionFailure
deriving DecidableEq

/-- The tag of a kind. -/
def ErrorKind.tag : ErrorKind → Text
  | notFound => "not_found"
  | invalidArgument => "invalid_argument"
  | ioFailure => "io_failure"
  | conversionFailure => "conversion_failure"

/-- The classes of errors. -/
inductive ErrorClass where
  | general
  | notFound
  | invalidArgument
  | format
  | ioFailure
  | conversion
  | configuration
deriving DecidableEq

namespace ErrorClass

def name : ErrorClass → Text
  | general => "KaedeRuntimeError"
  | notFound => "NotFoundError"
  | invalidArgument => "InvalidArgumentError"
  | format => "FormatError"
  | ioFailure => "IOFailureError"
  | conversion => "ConversionError"
  | configuration => "ConfigError"

/-- The kind of failure that a class stands for. -/
def kind? : ErrorClass → Option ErrorKind
  | notFound => some .notFound
  | invalidArgument | format => some .invalidArgument
  | ioFailure => some .ioFailure
  | conversion => some .conversionFailure
  | general | configuration => none

/-- A class with all classes above it, itself first. -/
def ancestors : ErrorClass → List ErrorClass
  | general => [general]
  | format => [format, invalidArgument, general]
  | c => [c, general]

def all : List ErrorClass :=
  [general, notFound, invalidArgument, format, ioFailure, conversion, configuration]

/-- The class of a name. -/
def named? (name : Text) : Option ErrorClass :=
  all.find? (·.name == name)

end ErrorClass

/-- The class that stands for a kind of failure. -/
def ErrorKind.errorClass : ErrorKind → ErrorClass
  | notFound => .notFound
  | invalidArgument => .invalidArgument
  | ioFailure => .ioFailure
  | conversionFailure => .conversion

/-- The kind of a tag. -/
def ErrorKind.tagged? (tag : Text) : Option ErrorKind :=
  [notFound, invalidArgument, ioFailure, conversionFailure].find? (·.tag == tag)

/-! ### Reports -/

/-- A place in a template. -/
structure TemplatePlace where
  source : Text
  position : Int
deriving DecidableEq

/-- An error of a class. A rejected template tells the place, at a negative position if none is to
blame. -/
structure ErrorReport where
  errorClass : ErrorClass
  message : Text
  operation : Text
  place : Option TemplatePlace
deriving DecidableEq

namespace ErrorReport

/-- An error of a class other than that of templates. -/
def plain (errorClass : ErrorClass) (message operation : Text) : ErrorReport :=
  ⟨errorClass, message, operation, none⟩

/-- A rejected template. -/
def ofTemplate (message source : Text) (position : Int) : ErrorReport :=
  ⟨.format, message, "format", some ⟨source, position⟩⟩

/-- The wording of an error with its operation and its place. -/
def text (e : ErrorReport) : Text :=
  let body := if e.operation.isEmpty then e.message else e.operation ++ ": " ++ e.message
  match e.place with
  | some place =>
    if 0 ≤ place.position then
      body ++ " (at offset " ++ Numeral.ofInt 10 place.position ++ " in " ++ place.source.quoted
        ++ ")"
    else body
  | none => body

end ErrorReport

/-! ### Results of host requests -/

/-- A failure of a host request. -/
structure HostFailure where
  kind : ErrorKind
  message : Text
  operation : Text
  code : Option Int
deriving DecidableEq

/-- The outcome of a host request. -/
inductive HostResult (α : Type) where
  | success (value : α) (operation : Text)
  | failure (f : HostFailure)

namespace HostResult

variable {α : Type}

def isSuccess : HostResult α → Bool
  | success .. => true
  | failure _ => false

/-- The value, or the error of the class that stands for the failure. -/
def unwrap : HostResult α → Except ErrorReport α
  | success value _ => .ok value
  | failure f => .error (.plain f.kind.errorClass f.message f.operation)

/-- The value, or another one instead of a failure. -/
def valueOr (default : α) : HostResult α → α
  | success value _ => value
  | failure _ => default

end HostResult

end Primitives
