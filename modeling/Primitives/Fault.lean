import Primitives.Error
import Primitives.Files.Host
import Primitives.Format.Template
import Primitives.Number.Integer
import Primitives.Number.Literal
import Primitives.Settings.Basic
import Primitives.Text.Padding
import Primitives.Yaml.Fault

/-!
# Faults of operations

An operation that does not return ends with a fault. The faults collect what can go wrong in the parts
that operations are made of, and each has a wording; those that are reported errors of a class are told
apart by `Fault.report?`.

## Main definitions

* `Fault`: why an operation does not return.
* `Fault.message`: the wording of a fault.
* `Fault.report?`: the reported error that a fault is.
-/

namespace Primitives

/-- A double that is no number or an infinity has no integer. -/
inductive NoInteger where
  | nan
  | infinite
deriving DecidableEq

/-- Why an operation does not return. -/
inductive Fault where
  | unresolved (name : Text)
  | unknownConstant (name : Text)
  | format (fault : FormatFault)
  | numeral (fault : NumeralFault)
  | render (fault : RenderFault)
  | repetition (fault : RepeatFault)
  | misspelledDouble (fault : MisspelledDouble)
  | tooLargeForDouble
  | noInteger (fault : NoInteger)
  | factorialTooLarge
  | encoding (fault : EncodingFault)
  | host (fault : HostError)
  | settings (fault : SettingsFault)
  | unreadableSettings (path : Text) (error : HostError)
  | unparsableSettings (path : Text)
  | settingsEncoding (message : Text)
  | settingsPath
  | settingsDocument (fault : DocumentFault)
  | settingsLoading (kind message : Text)
  | unknownLevel (name : Text)
  | abandonedDraw
  | misapplied

namespace Fault

/-- The reported error of a rejected template or of rejected arguments, if it is one. -/
def formatReport? : FormatFault → Option ErrorReport
  | .template (.placeholder fault offset) source => some (.ofTemplate fault.message source offset)
  | .template (.numeral _) _ => none
  | .argument fault source =>
    some (.ofTemplate fault.message source ((fault.offset?.map Int.ofNat).getD (-1)))
  | .render _ => none

/-- The reported error that a fault is, if it belongs to a class of errors. -/
def report? : Fault → Option ErrorReport
  | unresolved name => some (.plain .notFound ("Function '" ++ name ++ "' not found") "link")
  | unknownConstant name => some (.plain .notFound ("Constant '" ++ name ++ "' not found") "link")
  | format fault => formatReport? fault
  | settings (.notMapping kind) =>
    some (.plain .configuration ("Configuration must be a mapping, got " ++ kind) [])
  | settings (.invalid _) => some (.plain .configuration "Invalid runtime configuration" [])
  | unreadableSettings path e =>
    some (.plain .configuration
      ("Cannot read configuration file " ++ path ++ ": " ++ e.message) [])
  | unparsableSettings path =>
    some (.plain .configuration ("Cannot parse configuration file " ++ path) [])
  | _ => none

/-- The wording of a fault of rendering. -/
def renderMessage : RenderFault → Text
  | .directive fault => fault.message
  | .tooLargeForDouble => "int too large to convert to float"

/-- The wording of a fault that is no reported error. -/
def plainMessage : Fault → Text
  | format (.template (.numeral fault) _) => fault.message
  | format (.render fault) => renderMessage fault
  | numeral fault => fault.message
  | render fault => renderMessage fault
  | repetition fault => fault.message
  | misspelledDouble fault => "could not convert string to float: " ++ fault.literal.quoted
  | tooLargeForDouble => "int too large to convert to float"
  | noInteger .nan => "cannot convert float NaN to integer"
  | noInteger .infinite => "cannot convert float infinity to integer"
  | factorialTooLarge => "factorial() argument should not exceed 9223372036854775807"
  | encoding fault => fault.message
  | host fault => fault.message
  | settings .keyNotText => "keywords must be strings"
  | settingsEncoding message => message
  | settingsPath => "embedded null byte"
  | settingsDocument fault => fault.message
  | settingsLoading _ message => message
  | unknownLevel name => "Unknown level: " ++ name.quoted
  | _ => []

/-- The wording of a fault. -/
def message (fault : Fault) : Text :=
  match fault.report? with
  | some e => e.text
  | none => fault.plainMessage

end Fault

end Primitives
