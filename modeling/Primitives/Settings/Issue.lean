import Primitives.Text.Basic

/-!
# Issues of fields

What is wrong with the datum that is given for a field of the settings: it has the wrong kind, the field
is unknown, or the datum has the right kind and is rejected for a reason.

## Main definitions

* `Issue`: what is wrong with the datum of a field.
* `Issue.tag`, `Issue.message?`: how an issue is shown.
-/

namespace Primitives

/-- What is wrong with the datum of a field. Data of the wrong kind are told apart by the tag. -/
inductive Issue where
  | unfit (tag : Text)
  | unknownField
  | rejected (reason : Text)
deriving DecidableEq

namespace Issue

/-- The tag of an issue. -/
def tag : Issue → Text
  | unfit tag => tag
  | unknownField => "extra_forbidden"
  | rejected _ => "value_error"

/-- The message of an issue, for a value that has the right kind and is rejected. -/
def message? : Issue → Option Text
  | rejected reason => some ("Value error, " ++ reason)
  | _ => none

end Issue

end Primitives
