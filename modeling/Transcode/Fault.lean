import Transcode.Value

/-!
# Faults of the operations

Every operation fails fast and says why: a required argument is absent or of the wrong type, a
numeric argument is out of its range, an array would be longer than an array may be or than
memory allows, a charset name is unknown, or a value shown in a message cannot be converted to
text. A fault carries its cause and the data a caller may inspect (the parameter and its value,
the name as given); its wording is in one place, `Fault.message`.
-/

namespace Transcode

/-- Why an operation refused its arguments. -/
inductive Fault where
  /-- A required argument was absent; the message names the call. -/
  | nullArgument (message : Text)
  /-- A numeric argument was out of range; `actual` is its value, `none` when absent. -/
  | argumentRange (param : Text) (actual : Option Value) (message : Text)
  /-- An array of `length` cells would be longer than an array may be. -/
  | arrayLength (length : Nat)
  /-- No memory could be given to a new array. -/
  | allocation
  /-- A value that a message shows has no text (`Value.toText`). -/
  | noText
  /-- A method of the kind `kind` was applied to an object that is not of that kind. -/
  | notReceiver (kind : String)
  /-- A text would be longer than a text may be. -/
  | textLength
  /-- No charset has this name (kept exactly as given, untrimmed). -/
  | unsupportedCharset (name : Text)
  /-- The argument `param` had to be a text; `received` describes what it was. -/
  | argumentType (param : String) (received : Text)
  /-- A property was looked up in a value that has none, shown as `operand`. -/
  | noProperties (operand : Text)
  deriving Repr

namespace Fault

/-- The name of the kind of fault. -/
def name : Fault → String
  | .nullArgument _ => "NullArgumentError"
  | .argumentRange .. => "ArgumentRangeError"
  | .arrayLength _ | .allocation | .textLength => "RangeError"
  | .noText | .notReceiver _ | .argumentType .. | .noProperties _ => "TypeError"
  | .unsupportedCharset _ => "UnsupportedCharsetError"

/-- The message of a fault. -/
def message : Fault → Text
  | .nullArgument m => m
  | .argumentRange _ _ m => m
  | .arrayLength n => .ofString ("Invalid typed array length: " ++ toString n)
  | .allocation => .ofString "Array buffer allocation failed"
  | .noText => .ofString "Cannot convert object to primitive value"
  | .notReceiver kind => .ofString ("this is not a " ++ kind ++ ".")
  | .textLength => .ofString "Invalid string length"
  | .unsupportedCharset n => .ofString "Unsupported charset: \"" ++ n ++ .ofString "\""
  | .argumentType p r =>
    .ofString ("The \"" ++ p ++ "\" argument must be of type string. Received ") ++ r
  | .noProperties t => .ofString "Cannot use 'in' operator to search for 'name' in " ++ t

end Fault

end Transcode
