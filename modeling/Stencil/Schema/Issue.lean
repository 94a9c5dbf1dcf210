import Stencil.Text.Basic

/-!
# Issues of settings

What can be wrong with a field of the settings that a user hands in. An issue names the field by the
keys that lead to it.
-/

namespace Stencil.Schema

/-- What is wrong with a field. -/
inductive Complaint
  /-- Not a mapping where fields are expected. -/
  | modelType
  /-- The text of a whole record is no JSON. -/
  | jsonInvalid
  | boolType
  | boolParsing
  | stringType
  /-- Not one of the choices. -/
  | literalError
  | pathType
  | intType
  | intParsing
  /-- A number in text that is too long to read. -/
  | intParsingSize
  | intFromFloat
  /-- Not a number, or infinite. -/
  | finiteNumber
  | greaterThanEqual
  /-- Not of the required form. -/
  | patternMismatch
deriving DecidableEq, Repr

/-- The name of a complaint. -/
def Complaint.name : Complaint → Text
  | modelType => "model_type".toList
  | jsonInvalid => "json_invalid".toList
  | boolType => "bool_type".toList
  | boolParsing => "bool_parsing".toList
  | stringType => "string_type".toList
  | literalError => "literal_error".toList
  | pathType => "path_type".toList
  | intType => "int_type".toList
  | intParsing => "int_parsing".toList
  | intParsingSize => "int_parsing_size".toList
  | intFromFloat => "int_from_float".toList
  | finiteNumber => "finite_number".toList
  | greaterThanEqual => "greater_than_equal".toList
  | patternMismatch => "string_pattern_mismatch".toList

/-- A complaint about the field that the keys lead to. -/
structure Issue where
  keys : List Text
  complaint : Complaint
deriving DecidableEq, Repr

/-- An issue of a record that is the field `key` of a larger one. -/
def Issue.under (key : Text) (issue : Issue) : Issue := { issue with keys := key :: issue.keys }

end Stencil.Schema
