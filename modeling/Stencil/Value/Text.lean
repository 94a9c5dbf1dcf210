import Stencil.Json.Printer

/-!
# Values as text

What a template writes for a value.
-/

namespace Stencil.Value

/-- Numbers in text are laid out as in JSON, with small words for those that are no numbers. -/
def floatLayout : Decimal.Layout :=
  { Json.floatLayout with
    notANumber := "nan".toList
    infinity := "inf".toList
    negativeInfinity := "-inf".toList }

mutual

/-- The text of a value: nothing for null, whole numbers without a point, the items of a list with
commas between them, a mapping as JSON on one line. There is none if an integer in it has too many
digits. -/
def text? : Value → Option Text
  | null => some []
  | bool true => some "true".toList
  | bool false => some "false".toList
  | int n => integerText? n
  | float x =>
    match Decimal.integer? x with
    | some n => integerText? n
    | none => some (Value.floatLayout.float x)
  | .text s => some s
  | list [] => some []
  | list (item :: rest) => do
    let first ← item.text?
    let more ← textItems? rest
    some (first ++ more)
  | mapping entries => Json.write? .line 0 (mapping entries)

/-- The texts of the items of a list after the first one, a comma before each. -/
def textItems? : List Value → Option Text
  | [] => some []
  | item :: rest => do
    let first ← item.text?
    let more ← textItems? rest
    some (',' :: first ++ more)

end

end Stencil.Value
