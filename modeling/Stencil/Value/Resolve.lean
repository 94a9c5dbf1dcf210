import Stencil.Value.Basic

/-!
# Looking up paths

What a path of a template stands for in a context. A path that leads nowhere stands for null.
-/

namespace Stencil.Context

/-- The word for the item at hand. -/
def thisWord : Text := ['t', 'h', 'i', 's']

/-- The word for the feature flags. -/
def featuresWord : Text := ['f', 'e', 'a', 't', 'u', 'r', 'e', 's']

/-- Follows names through nested mappings. -/
def walk (ctx : Mapping Value) : List Text → Value
  | [] => .null
  | [name] => (ctx.get? name).getD .null
  | name :: rest =>
    match ctx.get? name with
    | some (.mapping inner) => walk inner rest
    | _ => .null

/-- The value of a path. The item at hand and names with the sign `@` are looked up as they are, and
so is all that follows the word for features; other paths are followed name by name. -/
def resolve (ctx : Context) (path : Text) : Value :=
  if path == thisWord || path.head? == some '@' then (ctx.get? path).getD .null
  else
    match (featuresWord ++ ['.']).isPrefixOf? path with
    | some flag =>
      match ctx.get? featuresWord with
      | some (.mapping flags) => (Mapping.get? flags flag).getD .null
      | _ => .null
    | none => walk ctx (path.splitOn '.')

end Stencil.Context
