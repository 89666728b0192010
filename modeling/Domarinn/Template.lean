/-
Templates over configuration values.

The engine itself is a parameter: how a template string renders, and what an expression
evaluates to.  `renderVal` is what the program adds: a raw value is left alone, any other
has every string leaf rendered, and an error anywhere is the error of the whole.
-/
import Domarinn.Suite

/-- The template engine: each operation answers, or fails with the text of its error. -/
structure TemplateEngine where
  renderStr : String → Json → Except String String
  evalBool : String → Json → Except String Bool

namespace TemplateEngine

variable (engine : TemplateEngine) (ctx : Json)

mutual

/-- `render_json`: render every string leaf; keys and other scalars stay. -/
def renderJson : Json → Except String Json
  | .str s => do
    let rendered ← engine.renderStr s ctx
    return .str rendered
  | .arr items => do
    let rendered ← renderItems items
    return .arr rendered
  | .obj members => do
    let rendered ← renderMembers members
    return .obj rendered
  | other => return other

def renderItems : List Json → Except String (List Json)
  | [] => return []
  | v :: vs => do
    let rendered ← renderJson v
    let rest ← renderItems vs
    return rendered :: rest

def renderMembers : List (String × Json) → Except String (List (String × Json))
  | [] => return []
  | (k, v) :: ms => do
    let rendered ← renderJson v
    let rest ← renderMembers ms
    return (k, rendered) :: rest

end

/-- `render_val`: a raw value passes through untouched. -/
def renderVal : Val → Except String Json
  | .raw v => return v
  | .tpl v => engine.renderJson ctx v

end TemplateEngine
