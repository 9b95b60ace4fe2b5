import SqlMapper.Expr.Eval
import SqlMapper.Sql.Loop
import SqlMapper.Sql.Trim

/-!
Fragments: SQL text with conditions, choices, trimmed parts, bound names and loops. Rendering a
fragment writes its text into the context and tells whether the fragment took part.
-/

namespace SqlMapper

inductive Fragment where
  | text (s : String)
  | sequence (children : List Fragment)
  | cond (test : Test) (body : Fragment)
  | choose (whens : List (Test × Fragment)) (otherwise : Option Fragment)
  | trim (rule : Trim) (body : Fragment)
  | bind (name : String) (value : Test)
  | foreach (loop : Loop) (body : Fragment)

namespace Fragment

def ofCondition (test : String) (body : Fragment) : Except Error Fragment :=
  (Test.parse test).map (.cond · body)

def ofBinding (name value : String) : Except Error Fragment :=
  (Test.parse value).map (.bind name ·)

def holds (test : Test) : Render Bool :=
  Render.ofContext fun ctx => test.holds ctx.valueAt

def render : Fragment → Render Bool
  | .text s => do
    modify (Context.append s)
    return !Text.isBlankText s
  | .sequence children => renderAll children
  | .cond test body => do
    if ← holds test then
      let _ ← render body
      return true
    else return false
  | .choose whens none => renderFirst whens
  | .choose whens (some otherwise) => do
    if ← renderFirst whens then return true
    else
      let _ ← render otherwise
      return true
  | .trim rule body => do
    let (tookPart, part) ← Render.isolated (render body)
    modify (Context.append (rule.apply part))
    return tookPart
  | .bind name value => do
    let v ← Render.ofContext fun ctx => value.value ctx.valueAt
    modify (Context.bind name v)
    return false
  | .foreach loop body => loop.render (render body)
where
  renderAll : List Fragment → Render Bool
    | [] => return false
    | f :: fs => do
      let first ← render f
      let others ← renderAll fs
      return first || others
  renderFirst : List (Test × Fragment) → Render Bool
    | [] => return false
    | (test, f) :: fs => do
      if ← holds test then
        let _ ← render f
        return true
      else renderFirst fs

end Fragment
end SqlMapper
