import MapAudit.Predicate.Basic
import MapAudit.Text.Cut

/-!
# Predicates as conditions

`Predicate.condition` writes a predicate as the condition of a query whose rows
are bound to a name.  Every connective is one pair of parentheses around its
parts; the other tests add none of their own, an intersection apart, which is a
function call.
-/

namespace MapAudit

set_option autoImplicit false

/-- The word between the parts of a connective. -/
def Connective.word : Connective → String
  | .and => " AND "
  | .or => " OR "

namespace Predicate

mutual

/-- The condition that the row bound to the name `row` satisfies the predicate. -/
def condition (row : String) : Predicate → String
  | .all parts => "(" ++ Text.joinWith (Connective.word .and) (conditions row parts) ++ ")"
  | .any parts => "(" ++ Text.joinWith (Connective.word .or) (conditions row parts) ++ ")"
  | .hasTag key => row ++ ".tags ? " ++ Sql.quote key
  | .lacksTag key => "NOT " ++ row ++ ".tags ? " ++ Sql.quote key
  | .tagEquals key value => row ++ ".tags->" ++ Sql.quote key ++ " = " ++ Sql.quote value
  | .tagDiffers key value => row ++ ".tags->" ++ Sql.quote key ++ " != " ++ Sql.quote value
  | .intersects target => "ST_Intersects(" ++ row ++ ".geom, " ++ target ++ ".geom)"

def conditions (row : String) : List Predicate → List String
  | [] => []
  | part :: parts => condition row part :: conditions row parts

end

end Predicate

end MapAudit
