import SqlAssembly.Condition.Basic

/-!
# Rendering conditions

Siblings are separated by the connector of the right-hand one, so the connector of a first sibling
is not shown. A group that shows nothing is left out together with its connector. Each part of a
condition is written by `write`; `render` gives its SQL in pieces.
-/

namespace SqlAssembly

/-! ### Predicates -/

namespace Predicate

/-- Whether an operator has the word `ILIKE`. -/
def usesIlike (operator : String) : Bool :=
  (Text.words operator.toList).any (Text.isKeyword "ILIKE")

/-- The rule on `ILIKE`, which is applied before anything is resolved. -/
def checkIlike (d : Dialect) (operator : String) : Except SqlError Unit :=
  if !d.supportsIlike && usesIlike operator then .error (.ilikeUnsupported d.name) else .ok ()

/-- A part behind a blank. -/
def spaced (sql : Sql) : Sql := Sql.text " " ++ sql

/-- The SQL of a predicate, not wrapped. A blank operator is not shown. -/
def render (d : Dialect) (owner : Option RecordType) (p : Predicate Rendered) : Rendered := do
  checkIlike d p.operator
  let field ← p.field.sql owner
  let operand ← p.operand.render owner
  let operator := Text.trim p.operator
  return field ++ (if operator.isEmpty then [] else spaced (Sql.text operator))
    ++ (match operand with
      | none => []
      | some sql => spaced sql)

/-- Write a predicate, not wrapped. -/
def write (d : Dialect) (owner : Option RecordType) (p : Predicate Written) : Written := do
  checkIlike d p.operator
  let field ← Writer.plain d (p.field.sql owner)
  let operand ← p.operand.write d owner
  let operator := Text.trim p.operator
  return field ++ (if operator.isEmpty then "" else " " ++ operator)
    ++ (match operand with
      | none => ""
      | some text => " " ++ text)

end Predicate

/-! ### Trees -/

namespace ConditionStyle

/-- What stands before and behind a predicate. -/
def predicateMarks : ConditionStyle → String × String
  | parenthesized => ("(", ")")
  | bare => ("", "")

/-- What stands before and behind a group. -/
def groupMarks : ConditionStyle → String × String
  | parenthesized => ("( ", " )")
  | bare => ("(", ")")

end ConditionStyle

namespace Node

/-- Siblings, each but the first behind its connector. -/
def joinSiblings : List (Connector × Sql) → Sql
  | [] => []
  | first :: rest =>
    first.2 ++ rest.flatMap fun part => Sql.text (" " ++ part.1.keyword ++ " ") ++ part.2

/-- The text of siblings, each but the first behind its connector. -/
def joinTexts : List (Connector × String) → String
  | [] => ""
  | first :: rest =>
    first.2 ++ String.join (rest.map fun part => " " ++ part.1.keyword ++ " " ++ part.2)

mutual

/-- The SQL of a node; none for a group that shows nothing. -/
def render (d : Dialect) (owner : Option RecordType) (style : ConditionStyle) :
    Node Rendered → Except SqlError (Option Sql)
  | leaf _ predicate => do
    return some (Sql.enclosed style.predicateMarks (← predicate.render d owner))
  | group _ children => do
    let inner := joinSiblings (← renderAll d owner style children)
    return if inner.isBlank d then none else some (Sql.enclosed style.groupMarks inner)

/-- The SQL of those nodes of a list that show something, each with its connector. -/
def renderAll (d : Dialect) (owner : Option RecordType) (style : ConditionStyle) :
    List (Node Rendered) → Except SqlError (List (Connector × Sql))
  | [] => return []
  | n :: ns => do
    let first ← render d owner style n
    let rest ← renderAll d owner style ns
    return match first with
      | none => rest
      | some sql => (n.connector, sql) :: rest

end

mutual

/-- Write a node; a group whose text is empty is left out. -/
def write (d : Dialect) (owner : Option RecordType) (style : ConditionStyle) :
    Node Written → Writer (Option String)
  | leaf _ predicate => do
    let text ← predicate.write d owner
    return some (style.predicateMarks.1 ++ text ++ style.predicateMarks.2)
  | group _ children => do
    let inner := joinTexts (← writeAll d owner style children)
    return if inner.isEmpty then none else some (style.groupMarks.1 ++ inner ++ style.groupMarks.2)

/-- Write the nodes of a list that are not left out, each with its connector. -/
def writeAll (d : Dialect) (owner : Option RecordType) (style : ConditionStyle) :
    List (Node Written) → Writer (List (Connector × String))
  | [] => return []
  | n :: ns => do
    let first ← write d owner style n
    let rest ← writeAll d owner style ns
    return match first with
      | none => rest
      | some text => (n.connector, text) :: rest

end

end Node

/-! ### Conditions -/

namespace Condition

/-- The SQL of a condition, once its groups are found balanced. Unqualified fields belong to the
owner. -/
def render (d : Dialect) (owner : Option RecordType) (c : Condition Rendered) : Rendered := do
  c.check
  return Node.joinSiblings (← Node.renderAll d owner c.style c.root)

/-- A clause: its keyword and the condition, or nothing for a condition that shows nothing. -/
def renderClause (keyword : String) (d : Dialect) (owner : Option RecordType)
    (c : Condition Rendered) : Rendered := do
  let sql ← c.render d owner
  return if sql.isBlank d then [] else Sql.text (keyword ++ " ") ++ sql

/-- Write a condition, once its groups are found balanced. -/
def write (d : Dialect) (owner : Option RecordType) (c : Condition Written) : Written := do
  c.check
  return Node.joinTexts (← Node.writeAll d owner c.style c.root)

/-- Write a clause: its keyword and the condition, or nothing if the condition has no text. -/
def writeClause (keyword : String) (d : Dialect) (owner : Option RecordType)
    (c : Condition Written) : Written := do
  let text ← c.write d owner
  return if text.isEmpty then "" else keyword ++ " " ++ text

end Condition

end SqlAssembly
