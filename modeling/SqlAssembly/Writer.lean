import SqlAssembly.Sql

/-!
# Writers

A statement is written in one pass, from left to right. A writer gives text, and puts the values
that it binds behind those that are bound already; their number is the number of the next
placeholder. Whatever is nested in a statement writes behind what the statement wrote before it.
-/

namespace SqlAssembly

/-- A dialect and the values bound so far. -/
structure Context where
  dialect : Dialect
  values : List Value := []

/-- Bind a value; the result is its placeholder, numbered from one. -/
def Context.bind (c : Context) (v : Value) : String × Context :=
  (c.dialect.placeholder (c.values.length + 1), { c with values := c.values ++ [v] })

/-- What takes the values bound so far, and fails or gives a result and the values bound then. -/
abbrev Writer (α : Type) := StateT (List Value) (Except SqlError) α

/-- A writer of text. -/
abbrev Written := Writer String

namespace Writer

/-- Write the placeholder of a value. -/
def param (d : Dialect) (v : Value) : Written := fun values =>
  let (placeholder, context) := Context.bind ⟨d, values⟩ v
  .ok (placeholder, context.values)

/-- Write SQL that binds nothing. -/
def plain (d : Dialect) (sql : Rendered) : Written := do
  return d.spell (← sql)

end Writer

/-- Write text in a context. -/
def Context.write (c : Context) (w : Dialect → Written) : Except SqlError (String × Context) :=
  ((w c.dialect).run c.values).map fun (text, values) => (text, { c with values })

end SqlAssembly
