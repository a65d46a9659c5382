import SqlAssembly.Operand

/-!
# Conditions

The condition of a `WHERE` or `HAVING` clause, built call by call. Predicates go into the innermost
open group; a group that is closed becomes a node of the group around it. Whether every group was
closed exactly once is asked only when the condition is rendered.
-/

namespace SqlAssembly

variable {σ τ : Type}

/-! ### Predicates -/

/-- Field, operator and operand. -/
structure Predicate (σ : Type) where
  field : Field
  operator : String
  operand : Operand σ

namespace Predicate

/-- The words that end an operator without a place for a value. -/
def valuelessWords : List String := ["NULL", "TRUE", "FALSE", "UNKNOWN"]

/-- Whether an operator has a place for a value: it is not blank, and its last word is none of those
that end one without. -/
def takesValue (operator : String) : Bool :=
  match (Text.words operator.toList).getLast? with
  | none => false
  | some word => !valuelessWords.any fun keyword => Text.isKeyword keyword word

/-- A predicate. A null value given to an operator without a place for it is dropped. -/
def of (field : Field) (operator : String) (operand : Operand σ) : Predicate σ :=
  match operand with
  | .value .null => ⟨field, operator, if takesValue operator then operand else .absent⟩
  | _ => ⟨field, operator, operand⟩

def map (f : σ → τ) (p : Predicate σ) : Predicate τ := ⟨p.field, p.operator, p.operand.map f⟩

end Predicate

/-! ### Trees -/

/-- A predicate or a group, with what joins it to its previous sibling. -/
inductive Node (σ : Type) where
  | leaf (connector : Connector) (predicate : Predicate σ)
  | group (connector : Connector) (children : List (Node σ))

namespace Node

/-- What joins the node to its previous sibling. -/
def connector : Node σ → Connector
  | leaf connector _ => connector
  | group connector _ => connector

mutual

def map (f : σ → τ) : Node σ → Node τ
  | leaf connector predicate => leaf connector (predicate.map f)
  | group connector children => group connector (mapAll f children)

/-- Change the queries of a list of nodes. -/
def mapAll (f : σ → τ) : List (Node σ) → List (Node τ)
  | [] => []
  | n :: ns => map f n :: mapAll f ns

end

mutual

/-- The queries of a node, in call order. -/
def queries : Node σ → List σ
  | leaf _ predicate => predicate.operand.queries
  | group _ children => queriesAll children

/-- The queries of a list of nodes. -/
def queriesAll : List (Node σ) → List σ
  | [] => []
  | n :: ns => queries n ++ queriesAll ns

end

end Node

/-- A group that is still open, with the nodes it holds so far. -/
structure OpenGroup (σ : Type) where
  connector : Connector
  children : List (Node σ)

def OpenGroup.map (f : σ → τ) (g : OpenGroup σ) : OpenGroup τ :=
  ⟨g.connector, Node.mapAll f g.children⟩

/-! ### Conditions -/

/-- How predicates and groups are wrapped. -/
inductive ConditionStyle where
  /-- `("a" = ?) AND ( ("b" = ?) OR ("c" = ?) )` -/
  | parenthesized
  /-- `"a" = ? AND ("b" = ? OR "c" = ?)` -/
  | bare
  deriving DecidableEq, Repr

/-- A condition that is being built. -/
structure Condition (σ : Type) where
  style : ConditionStyle
  /-- The nodes outside all open groups. -/
  root : List (Node σ) := []
  /-- The open groups, the innermost first. -/
  opened : List (OpenGroup σ) := []
  /-- The number of closes that met no open group. -/
  unopened : Nat := 0

/-- A step in building a condition. -/
inductive ConditionCall (σ : Type) where
  | add (connector : Connector) (field : Field) (operator : String) (operand : Operand σ)
  | openGroup (connector : Connector)
  | closeGroup

namespace Condition

/-- Append a node to the innermost open group. -/
def push (c : Condition σ) (n : Node σ) : Condition σ :=
  match c.opened with
  | [] => { c with root := c.root ++ [n] }
  | g :: gs => { c with opened := { g with children := g.children ++ [n] } :: gs }

/-- Close the innermost open group; without one the close is only counted. -/
def close (c : Condition σ) : Condition σ :=
  match c.opened with
  | [] => { c with unopened := c.unopened + 1 }
  | g :: gs => { c with opened := gs }.push (.group g.connector g.children)

def apply (c : Condition σ) : ConditionCall σ → Condition σ
  | .add connector field operator operand =>
    c.push (.leaf connector (.of field operator operand))
  | .openGroup connector => { c with opened := ⟨connector, []⟩ :: c.opened }
  | .closeGroup => c.close

/-- The condition after a sequence of calls. -/
def build (style : ConditionStyle) (calls : List (ConditionCall σ)) : Condition σ :=
  calls.foldl apply { style }

/-- Whether there is no node and no open group. -/
def isEmpty (c : Condition σ) : Bool := c.root.isEmpty && c.opened.isEmpty

/-- Fail unless every group was closed exactly once. -/
def check (c : Condition σ) : Except SqlError Unit :=
  if c.opened.length ≠ 0 then .error (.unclosedGroups c.opened.length)
  else if c.unopened ≠ 0 then .error (.unopenedGroups c.unopened)
  else .ok ()

def map (f : σ → τ) (c : Condition σ) : Condition τ :=
  ⟨c.style, Node.mapAll f c.root, c.opened.map (OpenGroup.map f), c.unopened⟩

/-- The queries in a condition: those outside the open groups in call order, then those in them. -/
def queries (c : Condition σ) : List σ :=
  Node.queriesAll c.root ++ c.opened.flatMap fun g => Node.queriesAll g.children

end Condition

end SqlAssembly
