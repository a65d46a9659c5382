import SqlAssembly.Select.Render

/-!
# Queries

A query is a select whose inner queries are queries again. `Query.fold` is the one recursion over
queries: it replaces every inner query by a result and combines, from the inside out. What is
computed from a query, its SQL first of all, is a fold with a function on selects that is not
recursive. `Query.fold_of` is its equation.
-/

namespace SqlAssembly

variable {τ : Type}

/-- A select with queries inside. -/
inductive Query where
  | of (select : Select Query)

namespace Query

/-- The select of a query. -/
def select : Query → Select Query
  | of s => s

/-! ### Folding -/

mutual

/-- Combine from the inside out. -/
def fold (f : Select τ → τ) : Query → τ
  | of s => f (foldSelect f s)

/-- Fold the queries of a select. -/
def foldSelect (f : Select τ → τ) : Select Query → Select τ
  | ⟨dialect, distinct, items, joins, filter, groupBy, having, orderBy, limit, offset, forUpdate,
      unions, deferred⟩ =>
    ⟨dialect, distinct, foldItems f items, foldJoins f joins, foldCondition f filter, groupBy,
      foldCondition f having, orderBy, limit, offset, forUpdate, foldUnions f unions, deferred⟩

/-- Fold the query of a source. -/
def foldSource (f : Select τ → τ) : Source Query → Source τ
  | .table name schema => .table name schema
  | .subquery query alias? => .subquery (fold f query) alias?

/-- Fold the query of an entry. -/
def foldItem (f : Select τ → τ) : SourceItem Query → SourceItem τ
  | .plain source columns => .plain (foldSource f source) columns
  | .lateral source columns => .lateral (foldSource f source) columns
  | .expressions columns => .expressions columns

/-- Fold the queries of entries. -/
def foldItems (f : Select τ → τ) : List (SourceItem Query) → List (SourceItem τ)
  | [] => []
  | i :: is => foldItem f i :: foldItems f is

/-- Fold the query of a join. -/
def foldJoin (f : Select τ → τ) : Join Query → Join τ
  | ⟨kind, source, condition, columns⟩ => ⟨kind, foldSource f source, condition, columns⟩

/-- Fold the queries of joins. -/
def foldJoins (f : Select τ → τ) : List (Join Query) → List (Join τ)
  | [] => []
  | j :: js => foldJoin f j :: foldJoins f js

/-- Fold the query of an operand. -/
def foldOperand (f : Select τ → τ) : Operand Query → Operand τ
  | .absent => .absent
  | .value v => .value v
  | .literal sql => .literal sql
  | .field g => .field g
  | .subquery query => .subquery (fold f query)

/-- Fold the query of a predicate. -/
def foldPredicate (f : Select τ → τ) : Predicate Query → Predicate τ
  | ⟨field, operator, operand⟩ => ⟨field, operator, foldOperand f operand⟩

/-- Fold the queries of a node. -/
def foldNode (f : Select τ → τ) : Node Query → Node τ
  | .leaf connector predicate => .leaf connector (foldPredicate f predicate)
  | .group connector children => .group connector (foldNodes f children)

/-- Fold the queries of nodes. -/
def foldNodes (f : Select τ → τ) : List (Node Query) → List (Node τ)
  | [] => []
  | n :: ns => foldNode f n :: foldNodes f ns

/-- Fold the queries of an open group. -/
def foldGroup (f : Select τ → τ) : OpenGroup Query → OpenGroup τ
  | ⟨connector, children⟩ => ⟨connector, foldNodes f children⟩

/-- Fold the queries of open groups. -/
def foldGroups (f : Select τ → τ) : List (OpenGroup Query) → List (OpenGroup τ)
  | [] => []
  | g :: gs => foldGroup f g :: foldGroups f gs

/-- Fold the queries of a condition. -/
def foldCondition (f : Select τ → τ) : Condition Query → Condition τ
  | ⟨style, root, opened, unopened⟩ => ⟨style, foldNodes f root, foldGroups f opened, unopened⟩

/-- Fold the query of a union member. -/
def foldMember (f : Select τ → τ) : UnionMember Query → UnionMember τ
  | .query q => .query (fold f q)
  | .literal sql => .literal sql
  | .refused kind => .refused kind

/-- Fold the query of a union part. -/
def foldUnion (f : Select τ → τ) : UnionPart Query → UnionPart τ
  | ⟨member, kind⟩ => ⟨foldMember f member, kind⟩

/-- Fold the queries of union parts. -/
def foldUnions (f : Select τ → τ) : List (UnionPart Query) → List (UnionPart τ)
  | [] => []
  | u :: us => foldUnion f u :: foldUnions f us

end

/-! ### The equation of the fold -/

section Equations

variable (f : Select τ → τ)

theorem foldSource_eq_map (s : Source Query) : foldSource f s = s.map (fold f) := by
  cases s <;> rfl

theorem foldItem_eq_map (i : SourceItem Query) : foldItem f i = i.map (fold f) := by
  cases i <;> simp [foldItem, SourceItem.map, foldSource_eq_map]

theorem foldItems_eq_map (is : List (SourceItem Query)) :
    foldItems f is = is.map (SourceItem.map (fold f)) := by
  induction is with
  | nil => rfl
  | cons i is ih => simp [foldItems, foldItem_eq_map, ih]

theorem foldJoins_eq_map (js : List (Join Query)) :
    foldJoins f js = js.map (Join.map (fold f)) := by
  induction js with
  | nil => rfl
  | cons j js ih => cases j; simp [foldJoins, foldJoin, Join.map, foldSource_eq_map, ih]

theorem foldOperand_eq_map (o : Operand Query) : foldOperand f o = o.map (fold f) := by
  cases o <;> rfl

theorem foldPredicate_eq_map (p : Predicate Query) : foldPredicate f p = p.map (fold f) := by
  cases p; simp [foldPredicate, Predicate.map, foldOperand_eq_map]

mutual

theorem foldNode_eq_map (n : Node Query) : foldNode f n = n.map (fold f) := by
  match n with
  | .leaf c p => simp [foldNode, Node.map, foldPredicate_eq_map]
  | .group c ns => simp [foldNode, Node.map, foldNodes_eq_map ns]

theorem foldNodes_eq_map (ns : List (Node Query)) : foldNodes f ns = Node.mapAll (fold f) ns := by
  match ns with
  | [] => rfl
  | n :: ns => simp [foldNodes, Node.mapAll, foldNode_eq_map n, foldNodes_eq_map ns]

end

theorem foldGroups_eq_map (gs : List (OpenGroup Query)) :
    foldGroups f gs = gs.map (OpenGroup.map (fold f)) := by
  induction gs with
  | nil => rfl
  | cons g gs ih => cases g; simp [foldGroups, foldGroup, OpenGroup.map, foldNodes_eq_map, ih]

theorem foldCondition_eq_map (c : Condition Query) : foldCondition f c = c.map (fold f) := by
  cases c; simp [foldCondition, Condition.map, foldNodes_eq_map, foldGroups_eq_map]

theorem foldMember_eq_map (m : UnionMember Query) : foldMember f m = m.map (fold f) := by
  cases m <;> rfl

theorem foldUnions_eq_map (us : List (UnionPart Query)) :
    foldUnions f us = us.map (UnionPart.map (fold f)) := by
  induction us with
  | nil => rfl
  | cons u us ih => cases u; simp [foldUnions, foldUnion, UnionPart.map, foldMember_eq_map, ih]

theorem foldSelect_eq_map (s : Select Query) : foldSelect f s = s.map (fold f) := by
  cases s
  simp [foldSelect, Select.map, foldItems_eq_map, foldJoins_eq_map, foldCondition_eq_map,
    foldUnions_eq_map]

/-- A fold combines the results of the inner queries. -/
@[simp] theorem fold_of (s : Select Query) : fold f (of s) = f (s.map (fold f)) := by
  rw [fold, foldSelect_eq_map]

end Equations

/-! ### Rendering -/

def write (d : Dialect) : Query → Written := fold (Select.write d)

theorem write_of (d : Dialect) (s : Select Query) :
    write d (of s) = (s.map (write d)).write d :=
  fold_of _ _

/-- The SQL of a query. -/
def render (d : Dialect) : Query → Rendered := fold (Select.render d)

theorem render_of (d : Dialect) (s : Select Query) :
    render d (of s) = (s.map (render d)).render d :=
  fold_of _ _

end Query

end SqlAssembly
