import SqlAssembly.Proofs.Building
import SqlAssembly.Proofs.Writing.Statement
import Mathlib.Algebra.Ring.Int.Defs
import Mathlib.Data.List.Infix

/-!
# The groups that calls spell

The calls on a condition open and close groups as brackets do. Read as brackets they spell trees
(`ConditionCall.ReadAs`), and calls whose brackets match can be read
(`WellBracketed.exists_readAs`). The condition that the calls build shows these trees without the
groups that hold no predicate, provided that each predicate shows something
(`Condition.assemble_build_readAs`).
-/

namespace SqlAssembly

variable {α β σ : Type}

/-! ### Trees of brackets -/

/-- A leaf or a group in brackets, with what joins it to its left neighbour. -/
inductive BracketTree (α : Type) where
  | leaf (connector : Connector) (a : α)
  | group (connector : Connector) (children : List (BracketTree α))

namespace BracketTree

/-- What joins the tree to its left neighbour. -/
def connector : BracketTree α → Connector
  | leaf connector _ => connector
  | group connector _ => connector

mutual

/-- The leaves of a tree, from left to right. -/
def leaves : BracketTree α → List α
  | leaf _ a => [a]
  | group _ children => leavesAll children

/-- The leaves of a list of trees. -/
def leavesAll : List (BracketTree α) → List α
  | [] => []
  | t :: ts => leaves t ++ leavesAll ts

end

mutual

/-- The tree without the groups below it that hold no leaf. -/
def prune : BracketTree α → BracketTree α
  | leaf connector a => leaf connector a
  | group connector children => group connector (pruneAll children)

/-- The trees that hold a leaf, without the groups in them that hold none. -/
def pruneAll : List (BracketTree α) → List (BracketTree α)
  | [] => []
  | t :: ts => if t.leaves.isEmpty then pruneAll ts else prune t :: pruneAll ts

end

section Steps

variable {m : Type → Type} [Monad m] (f : α → m β)

mutual

/-- Replace the leaves of a tree, one after the other from left to right. -/
def mapM : BracketTree α → m (BracketTree β)
  | leaf connector a => do return leaf connector (← f a)
  | group connector children => do return group connector (← mapMAll children)

/-- Replace the leaves of a list of trees. -/
def mapMAll : List (BracketTree α) → m (List (BracketTree β))
  | [] => return []
  | t :: ts => do
    let first ← mapM t
    let rest ← mapMAll ts
    return first :: rest

end

end Steps

mutual

/-- The text of a tree of texts: the leaf or the group between the marks of the style. -/
def text (style : ConditionStyle) : BracketTree String → String
  | leaf _ s => style.predicateMarks.1 ++ s ++ style.predicateMarks.2
  | group _ children => style.groupMarks.1 ++ textAll style children ++ style.groupMarks.2

/-- The text of siblings. The connector of the first one is not shown. -/
def textAll (style : ConditionStyle) : List (BracketTree String) → String
  | [] => ""
  | t :: ts => text style t ++ textRest style ts

/-- The text of siblings that have a left neighbour, each behind its connector. -/
def textRest (style : ConditionStyle) : List (BracketTree String) → String
  | [] => ""
  | t :: ts => " " ++ t.connector.keyword ++ " " ++ text style t ++ textRest style ts

end

end BracketTree

/-! ### Reading calls as brackets -/

namespace ConditionCall

/-- What a call adds to the number of open groups. -/
def opening : ConditionCall σ → Int
  | openGroup _ => 1
  | closeGroup => -1
  | add _ _ _ _ => 0

/-- The groups that calls open less those that they close. -/
def depth (calls : List (ConditionCall σ)) : Int := (calls.map opening).sum

/-- The brackets of calls match: no beginning of the calls closes more groups than it opens, and all
of them close as many as they open. -/
structure WellBracketed (calls : List (ConditionCall σ)) : Prop where
  nonneg : ∀ start, start <+: calls → 0 ≤ depth start
  settled : depth calls = 0

/-- Calls read as brackets: a call that adds a predicate is a leaf, and what stands between an
opening call and the closing call that belongs to it are the children of a group. -/
inductive ReadAs : List (ConditionCall σ) → List (BracketTree (Predicate σ)) → Prop
  | nil : ReadAs [] []
  | add {connector : Connector} {field : Field} {operator : String} {operand : Operand σ}
      {calls : List (ConditionCall σ)} {ts : List (BracketTree (Predicate σ))}
      (rest : ReadAs calls ts) :
      ReadAs (.add connector field operator operand :: calls)
        (.leaf connector (.of field operator operand) :: ts)
  | group {connector : Connector} {inner calls : List (ConditionCall σ)}
      {children ts : List (BracketTree (Predicate σ))}
      (body : ReadAs inner children) (rest : ReadAs calls ts) :
      ReadAs (.openGroup connector :: (inner ++ .closeGroup :: calls))
        (.group connector children :: ts)

@[simp] theorem depth_nil : depth ([] : List (ConditionCall σ)) = 0 := rfl

@[simp] theorem depth_cons (call : ConditionCall σ) (calls : List (ConditionCall σ)) :
    depth (call :: calls) = call.opening + depth calls := by
  simp [depth]

/-- The calls close `n` groups besides those that they open, none of which is missing on the way. -/
def Closes (n : Nat) (calls : List (ConditionCall σ)) : Prop :=
  (∀ start, start <+: calls → 0 ≤ n + depth start) ∧ n + depth calls = 0

theorem Closes.tail {n m : Nat} {call : ConditionCall σ} {calls : List (ConditionCall σ)}
    (h : Closes n (call :: calls)) (hm : (m : Int) = n + call.opening) : Closes m calls := by
  obtain ⟨hstart, hall⟩ := h
  constructor
  · intro start hprefix
    have := hstart (call :: start) (List.cons_prefix_cons.2 ⟨rfl, hprefix⟩)
    rw [depth_cons] at this
    omega
  · rw [depth_cons] at hall
    omega

/-- Calls that close `n` groups besides their own can be read up to the first close of such a
group. -/
theorem Closes.exists_readAs {n : Nat} {calls : List (ConditionCall σ)} (h : Closes n calls) :
    ∃ inner ts rest, calls = inner ++ rest ∧ ReadAs inner ts
      ∧ (n = 0 ∧ rest = [] ∨ ∃ k after, n = k + 1 ∧ rest = .closeGroup :: after
          ∧ Closes k after) := by
  -- By induction on the number of calls: behind a group the reading goes on with a proper rest.
  induction hlength : calls.length using Nat.strongRecOn generalizing n calls with
  | ind length ih =>
    subst hlength
    match calls with
    | [] =>
      have hn : n = 0 := by simpa using h.2
      exact ⟨[], [], [], rfl, .nil, .inl ⟨hn, rfl⟩⟩
    | .add connector field operator operand :: calls =>
      have hcalls : Closes n calls := h.tail (by simp [opening])
      obtain ⟨inner, ts, rest, rfl, hread, hrest⟩ := ih _ (by simp) hcalls rfl
      exact ⟨_, _, rest, rfl, .add hread, hrest⟩
    | .closeGroup :: calls =>
      have hpos : 0 < n := by
        have := h.1 [.closeGroup] (by simp)
        simp only [depth_cons, depth_nil, opening] at this
        omega
      obtain ⟨k, rfl⟩ : ∃ k, n = k + 1 := ⟨n - 1, by omega⟩
      have hcalls : Closes k calls := h.tail (by simp only [opening]; omega)
      exact ⟨[], [], _, rfl, .nil, .inr ⟨k, calls, rfl, rfl, hcalls⟩⟩
    | .openGroup connector :: calls =>
      have hcalls : Closes (n + 1) calls := h.tail (by simp [opening])
      obtain ⟨inner, children, rest, rfl, hbody, hrest⟩ := ih _ (by simp) hcalls rfl
      obtain ⟨hn, _⟩ | ⟨k, after, hk, rfl, hafter⟩ := hrest
      · omega
      · obtain rfl : k = n := by omega
        obtain ⟨inner', ts, rest, rfl, hread, hrest⟩ :=
          ih _ (by simp; omega) hafter rfl
        exact ⟨.openGroup connector :: (inner ++ .closeGroup :: inner'), _, rest, by simp,
          .group hbody hread, hrest⟩

/-- Calls whose brackets match can be read as brackets. -/
theorem WellBracketed.exists_readAs {calls : List (ConditionCall σ)} (h : WellBracketed calls) :
    ∃ ts, ReadAs calls ts := by
  have hcloses : Closes 0 calls := by
    refine ⟨fun start hstart => ?_, ?_⟩
    · simpa using h.nonneg start hstart
    · simpa using h.settled
  obtain ⟨inner, ts, rest, rfl, hread, ⟨_, rfl⟩ | ⟨k, _, hk, _⟩⟩ := hcloses.exists_readAs
  · exact ⟨ts, by simpa using hread⟩
  · omega

/-- The leaves that calls are read as are the predicates that they add, in call order. -/
theorem ReadAs.leavesAll_eq {calls : List (ConditionCall σ)}
    {ts : List (BracketTree (Predicate σ))} (h : ReadAs calls ts) :
    BracketTree.leavesAll ts = calls.filterMap predicate? := by
  induction h with
  | nil => rfl
  | add _ ih => simp [BracketTree.leavesAll, BracketTree.leaves, predicate?, ih]
  | group _ _ ihbody ihrest =>
    simp [BracketTree.leavesAll, BracketTree.leaves, List.filterMap_cons, predicate?, ihbody,
      ihrest]

end ConditionCall

/-! ### The condition that calls build -/

namespace BracketTree

mutual

/-- The tree as a node of a condition. -/
def toNode : BracketTree (Predicate σ) → Node σ
  | leaf connector p => .leaf connector p
  | group connector children => .group connector (toNodes children)

/-- Trees as nodes of a condition. -/
def toNodes : List (BracketTree (Predicate σ)) → List (Node σ)
  | [] => []
  | t :: ts => toNode t :: toNodes ts

end

@[simp] theorem connector_toNode (t : BracketTree (Predicate σ)) :
    t.toNode.connector = t.connector := by
  cases t <;> simp [toNode, Node.connector, connector]

end BracketTree

namespace Condition

theorem foldl_push_root (style : ConditionStyle) (ns ms : List (Node σ)) :
    ns.foldl push { style, root := ms } = { style, root := ms ++ ns } := by
  induction ns generalizing ms with
  | nil => simp
  | cons n ns ih => rw [List.foldl_cons, push, ih]; simp

theorem foldl_push_group (c : Condition σ) (g : OpenGroup σ) (gs : List (OpenGroup σ))
    (ns : List (Node σ)) :
    ns.foldl push { c with opened := g :: gs }
      = { c with opened := { g with children := g.children ++ ns } :: gs } := by
  induction ns generalizing g with
  | nil => simp
  | cons n ns ih => rw [List.foldl_cons, push, ih]; simp

/-- Calls that can be read as brackets append the trees that they spell to the innermost open
group, and leave everything else as it was. -/
theorem foldl_apply_of_readAs {calls : List (ConditionCall σ)}
    {ts : List (BracketTree (Predicate σ))} (h : ConditionCall.ReadAs calls ts)
    (c : Condition σ) : calls.foldl apply c = (BracketTree.toNodes ts).foldl push c := by
  induction h generalizing c with
  | nil => rfl
  | add rest ih => exact ih _
  | @group connector inner calls children ts body rest ihbody ihrest =>
    have hopen : c.apply (.openGroup connector)
        = { c with opened := ⟨connector, []⟩ :: c.opened } := rfl
    have hclose : apply { c with opened := ⟨connector, BracketTree.toNodes children⟩ :: c.opened }
          .closeGroup
        = c.push (.group connector (BracketTree.toNodes children)) := rfl
    rw [List.foldl_cons, List.foldl_append, List.foldl_cons, hopen, ihbody, foldl_push_group,
      List.nil_append, hclose, ihrest]
    rfl

/-- The nodes of a condition are the trees that its calls spell. -/
theorem build_of_readAs (style : ConditionStyle) {calls : List (ConditionCall σ)}
    {ts : List (BracketTree (Predicate σ))} (h : ConditionCall.ReadAs calls ts) :
    build style calls = { style, root := BracketTree.toNodes ts } := by
  rw [build, foldl_apply_of_readAs h, foldl_push_root, List.nil_append]

/-! ### Which calls are balanced -/

theorem opened_push (c : Condition σ) (n : Node σ) :
    (c.push n).opened.length = c.opened.length := by
  unfold push
  cases c.opened <;> simp

theorem unopened_push (c : Condition σ) (n : Node σ) : (c.push n).unopened = c.unopened := by
  unfold push
  cases c.opened <;> rfl

/-- A call changes the number of open groups by what it opens; a close that meets no open group is
counted instead. -/
theorem opened_apply (c : Condition σ) (call : ConditionCall σ) :
    ((c.apply call).opened.length : Int) - (c.apply call).unopened
        = c.opened.length - c.unopened + call.opening
      ∧ c.unopened ≤ (c.apply call).unopened := by
  cases call with
  | add connector field operator operand =>
    simp [apply, opened_push, unopened_push, ConditionCall.opening]
  | openGroup connector =>
    simp only [apply, ConditionCall.opening, List.length_cons]
    omega
  | closeGroup =>
    simp only [apply, close, ConditionCall.opening]
    cases h : c.opened with
    | nil => simp; omega
    | cons g gs =>
      simp only [opened_push, unopened_push, List.length_cons]
      omega

theorem opened_foldl_apply (c : Condition σ) (calls : List (ConditionCall σ)) :
    ((calls.foldl apply c).opened.length : Int) - (calls.foldl apply c).unopened
        = c.opened.length - c.unopened + ConditionCall.depth calls
      ∧ c.unopened ≤ (calls.foldl apply c).unopened := by
  induction calls generalizing c with
  | nil => simp
  | cons call calls ih =>
    obtain ⟨hopened, hunopened⟩ := opened_apply c call
    obtain ⟨hrest, hunopenedRest⟩ := ih (c.apply call)
    rw [List.foldl_cons, ConditionCall.depth_cons]
    omega

theorem opened_build (style : ConditionStyle) (calls : List (ConditionCall σ)) :
    ((build style calls).opened.length : Int) - (build style calls).unopened
      = ConditionCall.depth calls := by
  have hopened := (opened_foldl_apply { style } calls).1
  rw [build]
  simpa using hopened

/-- The groups of a condition are balanced exactly if the brackets of its calls match. -/
theorem check_build (style : ConditionStyle) (calls : List (ConditionCall σ)) :
    (build style calls).check = .ok () ↔ ConditionCall.WellBracketed calls := by
  constructor
  · intro h
    have hopened : (build style calls).opened.length = 0 := by
      rw [opened_eq_nil h, List.length_nil]
    have hunopened : (build style calls).unopened = 0 := by
      by_contra hne
      simp [check, hopened, hne] at h
    refine ⟨?_, by have := opened_build style calls; omega⟩
    -- What is counted as unopened stays so, hence nothing is behind any beginning of the calls.
    rintro start ⟨rest, rfl⟩
    have hstart := opened_build style start
    have hrest := (opened_foldl_apply (build style start) rest).2
    have hall : rest.foldl apply (build style start) = build style (start ++ rest) := by
      rw [build, build, List.foldl_append]
    rw [hall] at hrest
    omega
  · intro h
    obtain ⟨ts, hts⟩ := h.exists_readAs
    rw [build_of_readAs style hts]
    rfl

/-- A condition whose groups are balanced is empty exactly if there was no call. -/
theorem isEmpty_build (style : ConditionStyle) {calls : List (ConditionCall σ)}
    (h : ConditionCall.WellBracketed calls) :
    (build style calls).isEmpty = true ↔ calls = [] := by
  obtain ⟨ts, hts⟩ := h.exists_readAs
  rw [build_of_readAs style hts]
  cases hts <;> simp [isEmpty, BracketTree.toNodes]

end Condition

/-! ### What the condition shows -/

namespace BracketTree

mutual

theorem leaves_prune (t : BracketTree α) : t.prune.leaves = t.leaves := by
  match t with
  | leaf connector a => rfl
  | group connector children => simp only [prune, leaves, leavesAll_pruneAll children]

/-- The groups that are left out have no leaves. -/
theorem leavesAll_pruneAll (ts : List (BracketTree α)) :
    leavesAll (pruneAll ts) = leavesAll ts := by
  match ts with
  | [] => rfl
  | t :: ts =>
    rw [pruneAll]
    split
    · rename_i hempty
      rw [leavesAll_pruneAll ts, leavesAll, List.isEmpty_iff.1 hempty, List.nil_append]
    · rw [leavesAll, leavesAll, leaves_prune t, leavesAll_pruneAll ts]

end

theorem pruneAll_eq_nil {ts : List (BracketTree α)} : pruneAll ts = [] ↔ leavesAll ts = [] := by
  induction ts with
  | nil => simp [pruneAll, leavesAll]
  | cons t ts ih =>
    rw [pruneAll, leavesAll, List.append_eq_nil_iff, ← List.isEmpty_iff (l := t.leaves)]
    by_cases h : t.leaves.isEmpty <;> simp [h, ih]

section Steps

variable {m : Type → Type} [Monad m] [LawfulMonad m] (f : α → m β)

mutual

theorem leaves_mapM (t : BracketTree α) : leaves <$> t.mapM f = t.leaves.mapM f := by
  match t with
  | leaf connector a => simp [mapM, leaves]
  | group connector children =>
    rw [leaves, ← leavesAll_mapMAll children]
    simp [mapM, leaves]

/-- The leaves are replaced one after the other. -/
theorem leavesAll_mapMAll (ts : List (BracketTree α)) :
    leavesAll <$> mapMAll f ts = (leavesAll ts).mapM f := by
  match ts with
  | [] => simp [mapMAll, leavesAll]
  | t :: ts =>
    rw [leavesAll, List.mapM_append, ← leaves_mapM t, ← leavesAll_mapMAll ts]
    simp [mapMAll, leavesAll]

end

end Steps

end BracketTree

/-- Whether what a writer writes as a predicate shows something, whatever is bound before it. -/
def ConditionStyle.Shows (style : ConditionStyle) (w : Written) : Prop :=
  ∀ bound text after, w.run bound = .ok (text, after) →
    style.predicateMarks.1 ++ text ++ style.predicateMarks.2 ≠ ""

namespace BracketTree

variable {d : Dialect} {owner : Option RecordType} {style : ConditionStyle}

/-- Siblings show something if their predicates do. -/
theorem textAll_ne_empty {g : α → Written} {ts : List (BracketTree α)} (hne : ts ≠ [])
    (hshown : ∀ a ∈ leavesAll ts, style.Shows (g a)) {bound after : List Value}
    {texts : List (BracketTree String)} (h : (mapMAll g ts).run bound = .ok (texts, after)) :
    textAll style texts ≠ "" := by
  obtain ⟨t, ts, rfl⟩ := List.exists_cons_of_ne_nil hne
  rw [mapMAll] at h
  obtain ⟨first, mid, hfirst, h⟩ := Except.run_bind_eq_ok.1 h
  obtain ⟨rest, last, -, h⟩ := Except.run_bind_eq_ok.1 h
  cases h
  have htext : text style first ≠ "" := by
    cases t with
    | leaf connector a =>
      rw [mapM] at hfirst
      obtain ⟨s, mid', hs, hfirst⟩ := Except.run_bind_eq_ok.1 hfirst
      cases hfirst
      exact hshown a (by simp [leavesAll, leaves]) bound s _ hs
    | group connector children =>
      rw [mapM] at hfirst
      obtain ⟨ts', mid', -, hfirst⟩ := Except.run_bind_eq_ok.1 hfirst
      cases hfirst
      cases style <;> simp [text, ConditionStyle.groupMarks, String.append_eq_empty_iff]
  intro hempty
  exact htext (String.append_eq_empty_iff.1 hempty).1

/-- The texts of siblings, each with its connector. -/
def siblings (style : ConditionStyle) (ts : List (BracketTree String)) :
    List (Connector × String) :=
  ts.map fun t => (t.connector, t.text style)

theorem joinTexts_siblings (ts : List (BracketTree String)) :
    Node.joinTexts (siblings style ts) = textAll style ts := by
  cases ts with
  | nil => rfl
  | cons t ts =>
    have hrest : String.join ((siblings style ts).map fun part =>
        " " ++ part.1.keyword ++ " " ++ part.2) = textRest style ts := by
      induction ts with
      | nil => rfl
      | cons u us ih =>
        rw [textRest, ← ih]
        simp [siblings]
    rw [textAll, ← hrest]
    rfl

variable {f : σ → Written}

/-- How the predicate of a leaf is written. -/
def writeLeaf (d : Dialect) (owner : Option RecordType) (f : σ → Written) (p : Predicate σ) :
    Written :=
  (p.map f).write d owner

mutual

/-- A group without predicates is left out. Everything else is written with its connector. -/
theorem write_toNode (t : BracketTree (Predicate σ))
    (hshown : ∀ p ∈ t.leaves, style.Shows (writeLeaf d owner f p)) :
    (t.toNode.map f).write d owner style
      = if t.leaves.isEmpty then pure none
        else (fun u => some (text style u)) <$> t.prune.mapM (writeLeaf d owner f) := by
  match t with
  | leaf connector p =>
    simp [toNode, Node.map, Node.write, leaves, prune, mapM, writeLeaf, text]
  | group connector children =>
    have ih := writeAll_toNodes children hshown
    rw [toNode, Node.map, Node.write, ih, leaves, prune]
    by_cases hempty : leavesAll children = []
    · rw [pruneAll_eq_nil.2 hempty, hempty]
      rfl
    · have hne : pruneAll children ≠ [] := fun h => hempty (pruneAll_eq_nil.1 h)
      rw [if_neg (by simpa using hempty)]
      ext bound
      cases h : (mapMAll (writeLeaf d owner f) (pruneAll children)).run bound with
      | error e => simp [mapM, h]
      | ok r =>
        obtain ⟨texts, after⟩ := r
        have htext : textAll style texts ≠ "" :=
          textAll_ne_empty hne (by rwa [leavesAll_pruneAll]) h
        simp [mapM, h, joinTexts_siblings, htext, text]

theorem writeAll_toNodes (ts : List (BracketTree (Predicate σ)))
    (hshown : ∀ p ∈ leavesAll ts, style.Shows (writeLeaf d owner f p)) :
    Node.writeAll d owner style (Node.mapAll f (toNodes ts))
      = siblings style <$> mapMAll (writeLeaf d owner f) (pruneAll ts) := by
  match ts with
  | [] => simp [toNodes, Node.mapAll, Node.writeAll, pruneAll, mapMAll, siblings]
  | t :: ts =>
    rw [toNodes, Node.mapAll, Node.writeAll,
      write_toNode t fun p hp => hshown p (by simp [leavesAll, hp]),
      writeAll_toNodes ts fun p hp => hshown p (by simp [leavesAll, hp]), pruneAll]
    by_cases hempty : t.leaves.isEmpty
    · simp [hempty]
    · rw [if_neg hempty, if_neg hempty]
      cases t <;>
        simp [toNode, Node.map, Node.connector, prune, mapM, mapMAll, siblings, connector]

end

end BracketTree

/-! ### Conditions in a context -/

namespace Context

/-- The text of what is written in a context that may hold values already, and all values. -/
def assemble (c : Context) (w : Dialect → Written) : Except SqlError Assembled :=
  (c.write w).map fun (text, context) => ⟨text, context.values⟩

theorem assemble_eq_map (c : Context) (w : Dialect → Written) :
    c.assemble w = ((w c.dialect).run c.values).map fun (text, values) => ⟨text, values⟩ := by
  rw [assemble, write]
  cases (w c.dialect).run c.values <;> rfl

theorem assemble_eq_error {c : Context} {w : Dialect → Written} {e : SqlError} :
    c.assemble w = .error e ↔ (w c.dialect).run c.values = .error e := by
  rw [assemble_eq_map]
  cases (w c.dialect).run c.values <;> simp

end Context

/-- The text of a predicate, not wrapped, in a context. -/
def Predicate.assemble (context : Context) (owner : Option RecordType) (p : Predicate Query) :
    Except SqlError Assembled :=
  context.assemble fun d => (p.map (Query.write d)).write d owner

/-- The text of trees of predicates in a context: the predicates are written one after the other
from left to right, and their texts are put into the trees. -/
def BracketTree.assemble (style : ConditionStyle) (context : Context) (owner : Option RecordType)
    (ts : List (BracketTree (Predicate Query))) : Except SqlError Assembled :=
  context.assemble fun d => do
    let texts ← mapMAll (fun p => (p.map (Query.write d)).write d owner) ts
    return textAll style texts

variable {d : Dialect} {owner : Option RecordType} {style : ConditionStyle} {context : Context}

namespace Predicate

/-- Writing a predicate follows rendering it, whatever queries are in it. -/
theorem write_eq (p : Predicate Query) :
    (p.map (Query.write d)).write d owner
      = Writer.ofRendered d ((p.map (Query.render d)).render d owner) := by
  have hwrite : Query.write d = Writer.ofRendered d ∘ Query.render d := funext (Query.write_eq d)
  rw [hwrite, ← Predicate.map_map, Predicate.write_map]

theorem assemble_eq (p : Predicate Query) :
    p.assemble context owner
      = ((p.map (Query.render context.dialect)).render context.dialect owner).map fun sql =>
          ⟨sql.spell context.dialect context.values.length, context.values ++ sql.values⟩ := by
  rw [assemble, Context.assemble_eq_map, write_eq, Writer.run_ofRendered]
  cases (p.map (Query.render context.dialect)).render context.dialect owner <;> rfl

/-- A predicate that shows something in one context does so behind any values. -/
theorem shows_of_assemble {p : Predicate Query}
    (h : style = .bare → ∀ a, p.assemble context owner = .ok a → a.sql ≠ "") :
    style.Shows ((p.map (Query.write context.dialect)).write context.dialect owner) := by
  intro bound text after hrun
  cases style with
  | parenthesized => simp [ConditionStyle.predicateMarks, String.append_eq_empty_iff]
  | bare =>
    rw [write_eq, Writer.run_ofRendered] at hrun
    obtain ⟨sql, hsql, hrun⟩ := Except.bind_eq_ok.1 hrun
    cases hrun
    have hdefinite := isDefinite_render hsql
    have hne : sql.spell context.dialect context.values.length ≠ "" := by
      refine h rfl ⟨_, context.values ++ sql.values⟩ ?_
      rw [assemble_eq, hsql]
      rfl
    have hempty : (sql.spell context.dialect bound.length).isEmpty = false := by
      rw [hdefinite bound.length, ← hdefinite context.values.length]
      simpa using hne
    simpa [ConditionStyle.predicateMarks] using hempty

end Predicate

/-- Trees of predicates fail as the first of their predicates that fails. -/
theorem BracketTree.assemble_eq_error {ts : List (BracketTree (Predicate Query))} {e : SqlError} :
    BracketTree.assemble style context owner ts = .error e
      ↔ ∃ before p after, leavesAll ts = before ++ p :: after
        ∧ (∀ q ∈ before, ∃ a, q.assemble context owner = .ok a)
        ∧ p.assemble context owner = .error e := by
  let d := context.dialect
  let render (p : Predicate Query) : Rendered := (p.map (Query.render d)).render d owner
  let write (p : Predicate Query) : Written := (p.map (Query.write d)).write d owner
  have hwrite : write = fun p => Writer.ofRendered d (render p) :=
    funext fun p => Predicate.write_eq p
  have hleaves : (leavesAll <$> mapMAll write ts).run context.values
      = (Writer.ofParts d ((leavesAll ts).mapM render)).run context.values := by
    rw [leavesAll_mapMAll, hwrite, Writer.mapM_ofRendered]
  have hmapM : BracketTree.assemble style context owner ts = .error e
      ↔ (leavesAll ts).mapM render = .error e := by
    rw [BracketTree.assemble, Context.assemble_eq_error]
    change (textAll style <$> mapMAll write ts).run context.values = .error e ↔ _
    rw [Writer.run_ofParts, StateT.run_map] at hleaves
    rw [StateT.run_map]
    cases hrun : (mapMAll write ts).run context.values with
    | error e' =>
      cases hrender : (leavesAll ts).mapM render with
      | error e'' =>
        rw [hrun, hrender] at hleaves
        cases hleaves
        simp
      | ok sqls =>
        rw [hrun, hrender] at hleaves
        cases hleaves
    | ok r =>
      cases hrender : (leavesAll ts).mapM render with
      | error e'' =>
        rw [hrun, hrender] at hleaves
        cases hleaves
      | ok sqls => simp
  have hok (p : Predicate Query) :
      (∃ a, p.assemble context owner = .ok a) ↔ ∃ sql, render p = .ok sql := by
    simp only [Predicate.assemble_eq, Except.map_eq_ok]
    exact ⟨fun ⟨_, sql, hsql, _⟩ => ⟨sql, hsql⟩, fun ⟨sql, hsql⟩ => ⟨_, sql, hsql, rfl⟩⟩
  have herror (p : Predicate Query) :
      p.assemble context owner = .error e ↔ render p = .error e := by
    rw [Predicate.assemble_eq]
    cases h : render p <;> simp [render] at h <;> simp [d, h]
  rw [hmapM, Except.mapM_eq_error]
  simp only [hok, herror]

/-- The condition whose nodes are trees shows what they show without the groups that hold no
predicate. -/
theorem Condition.write_toNodes {f : Query → Written} {ts : List (BracketTree (Predicate Query))}
    (hshown : ∀ p ∈ BracketTree.leavesAll ts, style.Shows (BracketTree.writeLeaf d owner f p)) :
    (Condition.map f { style, root := BracketTree.toNodes ts }).write d owner
      = BracketTree.textAll style
          <$> BracketTree.mapMAll (BracketTree.writeLeaf d owner f) (BracketTree.pruneAll ts) := by
  have hnodes := BracketTree.writeAll_toNodes ts hshown
  have hwrite : (Condition.map f { style, root := BracketTree.toNodes ts }).write d owner
      = Node.joinTexts <$> Node.writeAll d owner style (Node.mapAll f (BracketTree.toNodes ts)) :=
    rfl
  rw [hwrite, hnodes, Functor.map_map]
  simp only [BracketTree.joinTexts_siblings]

/-- Calls whose brackets match can be read as trees of groups, and the condition that they build
shows these trees without the groups that hold no predicate: it has the same text and the same
values in every context, or fails as the first predicate does that fails. A predicate that is not
wrapped must show something for this, as in the bare style a group whose predicates show nothing is
left out like one that has none. -/
theorem Condition.assemble_build_readAs {calls : List (ConditionCall Query)}
    (hcalls : ConditionCall.WellBracketed calls) :
    (∃ ts, ConditionCall.ReadAs calls ts)
    ∧ ∀ ts, ConditionCall.ReadAs calls ts →
      ∀ (style : ConditionStyle) (context : Context) (owner : Option RecordType),
        (style = .bare → ∀ p ∈ calls.filterMap ConditionCall.predicate?, ∀ a,
          p.assemble context owner = .ok a → a.sql ≠ "") →
        (build style calls).assemble context owner
            = BracketTree.assemble style context owner (BracketTree.pruneAll ts)
          ∧ ∀ e, (build style calls).assemble context owner = .error e ↔
            ∃ before p after, calls.filterMap ConditionCall.predicate? = before ++ p :: after
              ∧ (∀ q ∈ before, ∃ a, q.assemble context owner = .ok a)
              ∧ p.assemble context owner = .error e := by
  refine ⟨hcalls.exists_readAs, fun ts hread style context owner hshown => ?_⟩
  have hequal : (build style calls).assemble context owner
      = BracketTree.assemble style context owner (BracketTree.pruneAll ts) := by
    have hleaves : ∀ p ∈ BracketTree.leavesAll ts, style.Shows
        (BracketTree.writeLeaf context.dialect owner (Query.write context.dialect) p) := by
      intro p hp
      rw [hread.leavesAll_eq] at hp
      exact Predicate.shows_of_assemble fun hbare => hshown hbare p hp
    change context.assemble _ = context.assemble _
    rw [Context.assemble_eq_map, Context.assemble_eq_map, build_of_readAs style hread,
      write_toNodes hleaves]
    rfl
  refine ⟨hequal, fun e => ?_⟩
  rw [hequal, BracketTree.assemble_eq_error, BracketTree.leavesAll_pruneAll, hread.leavesAll_eq]

namespace Condition

/-- A predicate, a group in which an empty group comes first, and an empty group at the end. -/
def nestedCalls : List (ConditionCall Query) :=
  [.add .and { name := .name "a" } "=" (.value (.int 1)),
    .openGroup .or, .openGroup .and, .closeGroup,
    .add .or { name := .name "b" } "=" (.value (.int 2)),
    .add .and { name := .name "c" } "IS NULL" .absent, .closeGroup,
    .openGroup .and, .closeGroup]

def nestedTree : List (BracketTree (Predicate Query)) :=
  [.leaf .and ⟨{ name := .name "a" }, "=", .value (.int 1)⟩,
    .group .or [.group .and [],
      .leaf .or ⟨{ name := .name "b" }, "=", .value (.int 2)⟩,
      .leaf .and ⟨{ name := .name "c" }, "IS NULL", .absent⟩],
    .group .and []]

/-- The groups without predicates are not shown, and the connector of the predicate that comes first
without them is not shown either. -/
theorem assemble_build_nested :
    ConditionCall.WellBracketed nestedCalls ∧ ConditionCall.ReadAs nestedCalls nestedTree
    ∧ (build .bare nestedCalls).assemble ⟨.postgres, [.int 0]⟩ none
        = BracketTree.assemble .bare ⟨.postgres, [.int 0]⟩ none (BracketTree.pruneAll nestedTree)
    ∧ (build .bare nestedCalls).assemble ⟨.postgres, [.int 0]⟩ none
        = .ok ⟨"\"a\" = $2 OR (\"b\" = $3 AND \"c\" IS NULL)", [.int 0, .int 1, .int 2]⟩ := by
  have hmatch : ConditionCall.WellBracketed nestedCalls := by
    refine ⟨fun start hstart => ?_, rfl⟩
    have hall : ∀ start ∈ nestedCalls.inits, 0 ≤ ConditionCall.depth start := by
      simp [nestedCalls, ConditionCall.opening]
    exact hall start ((List.mem_inits start nestedCalls).2 hstart)
  have hread : ConditionCall.ReadAs nestedCalls nestedTree := by
    have hinner : ConditionCall.ReadAs (nestedCalls.drop 2 |>.take 4)
        [.group .and [], .leaf .or ⟨{ name := .name "b" }, "=", .value (.int 2)⟩,
          .leaf .and ⟨{ name := .name "c" }, "IS NULL", .absent⟩] :=
      .group .nil (.add (.add .nil))
    exact .add (.group hinner (.group .nil .nil))
  have hshown : ∀ p ∈ nestedCalls.filterMap ConditionCall.predicate?, ∀ a,
      p.assemble ⟨.postgres, [.int 0]⟩ none = .ok a → a.sql ≠ "" := by
    intro p hp a ha
    simp only [nestedCalls, List.filterMap_cons, List.filterMap_nil, ConditionCall.predicate?,
      List.mem_cons, List.not_mem_nil, or_false] at hp
    obtain rfl | rfl | rfl := hp <;> cases ha <;> decide
  obtain ⟨-, hshows⟩ := assemble_build_readAs hmatch
  exact ⟨hmatch, hread, (hshows _ hread .bare _ none fun _ => hshown).1, rfl⟩

end Condition

end SqlAssembly
