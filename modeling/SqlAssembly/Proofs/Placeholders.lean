import SqlAssembly.Proofs.Dialects
import SqlAssembly.Proofs.Writing.Statement

/-!
# Placeholders

The placeholders of a command are numbered from left to right behind the values that are bound
already. `Command.writeInto_eq_fill` says it of every command: its text is a fixed text with gaps,
the gaps being filled with consecutive placeholders.
-/

namespace SqlAssembly

/-! ### Texts with gaps -/

/-- A text with gaps. -/
structure Template where
  /-- The text before the first gap. -/
  head : String
  /-- For each gap the value that it stands for and the text behind it. -/
  gaps : List (Value × String)

namespace Template

/-- The values that the gaps stand for, from left to right. -/
def values (t : Template) : List Value := t.gaps.map Prod.fst

/-- The text with a placeholder in each gap, `bound` values being bound before it. -/
def fill (placeholder : Nat → String) (bound : Nat) (t : Template) : String :=
  t.head ++ String.join (t.gaps.mapIdx fun i gap => placeholder (bound + i + 1) ++ gap.2)

end Template

namespace Sql

/-- The text of SQL with a gap for each bound value. -/
def template (d : Dialect) : Sql → Template
  | [] => ⟨"", []⟩
  | .param v :: ps => ⟨"", (v, (template d ps).head) :: (template d ps).gaps⟩
  | p :: ps => ⟨p.spell d 0 ++ (template d ps).head, (template d ps).gaps⟩

theorem template_cons {d : Dialect} {p : Piece} (hp : p.values = []) (ps : Sql) :
    template d (p :: ps) = ⟨p.spell d 0 ++ (template d ps).head, (template d ps).gaps⟩ := by
  cases p with
  | param v => simp [Piece.values] at hp
  | _ => rfl

theorem values_template (d : Dialect) (sql : Sql) : (sql.template d).values = sql.values := by
  induction sql with
  | nil => rfl
  | cons p ps ih =>
    cases p with
    | param v => exact congrArg (v :: ·) ih
    | _ => exact ih

/-- SQL is spelled by filling its gaps. -/
theorem fill_template (d : Dialect) (sql : Sql) (bound : Nat) :
    (sql.template d).fill d.placeholder bound = sql.spell d bound := by
  induction sql generalizing bound with
  | nil => rfl
  | cons p ps ih =>
    simp only [Template.fill] at ih
    cases p with
    | param v =>
      rw [spell_cons, Piece.values, List.length_singleton, ← ih (bound + 1)]
      simp [template, Template.fill, List.mapIdx_cons, Piece.spell, String.append_assoc,
        Nat.add_comm, Nat.add_left_comm]
    | _ =>
      rw [spell_cons, template_cons (by rfl), Piece.spell_of_values_eq_nil (k := bound) (by rfl)]
      simp [Template.fill, ← ih, Piece.values, String.append_assoc]

end Sql

/-! ### Dialects that quote and cast alike -/

section SameSpelling

variable {d e : Dialect} (hquote : d.quoteIdentifier = e.quoteIdentifier)
  (hcast : d.cast = e.cast)

include hquote hcast

theorem Piece.spell_congr {p : Piece} (hp : p.values = []) : p.spell d 0 = p.spell e 0 := by
  have hexpr (x : ColumnExpr) : x.spell d = x.spell e := by
    cases x <;> simp [ColumnExpr.spell, hquote]
  match p with
  | .text _ => rfl
  | .name n => simp [spell, hquote]
  | .column x none => exact hexpr x
  | .column x (some type) => simp [spell, hexpr, hcast]
  | .param v => simp [Piece.values] at hp

theorem Piece.isBlank_congr (p : Piece) : p.isBlank d = p.isBlank e := by
  cases hp : p.values with
  | nil => simp [isBlank, hp, spell_congr hquote hcast hp]
  | cons v vs => simp [isBlank, hp]

theorem Sql.template_congr (sql : Sql) : sql.template d = sql.template e := by
  induction sql with
  | nil => rfl
  | cons p ps ih =>
    cases p with
    | param v => simp only [template, ih]
    | _ =>
      rw [template_cons (by rfl), template_cons (by rfl), ih]
      rw [Piece.spell_congr hquote hcast (by rfl)]

end SameSpelling

/-! ### Commands -/

/-- Placeholders are numbered in the order of the text. For a command and rules to quote and cast
there is one text with gaps: in every dialect with these rules and in every context, if the command
can be written, its text has consecutive placeholders in the gaps, behind the values bound already,
and binds the values that the gaps stand for. Whether it can be written, and the error if not, is
the same whatever values are bound already. -/
theorem Command.writeInto_eq_fill (c : Command) (quoteIdentifier : String → String)
    (cast : String → String → String) :
    ∃ t : Template, ∀ (name : String) (placeholder : Nat → String) (supportsIlike : Bool),
      let d : Dialect := { name, placeholder, supportsIlike, quoteIdentifier, cast }
      ∃ outcome : Except SqlError Unit, ∀ bound : List Value,
        c.writeInto ⟨d, bound⟩
          = outcome.map fun _ => (t.fill placeholder bound.length, ⟨d, bound ++ t.values⟩) := by
  -- The dialect that supports most covers all dialects with the same rules.
  let widest : Dialect := { name := "", placeholder := fun _ => "", quoteIdentifier, cast }
  let t : Template := (c.render widest).toOption.elim ⟨"", []⟩ (Sql.template widest)
  refine ⟨t, fun name placeholder supportsIlike => ?_⟩
  intro d
  refine ⟨(c.render d).map fun _ => (), fun bound => ?_⟩
  rw [Command.writeInto_eq]
  cases h : c.render d with
  | error e => rfl
  | ok sql =>
    have hd : d.CoveredBy widest :=
      { isBlank := Piece.isBlank_congr (d := d) (e := widest) rfl rfl
        ilike := fun _ => rfl }
    have hw : c.render widest = .ok sql := Command.render_mono hd c sql h
    have ht : t = sql.template d := by
      simp only [t, hw]
      exact Sql.template_congr (d := widest) (e := d) rfl rfl sql
    rw [ht, Sql.values_template]
    exact congrArg (fun text => Except.ok (text, _)) (Sql.fill_template d sql bound.length).symm

end SqlAssembly
