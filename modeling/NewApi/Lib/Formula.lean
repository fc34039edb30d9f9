import Mathlib.Algebra.Order.Field.Rat
import Mathlib.Algebra.BigOperators.Group.List.Basic

/-!
# Arithmetic formulas

Formulas with rational values over any variables, with names for their parts and a choice by the sign of variables.
-/

namespace NewApi.Formulas

inductive Test (ν : Type*) where
  | positive (v : ν)
  | either (a b : Test ν)
deriving DecidableEq

inductive Formula (ν : Type*) where
  | lit (q : ℚ)
  | var (v : ν)
  | add (a b : Formula ν)
  | sub (a b : Formula ν)
  | mul (a b : Formula ν)
  | max (a b : Formula ν)
  | label (name : String) (a : Formula ν)
  | cond (test : Test ν) (yes no : Formula ν)
deriving DecidableEq

variable {ν : Type*}

def Test.holds (env : ν → ℚ) : Test ν → Bool
  | .positive v => 0 < env v
  | .either a b => a.holds env || b.holds env

def Formula.eval (env : ν → ℚ) : Formula ν → ℚ
  | .lit q => q
  | .var v => env v
  | .add a b => a.eval env + b.eval env
  | .sub a b => a.eval env - b.eval env
  | .mul a b => a.eval env * b.eval env
  | .max a b => Max.max (a.eval env) (b.eval env)
  | .label _ a => a.eval env
  | .cond test yes no => if test.holds env then yes.eval env else no.eval env

def Test.uses [DecidableEq ν] (v : ν) : Test ν → Bool
  | .positive w => w = v
  | .either a b => a.uses v || b.uses v

def Formula.uses [DecidableEq ν] (v : ν) : Formula ν → Bool
  | .lit _ => false
  | .var w => w = v
  | .add a b | .sub a b | .mul a b | .max a b => a.uses v || b.uses v
  | .label _ a => a.uses v
  | .cond test yes no => test.uses v || yes.uses v || no.uses v

/-- The formula with one more summand for each variable and its factor. -/
def Formula.plus (a : Formula ν) (terms : List (ν × ℚ)) : Formula ν :=
  terms.foldl (fun e t => .add e (.mul (.var t.1) (.lit t.2))) a

theorem eval_plus (env : ν → ℚ) (a : Formula ν) (terms : List (ν × ℚ)) :
    (a.plus terms).eval env = a.eval env + (terms.map fun t => env t.1 * t.2).sum := by
  induction terms generalizing a with
  | nil => simp [Formula.plus]
  | cons t terms ih =>
    have hrest := ih (.add a (.mul (.var t.1) (.lit t.2)))
    rw [List.map_cons, List.sum_cons, ← add_assoc]
    exact hrest

theorem uses_plus [DecidableEq ν] (v : ν) (a : Formula ν) (terms : List (ν × ℚ)) :
    (a.plus terms).uses v = (a.uses v || terms.any fun t => t.1 = v) := by
  induction terms generalizing a with
  | nil => simp [Formula.plus]
  | cons t terms ih =>
    have hrest := ih (.add a (.mul (.var t.1) (.lit t.2)))
    rw [Formula.uses, Formula.uses, Formula.uses, Formula.uses, Bool.or_false] at hrest
    rw [List.any_cons, ← Bool.or_assoc]
    exact hrest

theorem sum_map_filter {α : Type*} (p : α → Bool) (f : α → ℚ) (l : List α) :
    ((l.filter p).map f).sum = (l.map fun x => if p x then f x else 0).sum := by
  induction l with
  | nil => rfl
  | cons x l ih =>
    rw [List.filter_cons, List.map_cons, List.sum_cons, ← ih]
    split
    · rw [List.map_cons, List.sum_cons]
    · rw [zero_add]

end NewApi.Formulas
