import NewApi.Code.BillingExpr
import NewApi.Lib.ExprRules

/-!
# The program of an expression

The patcher replaces the factors of request rules by calls. Programs are compared factor by factor.
-/

namespace NewApi.Expressions

open Lang Code.Pricing Code.Billing

/-! ## The factors that are traced -/

def ruleMultiplier (ternary : Bool) (names : List String) (exp1 exp2 : Node) : Option ℚ :=
  if ternary = true ∧ (names.any fun name => name ∈ requestProbes) = true ∧ requestRuleNumber exp2 = some 1 then
    requestRuleNumber exp1
  else none

theorem visit_eq (ternary : Bool) (cond exp1 exp2 : Node) (rules : List RequestRuleTrace) :
    visitConditional ternary cond exp1 exp2 rules =
      match ruleMultiplier ternary cond.identifiers exp1 exp2 with
      | some multiplier =>
        (traceNode rules.length cond exp1 exp2 multiplier, rules ++ [⟨cond, multiplier, false⟩])
      | none => (.conditional ternary cond exp1 exp2, rules) := by
  unfold visitConditional ruleMultiplier usesRequestProbe
  by_cases hrule : ternary = true ∧ (cond.identifiers.any fun name => name ∈ requestProbes) = true
  · rw [if_pos hrule]
    cases hexp1 : requestRuleNumber exp1 with
    | none => simp
    | some =>
      cases hexp2 : requestRuleNumber exp2 with
      | none => simp
      | some fallback =>
        dsimp only
        by_cases hone : fallback = 1
        · rw [if_pos hone, if_pos ⟨hrule.1, hrule.2, by rw [hone]⟩]
        · rw [if_neg hone, if_neg fun h => hone (Option.some.inj h.2.2)]
  · rw [if_neg hrule, if_neg fun h => hrule ⟨h.1, h.2.1⟩]

theorem number_of_rule {ternary : Bool} {names : List String} {exp1 exp2 : Node} {multiplier : ℚ}
    (h : ruleMultiplier ternary names exp1 exp2 = some multiplier) :
    requestRuleNumber exp1 = some multiplier ∧ requestRuleNumber exp2 = some 1 := by
  unfold ruleMultiplier at h
  split at h
  · rename_i hrule
    exact ⟨h, hrule.2.2⟩
  · cases h

/-! ## Names -/

section Names

variable {rules : List RequestRuleTrace}

def untraced (names : List String) : List String := names.filter fun name => !isTraceName name

theorem untraced_append {a b a' b' : List String} (ha : untraced a = untraced a') (hb : untraced b = untraced b') :
    untraced (a ++ b) = untraced (a' ++ b') := by
  unfold untraced at ha hb ⊢
  rw [List.filter_append, List.filter_append, ha, hb]

theorem number_names {node : Node} {x : ℚ} (h : requestRuleNumber node = some x) : node.identifiers = [] := by
  cases node with
  | integer | float => rfl
  | _ => cases h

theorem visit_names (ternary : Bool) (cond exp1 exp2 : Node) :
    untraced (visitConditional ternary cond exp1 exp2 rules).1.identifiers =
      untraced (Node.conditional ternary cond exp1 exp2).identifiers := by
  rw [visit_eq]
  split
  · rename_i multiplier hrule
    obtain ⟨hexp1, hexp2⟩ := number_of_rule hrule
    unfold traceNode
    split <;>
      simp [untraced, Node.identifiers, identifiersOf, number_names hexp1, number_names hexp2, isTraceName,
        restrictedIdentifiers]
  · rfl

mutual
theorem patch_untraced : ∀ (node : Node) (rules : List RequestRuleTrace),
    untraced (patch node rules).1.identifiers = untraced node.identifiers
  | .absent, _ | .nil, _ | .identifier _, _ | .integer _, _ | .float _, _ | .bool _, _ | .string _, _
  | .pointer _, _ => rfl
  | .unary _ node, rules | .chain node, rules | .predicate node, rules => patch_untraced node rules
  | .binary _ left right, rules => untraced_append (patch_untraced left rules) (patch_untraced right _)
  | .member node property _, rules => untraced_append (patch_untraced node rules) (patch_untraced property _)
  | .slice node start stop, rules =>
    untraced_append (untraced_append (patch_untraced node rules) (patch_untraced start _)) (patch_untraced stop _)
  | .call callee arguments, rules => untraced_append (patch_untraced callee rules) (patchList_untraced arguments _)
  | .builtin _ arguments, rules => patchList_untraced arguments rules
  | .variableDeclarator _ value expr, rules => untraced_append (patch_untraced value rules) (patch_untraced expr _)
  | .sequence nodes, rules | .array nodes, rules | .map nodes, rules => patchList_untraced nodes rules
  | .conditional ternary cond exp1 exp2, rules =>
    (visit_names ternary _ _ _).trans
      (untraced_append (untraced_append (patch_untraced cond rules) (patch_untraced exp1 _)) (patch_untraced exp2 _))
  | .pair key value, rules => untraced_append (patch_untraced key rules) (patch_untraced value _)

theorem patchList_untraced : ∀ (nodes : List Node) (rules : List RequestRuleTrace),
    untraced (identifiersOf (patchList nodes rules).1) = untraced (identifiersOf nodes)
  | [], _ => rfl
  | node :: nodes, rules => untraced_append (patch_untraced node rules) (patchList_untraced nodes _)
end

theorem patch_names {node : Node} {name : String} (h : name ∈ (patch node rules).1.identifiers) :
    name ∈ node.identifiers ∨ isTraceName name = true := by
  cases htrace : isTraceName name with
  | true => exact .inr rfl
  | false =>
    have hmem : name ∈ untraced (patch node rules).1.identifiers := List.mem_filter.mpr ⟨h, by simp [htrace]⟩
    rw [patch_untraced] at hmem
    exact .inl (List.mem_filter.mp hmem).1

theorem any_untraced (names : List String) :
    (untraced names).any (fun name => name ∈ requestProbes) = names.any fun name => name ∈ requestProbes := by
  unfold untraced
  rw [List.any_filter]
  congr 1
  funext name
  cases htrace : isTraceName name with
  | false => rfl
  | true =>
    simp only [isTraceName, restrictedIdentifiers, List.mem_cons, List.not_mem_nil, or_false,
      decide_eq_true_eq] at htrace
    rcases htrace with rfl | rfl <;> rfl

theorem rule_of_patch (rules : List RequestRuleTrace) (ternary : Bool) (cond exp1 exp2 : Node) :
    ruleMultiplier ternary (patch cond rules).1.identifiers exp1 exp2 =
      ruleMultiplier ternary cond.identifiers exp1 exp2 := by
  unfold ruleMultiplier
  rw [← any_untraced, patch_untraced, any_untraced]

end Names

/-! ## Literals stay -/

theorem patch_literal {node : Node} {x : ℚ} (h : requestRuleNumber node = some x) (rules : List RequestRuleTrace) :
    (patch node rules).1 = node := by
  cases node with
  | integer | float => rfl
  | _ => cases h

theorem visit_number (ternary : Bool) (cond exp1 exp2 : Node) (rules : List RequestRuleTrace) :
    requestRuleNumber (visitConditional ternary cond exp1 exp2 rules).1 = none := by
  rw [visit_eq]
  split
  · unfold traceNode
    split <;> rfl
  · rfl

theorem patch_number (node : Node) (rules : List RequestRuleTrace) :
    requestRuleNumber (patch node rules).1 = requestRuleNumber node := by
  cases node with
  | conditional ternary => exact visit_number ternary _ _ _ _
  | _ => rfl

theorem patch_conditional (ternary : Bool) (cond exp1 exp2 : Node) (rules : List RequestRuleTrace) :
    let cond' := patch cond rules
    let exp1' := patch exp1 cond'.2
    let exp2' := patch exp2 exp1'.2
    patch (.conditional ternary cond exp1 exp2) rules =
      match ruleMultiplier ternary cond.identifiers exp1 exp2 with
      | some multiplier =>
        (traceNode exp2'.2.length cond'.1 exp1 exp2 multiplier, exp2'.2 ++ [⟨cond'.1, multiplier, false⟩])
      | none => (.conditional ternary cond'.1 exp1'.1 exp2'.1, exp2'.2) := by
  intro cond' exp1' exp2'
  have hsame : ruleMultiplier ternary cond'.1.identifiers exp1'.1 exp2'.1 =
      ruleMultiplier ternary cond.identifiers exp1 exp2 := by
    rw [← rule_of_patch rules ternary cond]
    unfold ruleMultiplier
    rw [patch_number, patch_number]
  change visitConditional ternary cond'.1 exp1'.1 exp2'.1 exp2'.2 = _
  rw [visit_eq, hsame]
  cases hrule : ruleMultiplier ternary cond.identifiers exp1 exp2 with
  | none => rfl
  | some =>
    obtain ⟨hexp1, hexp2⟩ := number_of_rule hrule
    rw [show exp1'.1 = exp1 from patch_literal hexp1 _, show exp2'.1 = exp2 from patch_literal hexp2 _]

/-! ## Factors -/

mutual
def factors : Node → List (Node × Node)
  | .absent | .nil | .integer _ | .float _ | .bool _ | .string _ | .pointer _ | .identifier _ => []
  | .unary _ node | .chain node | .predicate node => factors node
  | .binary _ left right => factors left ++ factors right
  | .member node property _ => factors node ++ factors property
  | .slice node start stop => factors node ++ factors start ++ factors stop
  | .call callee arguments => factors callee ++ factorsIn arguments
  | .builtin _ arguments => factorsIn arguments
  | .variableDeclarator _ value expr => factors value ++ factors expr
  | .sequence nodes | .array nodes | .map nodes => factorsIn nodes
  | .conditional ternary cond exp1 exp2 =>
    factors cond ++ factors exp1 ++ factors exp2 ++
      if (ruleMultiplier ternary cond.identifiers exp1 exp2).isSome then [(exp1, exp2)] else []
  | .pair key value => factors key ++ factors value

def factorsIn : List Node → List (Node × Node)
  | [] => []
  | node :: nodes => factors node ++ factorsIn nodes
end

mutual
/-- With `f` in place of each factor. The first rule gets the number `n`. -/
def withFactors (f : Nat → Node → Node → Node → Node) : Node → Nat → Node
  | .unary op node, n => .unary op (withFactors f node n)
  | .binary op left right, n =>
    .binary op (withFactors f left n) (withFactors f right (n + (factors left).length))
  | .chain node, n => .chain (withFactors f node n)
  | .member node property optional, n =>
    .member (withFactors f node n) (withFactors f property (n + (factors node).length)) optional
  | .slice node start stop, n =>
    .slice (withFactors f node n) (withFactors f start (n + (factors node).length))
      (withFactors f stop (n + (factors node).length + (factors start).length))
  | .call callee arguments, n =>
    .call (withFactors f callee n) (withFactorsIn f arguments (n + (factors callee).length))
  | .builtin name arguments, n => .builtin name (withFactorsIn f arguments n)
  | .predicate node, n => .predicate (withFactors f node n)
  | .variableDeclarator name value expr, n =>
    .variableDeclarator name (withFactors f value n) (withFactors f expr (n + (factors value).length))
  | .sequence nodes, n => .sequence (withFactorsIn f nodes n)
  | .conditional ternary cond exp1 exp2, n =>
    let next := n + (factors cond).length
    if (ruleMultiplier ternary cond.identifiers exp1 exp2).isSome then f next (withFactors f cond n) exp1 exp2
    else
      .conditional ternary (withFactors f cond n) (withFactors f exp1 next)
        (withFactors f exp2 (next + (factors exp1).length))
  | .array nodes, n => .array (withFactorsIn f nodes n)
  | .map pairs, n => .map (withFactorsIn f pairs n)
  | .pair key value, n => .pair (withFactors f key n) (withFactors f value (n + (factors key).length))
  | node, _ => node

def withFactorsIn (f : Nat → Node → Node → Node → Node) : List Node → Nat → List Node
  | [], _ => []
  | node :: nodes, n => withFactors f node n :: withFactorsIn f nodes (n + (factors node).length)
end

def traceFactor (rule : Nat) (cond exp1 exp2 : Node) : Node :=
  traceNode rule cond exp1 exp2 ((requestRuleNumber exp1).getD 0)

def unmatched (node : Node) : List Bool := (factors node).map fun _ => false

mutual
theorem patch_rules : ∀ (node : Node) (rules : List RequestRuleTrace),
    (patch node rules).2.map (·.matched) = rules.map (·.matched) ++ unmatched node
  | .absent, _ | .nil, _ | .identifier _, _ | .integer _, _ | .float _, _ | .bool _, _ | .string _, _
  | .pointer _, _ => (List.append_nil _).symm
  | .unary _ node, rules | .chain node, rules | .predicate node, rules => patch_rules node rules
  | .binary _ a b, rules | .member a b _, rules | .variableDeclarator _ a b, rules | .pair a b, rules => by
    simp only [patch, unmatched, factors, List.map_append, patch_rules a, patch_rules b, List.append_assoc]
  | .slice node start stop, rules => by
    simp only [patch, unmatched, factors, List.map_append, patch_rules node, patch_rules start, patch_rules stop,
      List.append_assoc]
  | .call callee arguments, rules => by
    simp only [patch, unmatched, factors, List.map_append, patch_rules callee, patchList_rules arguments,
      List.append_assoc]
  | .builtin _ nodes, rules | .sequence nodes, rules | .array nodes, rules | .map nodes, rules =>
    patchList_rules nodes rules
  | .conditional ternary cond exp1 exp2, rules => by
    rw [patch_conditional, unmatched, factors]
    cases ruleMultiplier ternary cond.identifiers exp1 exp2 <;>
      simp [unmatched, patch_rules cond, patch_rules exp1, patch_rules exp2, -List.map_const']

theorem patchList_rules : ∀ (nodes : List Node) (rules : List RequestRuleTrace),
    (patchList nodes rules).2.map (·.matched) = rules.map (·.matched) ++ (factorsIn nodes).map fun _ => false
  | [], _ => (List.append_nil _).symm
  | node :: nodes, rules => by
    simp only [patchList, unmatched, factorsIn, List.map_append, patch_rules node, patchList_rules nodes,
      List.append_assoc]
end

theorem patch_length (node : Node) (rules : List RequestRuleTrace) :
    (patch node rules).2.length = rules.length + (factors node).length := by
  simpa [unmatched] using congrArg List.length (patch_rules node rules)

theorem factors_literal {node : Node} {x : ℚ} (h : requestRuleNumber node = some x) : factors node = [] := by
  cases node with
  | integer | float => rfl
  | _ => cases h

mutual
theorem patch_tree : ∀ (node : Node) (rules : List RequestRuleTrace),
    (patch node rules).1 = withFactors traceFactor node rules.length
  | .absent, _ | .nil, _ | .identifier _, _ | .integer _, _ | .float _, _ | .bool _, _ | .string _, _
  | .pointer _, _ => rfl
  | .unary _ node, rules | .chain node, rules | .predicate node, rules => by
    simp only [patch, withFactors, patch_tree node]
  | .binary _ a b, rules | .member a b _, rules | .variableDeclarator _ a b, rules | .pair a b, rules => by
    simp only [patch, withFactors, patch_tree a, patch_tree b, patch_length]
  | .slice node start stop, rules => by
    simp only [patch, withFactors, patch_tree node, patch_tree start, patch_tree stop, patch_length]
  | .call callee arguments, rules => by
    simp only [patch, withFactors, patch_tree callee, patchList_tree arguments, patch_length]
  | .builtin _ nodes, rules | .sequence nodes, rules | .array nodes, rules | .map nodes, rules => by
    simp only [patch, withFactors, patchList_tree nodes]
  | .conditional ternary cond exp1 exp2, rules => by
    rw [patch_conditional, withFactors]
    cases hrule : ruleMultiplier ternary cond.identifiers exp1 exp2 with
    | none => simp [patch_tree cond, patch_tree exp1, patch_tree exp2, patch_length]
    | some =>
      obtain ⟨hexp1, hexp2⟩ := number_of_rule hrule
      simp [patch_tree cond, patch_length, factors_literal hexp1, factors_literal hexp2, traceFactor, hexp1]

theorem patchList_tree : ∀ (nodes : List Node) (rules : List RequestRuleTrace),
    (patchList nodes rules).1 = withFactorsIn traceFactor nodes rules.length
  | [], _ => rfl
  | node :: nodes, rules => by
    simp only [patchList, withFactorsIn, patch_tree node, patchList_tree nodes, patch_length]
end

/-! ## Evaluation -/

def Clear (names : List String) : Prop := ∀ name ∈ names, isTraceName name = false

def Unshadowed (scope : Scope Fn) : Prop := ∀ name, isTraceName name = true → scope.vars.lookup name = none

theorem Unshadowed.declare {scope : Scope Fn} {name : String} (hscope : Unshadowed scope)
    (hname : isTraceName name = false) (v : Value Fn) : Unshadowed { scope with vars := (name, v) :: scope.vars } := by
  intro other hother
  rw [List.lookup_cons]
  split
  · rename_i heq
    rw [beq_iff_eq.mp heq, hname] at hother
    cases hother
  · exact hscope other hother

def isFactor : Node → Bool
  | .call _ _ | .conditional _ _ _ _ => true
  | _ => false

section Factors

variable {α : Type} {P : α → Prop} {xs ys : List α}

theorem of_left (h : ∀ x ∈ xs ++ ys, P x) : ∀ x ∈ xs, P x := fun x hx => h x (List.mem_append_left ys hx)

theorem of_right (h : ∀ x ∈ xs ++ ys, P x) : ∀ x ∈ ys, P x := fun x hx => h x (List.mem_append_right xs hx)

variable {L : Lang.Language Fn} {H : Host Fn Event} {f g : Nat → Node → Node → Node → Node} {num : Nat → Nat → Prop}
  {good : Node × Node → Prop}

/-- Factors evaluate alike where the conditions do and the numbers are related. -/
structure Alike (L : Lang.Language Fn) (H : Host Fn Event) (f g : Nat → Node → Node → Node → Node)
    (num : Nat → Nat → Prop) (good : Node × Node → Prop) : Prop where
  left : ∀ n cond exp1 exp2, isFactor (f n cond exp1 exp2) = true
  right : ∀ n cond exp1 exp2, isFactor (g n cond exp1 exp2) = true
  add : ∀ {n n'} k, num n n' → num (n + k) (n' + k)
  eval : ∀ {n n' cond cond' exp1 exp2 multiplier scope}, num n n' → good (exp1, exp2) →
    requestRuleNumber exp1 = some multiplier → requestRuleNumber exp2 = some 1 → Unshadowed scope →
    Lang.eval L H cond scope = Lang.eval L H cond' scope →
    Lang.eval L H (f n cond exp1 exp2) scope = Lang.eval L H (g n' cond' exp1 exp2) scope

theorem withFactors_shape (hf : ∀ n cond exp1 exp2, isFactor (f n cond exp1 exp2) = true) (node : Node) (n : Nat) :
    (withFactors f node n).isPredicate = node.isPredicate ∧ (withFactors f node n).isPair = node.isPair ∧
      ∀ x : Comp Event (Value Fn), boundComp (withFactors f node n) x = boundComp node x := by
  cases node with
  | conditional ternary cond exp1 exp2 =>
    rw [withFactors]
    split
    · have hfactor := hf (n + (factors cond).length) (withFactors f cond n) exp1 exp2
      generalize f (n + (factors cond).length) (withFactors f cond n) exp1 exp2 = node at hfactor
      cases node with
      | call | conditional => exact ⟨rfl, rfl, fun _ => rfl⟩
      | _ => cases hfactor
    · exact ⟨rfl, rfl, fun _ => rfl⟩
  | _ => exact ⟨rfl, rfl, fun _ => rfl⟩

/-- The numbers, the factors `fs`, the declared names `xs` and the scope at a node. -/
structure Fits (num : Nat → Nat → Prop) (good : Node × Node → Prop) (fs : List (Node × Node)) (xs : List String)
    (n n' : Nat) (scope : Scope Fn) : Prop where
  num : num n n'
  good : ∀ x ∈ fs, good x
  clear : Clear xs
  scope : Unshadowed scope

section

variable {fs gs : List (Node × Node)} {xs ys : List String} {n n' : Nat} {scope : Scope Fn}

theorem Fits.left (h : Fits num good (fs ++ gs) (xs ++ ys) n n' scope) : Fits num good fs xs n n' scope :=
  ⟨h.num, of_left h.good, of_left h.clear, h.scope⟩

theorem Fits.right (h : Fits num good (fs ++ gs) (xs ++ ys) n n' scope) : Fits num good gs ys n n' scope :=
  ⟨h.num, of_right h.good, of_right h.clear, h.scope⟩

theorem Fits.add (h : Fits num good fs xs n n' scope) (ha : Alike L H f g num good) (k : Nat) :
    Fits num good fs xs (n + k) (n' + k) scope :=
  ⟨ha.add k h.num, h.good, h.clear, h.scope⟩

end

mutual
theorem eval_withFactors (h : Alike L H f g num good) (node : Node) {n n' : Nat} {scope : Scope Fn}
    (hf : Fits num good (factors node) node.declared n n' scope) :
    eval L H (withFactors f node n) scope = eval L H (withFactors g node n') scope :=
  match node, hf with
  | .absent, _ | .nil, _ | .identifier _, _ | .integer _, _ | .float _, _ | .bool _, _ | .string _, _ | .pointer _, _
  | .predicate _, _ | .pair _ _, _ => rfl
  | .unary _ node, hf | .chain node, hf => by
    simp only [withFactors, eval, eval_withFactors h node hf]
  | .binary _ a b, hf | .member a b _, hf => by
    simp only [withFactors, eval, eval_withFactors h a hf.left, eval_withFactors h b (hf.right.add h _)]
  | .slice node start stop, hf => by
    simp only [withFactors, eval, (withFactors_shape h.left _ _).2.2, (withFactors_shape h.right _ _).2.2,
      eval_withFactors h node hf.left.left, eval_withFactors h start (hf.left.right.add h _),
      eval_withFactors h stop ((hf.right.add h _).add h _)]
  | .call callee arguments, hf => by
    simp only [withFactors, eval, eval_withFactors h callee hf.left, evalArgs_withFactors h arguments (hf.right.add h _)]
  | .builtin name arguments, hf => by
    have hpointer (p : Pointer Fn) : Fits num good _ _ n n' { scope with pointer := some p } :=
      ⟨hf.num, hf.good, hf.clear, hf.scope⟩
    simp only [withFactors, eval, evalArgs_withFactors h arguments hf,
      fun p => evalPredicate_withFactors h arguments (hpointer p)]
  | .variableDeclarator name value expr, hf => by
    have hname : isTraceName name = false := hf.clear name List.mem_cons_self
    have hrest : Fits num good (factors value ++ factors expr) (value.declared ++ expr.declared) _ _ _ :=
      ⟨hf.num, hf.good, fun other h => hf.clear other (List.mem_cons_of_mem _ h), hf.scope⟩
    have hexpr (v : Value Fn) := eval_withFactors h expr
      ⟨h.add (factors value).length hf.num, hrest.right.good, hrest.right.clear, hf.scope.declare hname v⟩
    simp only [withFactors, eval, eval_withFactors h value hrest.left, hexpr]
  | .sequence nodes, hf | .array nodes, hf => by
    simp only [withFactors, eval, evalArgs_withFactors h nodes hf]
  | .conditional ternary cond exp1 exp2, hf => by
    have hgood := hf.good
    rw [factors] at hgood
    have hparts : Fits num good (factors cond ++ factors exp1 ++ factors exp2) _ _ _ _ :=
      ⟨hf.num, of_left hgood, hf.clear, hf.scope⟩
    have hcond := eval_withFactors h cond hparts.left.left
    have hexp1 := eval_withFactors h exp1 (hparts.left.right.add h (factors cond).length)
    have hexp2 := eval_withFactors h exp2 ((hparts.right.add h (factors cond).length).add h (factors exp1).length)
    simp only [withFactors]
    cases hrule : ruleMultiplier ternary cond.identifiers exp1 exp2 with
    | none => simp only [Option.isSome_none, Bool.false_eq_true, if_false, eval, hcond, hexp1, hexp2]
    | some =>
      obtain ⟨hnumber, hone⟩ := number_of_rule hrule
      rw [hrule] at hgood
      exact h.eval (h.add _ hf.num) (of_right hgood _ List.mem_cons_self) hnumber hone hf.scope hcond
  | .map pairs, hf => by
    simp only [withFactors, eval, evalPairs_withFactors h pairs hf]

theorem evalArgs_withFactors (h : Alike L H f g num good) (nodes : List Node) {n n' : Nat} {scope : Scope Fn}
    (hf : Fits num good (factorsIn nodes) (declaredIn nodes) n n' scope) :
    evalArgs L H (withFactorsIn f nodes n) scope = evalArgs L H (withFactorsIn g nodes n') scope :=
  match nodes, hf with
  | [], _ => rfl
  | node :: nodes, hf => by
    have hnode := eval_withFactors h node hf.left
    have hrest := evalArgs_withFactors h nodes (hf.right.add h (factors node).length)
    simp only [withFactorsIn]
    cases hpredicate : node.isPredicate with
    | true =>
      cases node with
      | predicate => exact hrest
      | _ => cases hpredicate
    | false =>
      rw [evalArgs_cons ((withFactors_shape h.left node _).1.trans hpredicate),
        evalArgs_cons ((withFactors_shape h.right node _).1.trans hpredicate), hnode, hrest]

theorem evalPredicate_withFactors (h : Alike L H f g num good) (nodes : List Node) {n n' : Nat} {scope : Scope Fn}
    (hf : Fits num good (factorsIn nodes) (declaredIn nodes) n n' scope) :
    evalPredicate L H (withFactorsIn f nodes n) scope = evalPredicate L H (withFactorsIn g nodes n') scope :=
  match nodes, hf with
  | [], _ => rfl
  | node :: nodes, hf => by
    have hrest := evalPredicate_withFactors h nodes (hf.right.add h (factors node).length)
    simp only [withFactorsIn]
    cases hpredicate : node.isPredicate with
    | true =>
      cases node with
      | predicate inner => simp only [withFactors, evalPredicate, eval_withFactors h inner hf.left]
      | _ => cases hpredicate
    | false =>
      rw [evalPredicate_cons ((withFactors_shape h.left node _).1.trans hpredicate),
        evalPredicate_cons ((withFactors_shape h.right node _).1.trans hpredicate), hrest]

theorem evalPairs_withFactors (h : Alike L H f g num good) (pairs : List Node) {n n' : Nat} {scope : Scope Fn}
    (hf : Fits num good (factorsIn pairs) (declaredIn pairs) n n' scope) :
    evalPairs L H (withFactorsIn f pairs n) scope = evalPairs L H (withFactorsIn g pairs n') scope :=
  match pairs, hf with
  | [], _ => rfl
  | node :: pairs, hf => by
    have hrest := evalPairs_withFactors h pairs (hf.right.add h (factors node).length)
    simp only [withFactorsIn]
    cases hpair : node.isPair with
    | true =>
      cases node with
      | pair key value =>
        have hpair : Fits num good (factors key ++ factors value) (key.declared ++ value.declared) _ _ _ := hf.left
        simp only [withFactors, evalPairs, eval_withFactors h key hpair.left,
          eval_withFactors h value (hpair.right.add h (factors key).length), hrest]
      | _ => cases hpair
    | false =>
      rw [evalPairs_other ((withFactors_shape h.left node _).2.1.trans hpair),
        evalPairs_other ((withFactors_shape h.right node _).2.1.trans hpair)]
end

end Factors

/-! ## The trace functions -/

def quiet : Event → Bool
  | .matched _ => false
  | _ => true

def traceFn : Node → Node → Fn
  | .integer _, .integer _ => .traceInt
  | _, _ => .trace

def traceValue (exp1 exp2 : Node) (x : ℚ) : Value Fn :=
  match exp1, exp2 with
  | .integer _, .integer _ => .int ⌊x⌋
  | _, _ => .float x

section Trace

variable {engine : Engine} {params : TokenParams} {request : RequestInput} {imageCount : Int}

abbrev quietHost (engine : Engine) (params : TokenParams) (request : RequestInput) (imageCount : Int) :
    Host Fn Event := (host engine params request imageCount).erase quiet

/-- Functions that fail where those of the run do. -/
structure RunsAs (engine : Engine) (params : TokenParams) (request : RequestInput) (imageCount : Int)
    (H : Host Fn Event) : Prop where
  entries : H.entries = env params imageCount
  failed : ∀ {f args}, apply engine request f args = .failed → H.apply f args = .failed

theorem runsAs_host : RunsAs engine params request imageCount (host engine params request imageCount) := ⟨rfl, id⟩

theorem runsAs_quiet : RunsAs engine params request imageCount (quietHost engine params request imageCount) :=
  ⟨rfl, fun h => congrArg (Comp.erase quiet) h⟩

variable {H : Host Fn Event} {scope : Scope Fn}

theorem call_rule (hH : RunsAs engine params request imageCount H) (hscope : Unshadowed scope) {name : String} {f : Fn}
    {rule : Int} {cond literal : Node} {yes : Value Fn} (hname : isTraceName name = true)
    (hf : (env params imageCount).lookup name = some (.func f))
    (hliteral : evalArgs engine.language H [literal] scope = pure [yes])
    (hother : ∀ v, (∀ b, v ≠ .bool b) → apply engine request f [.int rule, v, yes] = .failed)
    (htwo : apply engine request f [.int rule, yes] = .failed) :
    eval engine.language H (.call (.identifier name) [.integer rule, cond, literal]) scope =
      conditionalComp (eval engine.language H cond scope >>= Flow.get)
        (.value <$> H.apply f [.int rule, .bool true, yes]) (.value <$> H.apply f [.int rule, .bool false, yes]) := by
  have hcallee : eval engine.language H (.identifier name) scope = pure (.value (.func f)) := by
    have henv : name ≠ "$env" := by
      rintro rfl
      cases hname
    rw [eval, Scope.resolve, hscope name hname]
    rw [Host.resolve, if_neg henv, hH.entries, hf]
    rfl
  have hrule : eval engine.language H (.integer rule) scope >>= Flow.get = pure (.int rule) := rfl
  rw [eval, evalArgs_cons rfl, hcallee, hrule]
  cases hcond : cond.isPredicate with
  | true =>
    -- A predicate is no value, and the call has an argument too few.
    cases cond with
    | predicate =>
      rw [evalArgs, hliteral]
      simp only [consComp, callComp, pure_bind, hH.failed htwo]
      rfl
    | _ => cases hcond
  | false =>
    rw [evalArgs_cons hcond, hliteral]
    generalize eval engine.language H cond scope >>= Flow.get = x
    simp only [consComp, callComp, conditionalComp, pure_bind, bind_assoc]
    congr 1
    funext v
    cases v with
    | bool b => cases b <;> rfl
    | _ =>
      rw [hH.failed (hother _ (by simp))]
      rfl

theorem eval_traceNode (hH : RunsAs engine params request imageCount H) (hscope : Unshadowed scope) (rule : Nat)
    (cond : Node) {exp1 exp2 : Node} {multiplier : ℚ} (hnumber : requestRuleNumber exp1 = some multiplier) :
    eval engine.language H (traceNode rule cond exp1 exp2 multiplier) scope =
      conditionalComp (eval engine.language H cond scope >>= Flow.get)
        (.value <$> H.apply (traceFn exp1 exp2) [.int rule, .bool true, traceValue exp1 exp2 multiplier])
        (.value <$> H.apply (traceFn exp1 exp2) [.int rule, .bool false, traceValue exp1 exp2 multiplier]) := by
  have hother {f : Fn} {w : Value Fn} (hf : f = .trace ∨ f = .traceInt) (v : Value Fn) (hv : ∀ b, v ≠ .bool b) :
      apply engine request f [.int rule, v, w] = .failed := by
    cases v with
    | bool b => exact absurd rfl (hv b)
    | _ => rcases hf with rfl | rfl <;> rfl
  cases exp1 with
  | integer =>
    cases hnumber
    cases exp2 with
    | integer =>
      exact call_rule hH hscope rfl rfl rfl (hother (.inr rfl)) rfl
    | _ => exact call_rule hH hscope rfl rfl rfl (hother (.inl rfl)) rfl
  | float => exact call_rule hH hscope rfl rfl rfl (hother (.inl rfl)) rfl
  | _ => cases hnumber

theorem apply_quiet (rule : Int) (b : Bool) (exp1 exp2 : Node) (x : ℚ) :
    (quietHost engine params request imageCount).apply (traceFn exp1 exp2) [.int rule, .bool b, traceValue exp1 exp2 x] =
      pure (traceValue exp1 exp2 (if b then x else 1)) := by
  unfold traceFn traceValue
  split
  · cases b
    · exact congrArg (fun n => Comp.done (Value.int n) []) Int.floor_one.symm
    · rfl
  · cases b <;> rfl

/-- Without the trace a factor is its condition, with the multiplier or 1. -/
theorem quiet_traceNode (hscope : Unshadowed scope) (rule : Nat) (cond : Node) {exp1 exp2 : Node} {multiplier : ℚ}
    (hnumber : requestRuleNumber exp1 = some multiplier) :
    eval engine.language (quietHost engine params request imageCount) (traceNode rule cond exp1 exp2 multiplier) scope =
      conditionalComp (eval engine.language (quietHost engine params request imageCount) cond scope >>= Flow.get)
        (pure (.value (traceValue exp1 exp2 multiplier))) (pure (.value (traceValue exp1 exp2 1))) := by
  rw [eval_traceNode runsAs_quiet hscope rule cond hnumber, apply_quiet, apply_quiet]
  rfl

theorem traceFactor_isFactor (rule : Nat) (cond exp1 exp2 : Node) : isFactor (traceFactor rule cond exp1 exp2) = true := by
  unfold traceFactor traceNode
  split <;> rfl

/-- Which numbers the rules have is only seen in the trace. -/
theorem eval_patch (node : Node) (rules rules' : List RequestRuleTrace) (hclear : Clear node.declared)
    (hscope : Unshadowed scope) :
    eval engine.language (quietHost engine params request imageCount) (patch node rules).1 scope =
      eval engine.language (quietHost engine params request imageCount) (patch node rules').1 scope := by
  have halike : Alike engine.language (quietHost engine params request imageCount) traceFactor traceFactor
      (fun _ _ => True) (fun _ => True) := by
    refine ⟨traceFactor_isFactor, traceFactor_isFactor, fun _ _ => trivial, ?_⟩
    intro n n' cond cond' exp1 exp2 multiplier scope _ _ hnumber _ hscope hcond
    simp only [traceFactor, hnumber, Option.getD_some, quiet_traceNode hscope _ _ hnumber, hcond]
  rw [patch_tree, patch_tree]
  exact eval_withFactors halike node ⟨trivial, fun _ _ => trivial, hclear, hscope⟩

end Trace

end NewApi.Expressions
