import NewApi.Expressions.FixedPrice

/-!
# Tracing a rule does not change the price

Unless one number of a factor is an integer and the other is not: the traced factor is then a float, and `type` tells the
two apart.
-/

namespace NewApi.Expressions

open Lang Code.Pricing Code.Billing

def keepFactor (_ : Nat) (cond exp1 exp2 : Node) : Node := .conditional true cond exp1 exp2

def noteFactor (rule : Nat) (cond exp1 exp2 : Node) : Node :=
  .conditional true cond (traceFactor rule (.bool true) exp1 exp2) exp2

def noted (tree : Node) : Node := withFactors noteFactor tree 0

def sameKind : Node × Node → Bool
  | (.integer _, .integer _) | (.float _, .float _) => true
  | _ => false

mutual
theorem keep_eq : ∀ (node : Node) (n : Nat), withFactors keepFactor node n = node
  | .absent, _ | .nil, _ | .identifier _, _ | .integer _, _ | .float _, _ | .bool _, _ | .string _, _
  | .pointer _, _ => rfl
  | .unary _ node, n | .chain node, n | .predicate node, n => by
    simp only [withFactors, keep_eq node]
  | .binary _ a b, n | .member a b _, n | .variableDeclarator _ a b, n | .pair a b, n => by
    simp only [withFactors, keep_eq a, keep_eq b]
  | .slice node start stop, n => by
    simp only [withFactors, keep_eq node, keep_eq start, keep_eq stop]
  | .call callee arguments, n => by
    simp only [withFactors, keep_eq callee, keepIn_eq arguments]
  | .builtin _ nodes, n | .sequence nodes, n | .array nodes, n | .map nodes, n => by
    simp only [withFactors, keepIn_eq nodes]
  | .conditional ternary cond exp1 exp2, n => by
    simp only [withFactors, keep_eq cond, keep_eq exp1, keep_eq exp2]
    split
    · rename_i hrule
      have hternary : ternary = true := by
        unfold ruleMultiplier at hrule
        split at hrule
        · rename_i h
          exact h.1
        · cases hrule
      rw [keepFactor, hternary]
    · rfl

theorem keepIn_eq : ∀ (nodes : List Node) (n : Nat), withFactorsIn keepFactor nodes n = nodes
  | [], _ => rfl
  | node :: nodes, n => by
    simp only [withFactorsIn, keep_eq node, keepIn_eq nodes]
end

section Values

variable {engine : Engine} {params : TokenParams} {request : RequestInput} {imageCount : Int} {exp1 exp2 : Node}
  {multiplier : ℚ}

theorem eval_numbers (L : Lang.Language Fn) (H : Host Fn Event) (scope : Scope Fn) (hkind : sameKind (exp1, exp2) = true)
    (hnumber : requestRuleNumber exp1 = some multiplier) (hone : requestRuleNumber exp2 = some 1) :
    eval L H exp1 scope = pure (.value (traceValue exp1 exp2 multiplier)) ∧
      eval L H exp2 scope = pure (.value (traceValue exp1 exp2 1)) := by
  unfold sameKind at hkind
  split at hkind
  · rename_i n m heq
    cases heq
    cases hnumber
    obtain rfl : m = 1 := by exact_mod_cast Option.some.inj hone
    simp only [eval, traceValue, Int.floor_intCast, Int.floor_one, and_self]
  · rename_i x y heq
    cases heq
    cases hnumber
    cases hone
    exact ⟨rfl, rfl⟩
  · cases hkind

theorem apply_false (rule : Int) (x : ℚ) :
    apply engine request (traceFn exp1 exp2) [.int rule, .bool false, traceValue exp1 exp2 x] =
      pure (traceValue exp1 exp2 1) := by
  unfold traceFn traceValue
  split
  · exact congrArg (fun n => Comp.done (Value.int n) []) Int.floor_one.symm
  · rfl

theorem conditional_true (a b : Comp Event (Flow Fn)) :
    conditionalComp (pure (.value (.bool true)) >>= Flow.get) a b = a := by
  simp only [conditionalComp, Flow.get, pure_bind]

theorem trace_keep : Alike engine.language (quietHost engine params request imageCount) traceFactor keepFactor Eq
    (sameKind · = true) := by
  refine ⟨traceFactor_isFactor, fun _ _ _ _ => rfl, fun k h => congrArg (· + k) h, ?_⟩
  intro n n' cond cond' exp1 exp2 multiplier scope _ hkind hnumber hone hscope hcond
  obtain ⟨hexp1, hexp2⟩ := eval_numbers engine.language (quietHost engine params request imageCount) scope hkind
    hnumber hone
  simp only [traceFactor, hnumber, Option.getD_some, quiet_traceNode hscope _ _ hnumber, keepFactor, eval, hcond, hexp1,
    hexp2]

theorem note_keep : Alike engine.language (quietHost engine params request imageCount) noteFactor keepFactor Eq
    (sameKind · = true) := by
  refine ⟨fun _ _ _ _ => rfl, fun _ _ _ _ => rfl, fun k h => congrArg (· + k) h, ?_⟩
  intro n n' cond cond' exp1 exp2 multiplier scope _ hkind hnumber hone hscope hcond
  obtain ⟨hexp1, hexp2⟩ := eval_numbers engine.language (quietHost engine params request imageCount) scope hkind
    hnumber hone
  simp only [noteFactor, traceFactor, hnumber, Option.getD_some, keepFactor, eval, quiet_traceNode hscope _ _ hnumber,
    hcond, hexp1, hexp2, conditional_true]

/-- A traced factor notes what the branch of its multiplier would note. -/
theorem trace_note : Alike engine.language (host engine params request imageCount) traceFactor noteFactor Eq
    (sameKind · = true) := by
  refine ⟨traceFactor_isFactor, fun _ _ _ _ => rfl, fun k h => congrArg (· + k) h, ?_⟩
  rintro n _ _ _ exp1 exp2 multiplier scope rfl hkind hnumber hone hscope hcond
  obtain ⟨-, hexp2⟩ := eval_numbers engine.language (host engine params request imageCount) scope hkind hnumber hone
  have hfalse : (host engine params request imageCount).apply (traceFn exp1 exp2)
      [.int n, .bool false, traceValue exp1 exp2 multiplier] = _ := apply_false n multiplier
  simp only [noteFactor, traceFactor, hnumber, Option.getD_some, eval, eval_traceNode runsAs_host hscope n _ hnumber,
    hcond, hexp2, hfalse, conditional_true, map_pure]

end Values

section Runs

variable {engine : Engine} {params : TokenParams} {request : RequestInput} {imageCount : Int} {tree : Node}
  {entry : CachedEntry}

def evalTree (engine : Engine) (params : TokenParams) (request : RequestInput) (imageCount : Int) (tree : Node) :
    Comp Event (Value Fn) :=
  eval engine.language (host engine params request imageCount) tree ⟨[], none⟩ >>= Flow.get

theorem evalTree_erase : (evalTree engine params request imageCount tree).erase quiet =
    eval engine.language (quietHost engine params request imageCount) tree ⟨[], none⟩ >>= Flow.get := by
  rw [evalTree, erase_get, eval_erase]

theorem eval_whole {H : Host Fn Event} {f g : Nat → Node → Node → Node → Node}
    (h : Alike engine.language H f g Eq (sameKind · = true)) (hclear : Clear tree.declared)
    (hkinds : ∀ x ∈ factors tree, sameKind x = true) : eval engine.language H (withFactors f tree 0) ⟨[], none⟩ =
      eval engine.language H (withFactors g tree 0) ⟨[], none⟩ :=
  eval_withFactors h tree ⟨rfl, hkinds, hclear, unshadowed_nil⟩

theorem patched_quiet (hclear : Clear tree.declared) (hkinds : ∀ x ∈ factors tree, sameKind x = true) :
    (evalTree engine params request imageCount (patch tree []).1).erase quiet =
      (evalTree engine params request imageCount tree).erase quiet := by
  rw [evalTree_erase, evalTree_erase, patch_tree, List.length_nil, eval_whole trace_keep hclear hkinds, keep_eq]

theorem patched_noted (hclear : Clear tree.declared) (hkinds : ∀ x ∈ factors tree, sameKind x = true) :
    evalTree engine params request imageCount (patch tree []).1 =
      evalTree engine params request imageCount (noted tree) := by
  rw [evalTree, patch_tree, List.length_nil, eval_whole trace_note hclear hkinds]
  rfl

theorem original_quiet (hnames : Clear tree.identifiers) (henv : "$env" ∉ tree.identifiers) :
    (evalTree engine params request imageCount tree).erase quiet = evalTree engine params request imageCount tree := by
  have hkeeps : (host engine params request imageCount).Keeps (fun f => f ≠ .trace ∧ f ≠ .traceInt)
      (fun e => quiet e = true) := by
    refine host_keeps (fun _ _ h => h) ?_
    rintro (h | h)
    · exact absurd rfl h.1
    · exact absurd rfl h.2
  have hhost : (host engine params request imageCount).Names (fun f => f ≠ .trace ∧ f ≠ .traceInt) tree.identifiers := by
    refine host_names henv fun name hname f hf => ?_
    constructor <;> rintro rfl
    · exact absurd (hnames name hname) (by rw [hf.2.2.1 rfl]; decide)
    · exact absurd (hnames name hname) (by rw [hf.2.2.2 rfl]; decide)
  cases hrun : evalTree engine params request imageCount tree with
  | failed => rfl
  | done v es =>
    have hes := (eval_sat hkeeps hhost ⟨fun _ he => absurd he List.not_mem_nil, fun _ hp => absurd hp (by simp)⟩ v es
      hrun).2
    exact congrArg (Comp.done v) (List.filter_eq_self.mpr hes)

theorem noted_quiet (hclear : Clear tree.declared) (hkinds : ∀ x ∈ factors tree, sameKind x = true) :
    (evalTree engine params request imageCount (noted tree)).erase quiet =
      (evalTree engine params request imageCount tree).erase quiet := by
  rw [evalTree_erase, evalTree_erase, noted, eval_whole note_keep hclear hkinds, keep_eq]

theorem run_value {prog : Node} (h : ∀ imageCount, (evalTree engine params request imageCount entry.prog).erase quiet =
      (evalTree engine params request imageCount prog).erase quiet) :
    (runProgram engine entry params request).map Prod.fst =
      (runProgram engine { entry with prog } params request).map Prod.fst := by
  unfold runProgram
  dsimp only
  split
  · rfl
  rename_i imageCount hcount
  have h := h imageCount
  unfold evalTree at h
  cases hprog : eval engine.language (host engine params request imageCount) entry.prog ⟨[], none⟩ >>= Flow.get with
  | failed =>
    rw [hprog] at h
    cases hother : eval engine.language (host engine params request imageCount) prog ⟨[], none⟩ >>= Flow.get with
    | failed => rfl
    | done => rw [hother] at h; cases h
  | done out =>
    rw [hprog] at h
    cases hother : eval engine.language (host engine params request imageCount) prog ⟨[], none⟩ >>= Flow.get with
    | failed => rw [hother] at h; cases h
    | done =>
      rw [hother] at h
      obtain ⟨rfl, -⟩ := Comp.done.inj h
      dsimp only
      cases toRat out <;> rfl

theorem record_rules (es : List Event) (trace : TraceResult) (k : Nat) :
    (es.foldl TraceResult.record trace).requestRules[k]? =
      trace.requestRules[k]?.map fun r => { r with matched := r.matched || decide (.matched k ∈ es) } := by
  induction es generalizing trace with
  | nil => simp
  | cons e es ih =>
    rw [List.foldl_cons, ih]
    cases e with
    | tier => simp [TraceResult.record]
    | fixed => simp [TraceResult.record]
    | matched rule =>
      have hrule : (TraceResult.record trace (.matched rule)).requestRules[k]? =
          trace.requestRules[k]?.map fun r => { r with matched := r.matched || decide (rule = k) } := by
        simp only [TraceResult.record]
        split
        · rw [List.getElem?_modify]
          by_cases hk : rule = k
          · simp [hk]
          · have hne : rule.toNat ≠ k := by omega
            simp [hk, hne]
        · have hne : rule ≠ k := by omega
          simp [hne]
      rw [hrule, Option.map_map]
      congr 1
      funext r
      simp [Bool.or_assoc, List.mem_cons, eq_comm]

/-- `type` of a number. -/
def typedLanguage : Lang.Language Fn :=
  { bareLanguage with
    builtin := fun name args =>
      match name, args with
      | "type", [.int _] => .done (some (.str "int"))
      | "type", [.float _] => .done (some (.str "float"))
      | _, _ => .done none
    builtin_all := by
      intro P name args hargs
      split
      · rintro v ⟨⟩
        exact .str _
      · rintro v ⟨⟩
        exact .str _
      · rintro v ⟨⟩ }

def typedEngine : Engine := ⟨typedLanguage, fun _ => ""⟩

/-- `type(hour("") >= 21 ? 2 : 1.0) == "int" ? p : c` -/
def typeTree : Node :=
  .conditional true
    (.binary .eq
      (.builtin "type" [.conditional true (.binary .ge (.call (.identifier "hour") [.string ""]) (.integer 21))
        (.integer 2) (.float 1)])
      (.string "int"))
    (.identifier "p") (.identifier "c")

/-- `p * (hour("") >= 23 ? 2 : 1) * $env._trace_int(0, true, 1)` -/
def markedTree : Node :=
  .binary .mul
    (.binary .mul (.identifier "p")
      (.conditional true (.binary .ge (.call (.identifier "hour") [.string ""]) (.integer 23)) (.integer 2) (.integer 1)))
    (.call (.member (.identifier "$env") (.string "_trace_int") false) [.integer 0, .bool true, .integer 1])

/-- The prices with and without the trace, and which rules have matched. -/
def bothPrices (engine : Engine) (tree : Node) (params : TokenParams) (request : RequestInput) :
    Option (ℚ × ℚ × List Bool) := do
  let entry ← (compileEntry tree).toOption
  let (traced, trace) ← (runProgram engine entry params request).toOption
  let (plain, _) ← (runProgram engine { entry with prog := tree } params request).toOption
  pure (traced, plain, trace.requestRules.map (·.matched))

end Runs

end NewApi.Expressions
