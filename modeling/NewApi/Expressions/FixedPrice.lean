import NewApi.Expressions.Patch

/-!
# Fixed prices

What the validator accepts has one pricing leaf on every way through its conditions.
-/

namespace NewApi.Expressions

open Lang Code.Pricing Code.Billing

/-! ## What a part can call -/

section Calls

variable {engine : Engine} {params : TokenParams} {request : RequestInput} {imageCount : Int} {P : Fn → Prop}
  {Q : Event → Prop}

mutual
theorem data_all : ∀ d : Data, d.toValue.All P
  | .null => .nil
  | .bool b => .bool b
  | .num x => .float x
  | .str s => .str s
  | .arr items => .arr (values_all items)
  | .obj entries => .map (entries_all entries)

theorem values_all : ∀ items : List Data, ∀ v ∈ toValues items, v.All P
  | [] => fun _ h => absurd h List.not_mem_nil
  | d :: ds => List.forall_mem_cons.mpr ⟨data_all d, values_all ds⟩

theorem entries_all : ∀ entries : List (String × Data), ∀ e ∈ toEntries entries, e.2.All P
  | [] => fun _ h => absurd h List.not_mem_nil
  | (_, d) :: es => List.forall_mem_cons.mpr ⟨data_all d, entries_all es⟩
end

theorem found_all (d : Option Data) : ((d.map Data.toValue).getD .nil).All P := by
  cases d with
  | none => exact .nil
  | some d => exact data_all d

theorem float1_sat {f : ℚ → ℚ} {a : Value Fn} : (float1 f a).Sat (Value.All P) Q :=
  (Comp.Sat.lift (P := fun _ => True) fun _ _ => trivial).map fun x _ => .float x

theorem float2_sat {f : ℚ → ℚ → ℚ} {a b : Value Fn} : (float2 f a b).Sat (Value.All P) Q :=
  (Comp.Sat.lift (P := fun _ => True) fun _ _ => trivial).map fun x _ => .float x

theorem mem_ruleEvents {rule : Int} {matched : Bool} {e : Event} (h : e ∈ ruleEvents rule matched) :
    e = .matched rule := by
  cases matched with
  | true => exact List.mem_singleton.mp h
  | false => cases h

theorem host_keeps (hprice : P .tier ∨ P .fixed → ∀ e, quiet e = true → Q e)
    (htrace : P .trace ∨ P .traceInt → ∀ rule, Q (.matched rule)) :
    (host engine params request imageCount).Keeps P Q := by
  intro f args hf hargs
  change (apply engine request f args).Sat _ _
  unfold apply
  split
  case h_1 =>
    unfold tierCall
    split
    · exact Comp.Sat.failed
    · rintro _ _ ⟨⟩
      exact ⟨.float _, List.forall_mem_singleton.mpr (hprice (.inl hf) _ rfl)⟩
  case h_2 =>
    unfold fixedCall
    split
    · exact Comp.Sat.failed
    · rintro _ _ ⟨⟩
      exact ⟨.float _, List.forall_mem_singleton.mpr (hprice (.inr hf) _ rfl)⟩
  case h_3 =>
    unfold traceCall
    split
    · exact Comp.Sat.failed
    · rintro _ _ ⟨⟩
      exact ⟨.float _, fun e he => mem_ruleEvents he ▸ htrace (.inl hf) _⟩
  case h_4 =>
    rintro _ _ ⟨⟩
    exact ⟨.int _, fun e he => mem_ruleEvents he ▸ htrace (.inr hf) _⟩
  case h_5 => exact Comp.Sat.pure (.str _)
  case h_6 =>
    refine Comp.Sat.pure ?_
    unfold RequestInput.param
    split
    · exact .nil
    · exact found_all _
  case h_7 =>
    refine Comp.Sat.pure ?_
    unfold RequestInput.u
    split
    · exact .nil
    · exact found_all _
  case h_8 => exact Comp.Sat.pure (.bool _)
  case h_9 | h_10 | h_11 | h_12 | h_13 => exact Comp.Sat.pure (.int _)
  case h_14 | h_15 => exact float2_sat
  case h_16 | h_17 | h_18 => exact float1_sat
  case h_19 => exact Comp.Sat.failed

/-- The functions that leave something in the trace have these names. -/
def recordedUnder (name : String) (f : Fn) : Prop :=
  (f = .tier → name = "tier") ∧ (f = .fixed → name = "fixed") ∧ (f = .trace → name = "_trace") ∧
    (f = .traceInt → name = "_trace_int")

instance (name : String) (f : Fn) : Decidable (recordedUnder name f) := inferInstanceAs (Decidable (_ ∧ _))

def isEntry : String × Value Fn → Bool
  | (_, .float _) => true
  | (name, .func f) => recordedUnder name f
  | _ => false

theorem host_names {names : List String} (henv : "$env" ∉ names)
    (hP : ∀ name ∈ names, ∀ f, recordedUnder name f → P f) : (host engine params request imageCount).Names P names := by
  have hentries : (env params imageCount).all isEntry = true := rfl
  intro name hname v hv
  unfold Host.resolve at hv
  rw [if_neg fun h : name = "$env" => henv (h ▸ hname)] at hv
  have hentry := List.all_eq_true.mp hentries _ (mem_of_lookup hv)
  cases v with
  | float x => exact .float x
  | func f => exact .func (hP name hname f (of_decide_eq_true hentry))
  | _ => cases hentry

def PlainFn (f : Fn) : Prop := f ≠ .tier ∧ f ≠ .fixed

theorem plain_keeps : (host engine params request imageCount).Keeps PlainFn (fun e => quiet e = false) := by
  refine host_keeps ?_ fun _ _ => rfl
  rintro (h | h)
  · exact absurd rfl h.1
  · exact absurd rfl h.2

theorem plain_names {names : List String} (hmarker : ∀ name ∈ names, name ≠ "tier" ∧ name ≠ "fixed")
    (henv : "$env" ∉ names) : (host engine params request imageCount).Names PlainFn names :=
  host_names henv fun name hname _ hf =>
    ⟨fun h => (hmarker name hname).1 (hf.1 h), fun h => (hmarker name hname).2 (hf.2.1 h)⟩

end Calls

/-! ## The way through a tree -/

section Reach

variable (engine : Engine) (params : TokenParams) (request : RequestInput) (imageCount : Int)

def truth (cond : Node) : Option Bool :=
  match eval engine.language (host engine params request imageCount) (patch cond []).1 ⟨[], none⟩ >>= Flow.get with
  | .done (.bool b) _ => some b
  | _ => none

def factorValue : Node → Option ℚ
  | .identifier _ => some imageCount
  | .conditional _ cond exp1 _ =>
    (truth engine params request imageCount cond).bind fun b => if b then requestRuleNumber exp1 else some 1
  | _ => none

def factorConditions : Node → List Node
  | .conditional _ cond _ _ => [cond]
  | _ => []

inductive Leaf where
  | token (name price : Node)
  | fixed (name : Node) (amount : ℚ)

def Leaf.unit : Leaf → BillingUnit
  | .token _ _ => .token
  | .fixed _ _ => .request

def leafOf (name price : Node) : Leaf :=
  match price with
  | .call (.identifier function) [argument] =>
    match requestRuleNumber argument with
    | some amount => if function = "fixed" then .fixed name amount else .token name price
    | none => .token name price
  | _ => .token name price

def reach : Node → Option (Leaf × List ℚ)
  | .conditional _ cond exp1 exp2 => do
    if ← truth engine params request imageCount cond then reach exp1 else reach exp2
  | .binary _ left right =>
    if isRequestPriceMultiplier right = true then do
      let (leaf, multipliers) ← reach left
      let m ← factorValue engine params request imageCount right
      pure (leaf, multipliers ++ [m])
    else do
      let m ← factorValue engine params request imageCount left
      let (leaf, multipliers) ← reach right
      pure (leaf, m :: multipliers)
  | .call _ [name, price] => some (leafOf name price, [])
  | _ => none

def product (xs : List ℚ) : ℚ := xs.foldr (· * ·) 1

def asked : Node → List Node
  | .conditional _ cond exp1 exp2 =>
    cond :: match truth engine params request imageCount cond with
      | some true => asked exp1
      | some false => asked exp2
      | none => []
  | .binary _ left right =>
    if isRequestPriceMultiplier right = true then asked left ++ factorConditions right
    else factorConditions left ++ asked right
  | _ => []

def Leaf.Called (x : ℚ) (calls : List Event) : Leaf → Prop
  | .token _ _ => ∃ label, calls = [.tier label x]
  | .fixed _ amount => x = amount * 1000000 ∧ ∃ label, calls = [.fixed amount, .tier label x]

end Reach

section Sound

variable {engine : Engine} {params : TokenParams} {request : RequestInput} {imageCount : Int}
  {rules : List RequestRuleTrace} {v : Value Fn} {es : List Event}

theorem product_append (xs : List ℚ) (m : ℚ) : product (xs ++ [m]) = product xs * m := by
  unfold product
  induction xs with
  | nil => simp
  | cons x xs ih =>
    rw [List.cons_append, List.foldr_cons, List.foldr_cons, ih, mul_assoc]

theorem unshadowed_nil : Unshadowed ⟨[], none⟩ := fun _ _ => rfl

variable {node name price tree : Node} {x : ℚ} {entry : CachedEntry} {trace : TraceResult}

theorem marker_iff :
    containsPricingMarker node = false ↔ ∀ name ∈ node.identifiers, name ≠ "tier" ∧ name ≠ "fixed" := by
  simp [containsPricingMarker]

theorem erase_eq_done {α : Type} {x : Comp Event α} {a : α} (h : x.erase quiet = .done a es) :
    ∃ es', x = .done a es' ∧ es = es'.filter quiet := by
  cases x with
  | failed => cases h
  | done b es' =>
    cases h
    exact ⟨es', rfl, rfl⟩

theorem silent (hmarker : containsPricingMarker node = false) (henv : "$env" ∉ node.identifiers)
    (h : eval engine.language (quietHost engine params request imageCount) (patch node rules).1 ⟨[], none⟩ >>=
      Flow.get = .done v es) : es = [] := by
  rw [← eval_erase, ← erase_get] at h
  obtain ⟨es', hes', rfl⟩ := erase_eq_done h
  have hnames : (host engine params request imageCount).Names PlainFn (patch node rules).1.identifiers := by
    refine plain_names (fun name hname => ?_) fun hname => ?_
    · rcases patch_names hname with hold | htrace
      · exact marker_iff.mp hmarker name hold
      · constructor <;> rintro rfl <;> exact absurd htrace (by decide)
    · rcases patch_names hname with hold | htrace
      · exact henv hold
      · exact absurd htrace (by decide)
  have hsat := eval_sat plain_keeps hnames ⟨fun _ he => absurd he List.not_mem_nil, fun _ hp => absurd hp (by simp)⟩ v es' hes'
  exact List.filter_eq_nil_iff.mpr fun e he => by simp [hsat.2 e he]

theorem truth_of_eval {cond : Node} {b : Bool} (hclear : Clear cond.declared)
    (h : eval engine.language (quietHost engine params request imageCount) (patch cond rules).1 ⟨[], none⟩ >>=
      Flow.get = .done (.bool b) es) : truth engine params request imageCount cond = some b := by
  rw [eval_patch cond rules [] hclear unshadowed_nil, ← eval_erase, ← erase_get] at h
  obtain ⟨_, hes', -⟩ := erase_eq_done h
  unfold truth
  rw [hes']

theorem mul_float {L : Lang.Language Fn} {m : ℚ} {w : Value Fn} (hw : toRat w = some m) :
    binaryValue L .mul (.float x) w = some (.float (x * m)) ∧ binaryValue L .mul w (.float x) = some (.float (m * x)) := by
  cases w with
  | int | float =>
    cases hw
    exact ⟨rfl, rfl⟩
  | _ => cases hw

theorem eval_literal (engine : Engine) (H : Host Fn Event) (h : requestRuleNumber node = some x) :
    ∃ w, eval engine.language H node ⟨[], none⟩ = pure (.value w) ∧ toRat w = some x := by
  cases node with
  | integer n => exact ⟨.int n, rfl, h⟩
  | float y => exact ⟨.float y, rfl, h⟩
  | _ => cases h

theorem multiplier_cases (h : isRequestPriceMultiplier node = true) : node = .identifier "image_count" ∨
      ∃ ternary cond exp1 exp2 multiplier, node = .conditional ternary cond exp1 exp2 ∧
        containsPricingMarker cond = false ∧ requestRuleNumber exp1 = some multiplier ∧
          requestRuleNumber exp2 = some 1 := by
  cases node with
  | identifier => exact .inl (congrArg Node.identifier (of_decide_eq_true h))
  | conditional ternary cond exp1 exp2 =>
    simp only [isRequestPriceMultiplier] at h
    split at h
    · cases h
    rename_i hcond
    rw [not_or, Bool.not_eq_true] at hcond
    split at h
    · rename_i multiplier fallback hexp1 hexp2
      rw [decide_eq_true_iff] at h
      exact .inr ⟨ternary, cond, exp1, exp2, multiplier, rfl, hcond.2, hexp1, by rw [hexp2, h.1]⟩
    · cases h
  | _ => cases h

theorem toRat_traceValue {exp1 exp2 : Node} {multiplier : ℚ} (h : requestRuleNumber exp1 = some multiplier) :
    toRat (traceValue exp1 exp2 multiplier) = some multiplier := by
  unfold traceValue
  split
  · cases h
    rw [Int.floor_intCast]
    rfl
  · rfl

theorem toRat_traceValue_one {exp1 exp2 : Node} : toRat (traceValue exp1 exp2 1) = some 1 := by
  unfold traceValue
  split
  · rw [Int.floor_one]
    rfl
  · rfl

theorem eval_factor {ternary : Bool} {cond exp1 exp2 : Node} {multiplier : ℚ}
    (hexp1 : requestRuleNumber exp1 = some multiplier) (hexp2 : requestRuleNumber exp2 = some 1)
    (h : eval engine.language (quietHost engine params request imageCount)
      (patch (.conditional ternary cond exp1 exp2) rules).1 ⟨[], none⟩ >>= Flow.get = .done v es) :
    ∃ b, eval engine.language (quietHost engine params request imageCount) (patch cond rules).1 ⟨[], none⟩ >>=
      Flow.get = .done (.bool b) es ∧ toRat v = some (if b then multiplier else 1) := by
  obtain ⟨yes, no, hyes, hno, heval⟩ : ∃ yes no, toRat yes = some multiplier ∧ toRat no = some 1 ∧
      eval engine.language (quietHost engine params request imageCount)
          (patch (.conditional ternary cond exp1 exp2) rules).1 ⟨[], none⟩ =
        conditionalComp (eval engine.language (quietHost engine params request imageCount) (patch cond rules).1
          ⟨[], none⟩ >>= Flow.get) (pure (.value yes)) (pure (.value no)) := by
    rw [patch_conditional]
    cases hrule : ruleMultiplier ternary cond.identifiers exp1 exp2 with
    | some m =>
      obtain rfl : multiplier = m := Option.some.inj (hexp1.symm.trans (number_of_rule hrule).1)
      exact ⟨_, _, toRat_traceValue hexp1, toRat_traceValue_one, quiet_traceNode unshadowed_nil _ _ hexp1⟩
    | none =>
      obtain ⟨yes, hyes, hyes'⟩ := eval_literal engine (quietHost engine params request imageCount) hexp1
      obtain ⟨no, hno, hno'⟩ := eval_literal engine (quietHost engine params request imageCount) hexp2
      refine ⟨yes, no, hyes', hno', ?_⟩
      rw [eval, patch_literal hexp1, patch_literal hexp2, hyes, hno]
  rw [heval] at h
  obtain ⟨b, _, _, hcond, hrest, rfl⟩ := conditional_eq_done h
  cases b <;> cases hrest <;> rw [List.append_nil, List.append_nil]
  · exact ⟨false, hcond, hno⟩
  · exact ⟨true, hcond, hyes⟩

theorem eval_multiplier (hmult : isRequestPriceMultiplier node = true)
    (henv : "$env" ∉ node.identifiers) (hclear : Clear node.declared)
    (h : eval engine.language (quietHost engine params request imageCount) (patch node rules).1 ⟨[], none⟩ >>=
      Flow.get = .done v es) :
    es = [] ∧ ∃ m, factorValue engine params request imageCount node = some m ∧ toRat v = some m := by
  rcases multiplier_cases hmult with rfl | ⟨_, cond, _, _, multiplier, rfl, hmarker, hexp1, hexp2⟩
  · cases h
    exact ⟨rfl, imageCount, rfl, rfl⟩
  have henv' : "$env" ∉ cond.identifiers := fun hname =>
    henv (List.mem_append_left _ (List.mem_append_left _ hname))
  obtain ⟨b, hcond, hvalue⟩ := eval_factor hexp1 hexp2 h
  refine ⟨silent hmarker henv' hcond, if b then multiplier else 1, ?_, hvalue⟩
  simp only [factorValue, truth_of_eval (of_left (of_left hclear)) hcond, hexp1, Option.bind_some]
  cases b <;> rfl

theorem fixed_price {argument : Node} {amount : ℚ} (hamount : requestRuleNumber argument = some amount) :
    leafOf name (.call (.identifier "fixed") [argument]) = .fixed name amount := by
  simp only [leafOf, hamount, if_true]

theorem token_price (hmarker : containsPricingMarker price = false) : leafOf name price = .token name price := by
  unfold leafOf
  split
  · split
    · rw [if_neg]
      rintro rfl
      simp [containsPricingMarker, Node.identifiers] at hmarker
    · rfl
  · rfl

theorem price_cases (h : validatePrice price = .ok ()) : containsPricingMarker price = false ∨
      ∃ argument amount, price = .call (.identifier "fixed") [argument] ∧ requestRuleNumber argument = some amount := by
  unfold validatePrice at h
  split at h
  · rename_i function argument
    split at h
    · rename_i hfixed
      cases hamount : requestRuleNumber argument with
      | none => simp [hamount] at h
      | some amount => exact .inr ⟨argument, amount, by rw [hfixed], hamount⟩
    · split at h
      · cases h
      · exact .inl (Bool.eq_false_iff.mpr ‹_›)
  · split at h
    · cases h
    · exact .inl (Bool.eq_false_iff.mpr ‹_›)

theorem tier_eq_done {vs : List (Value Fn)} (h : (apply engine request .tier vs).erase quiet = .done v es) :
    ∃ label w x, vs = [.str label, w] ∧ toRat w = some x ∧ v = .float x ∧ es = [.tier label x] := by
  unfold apply at h
  split at h
  case h_1 =>
    rename_i label w _
    unfold tierCall at h
    split at h
    · cases h
    · rename_i x hx
      cases h
      exact ⟨label, w, x, rfl, hx, rfl, rfl⟩
  case h_19 => cases h
  all_goals cases ‹Fn.tier = _›

theorem fixed_eq_done {vs : List (Value Fn)} (h : (apply engine request .fixed vs).erase quiet = .done v es) :
    ∃ w x, vs = [w] ∧ toRat w = some x ∧ v = .float (x * 1000000) ∧ es = [.fixed x] := by
  unfold apply at h
  split at h
  case h_2 =>
    rename_i w _
    unfold fixedCall at h
    split at h
    · cases h
    · rename_i x hx
      cases h
      exact ⟨w, x, rfl, hx, rfl, rfl⟩
  case h_19 => cases h
  all_goals cases ‹Fn.fixed = _›

theorem eval_fixed {argument : Node} {amount : ℚ} (hamount : requestRuleNumber argument = some amount)
    (h : eval engine.language (quietHost engine params request imageCount)
      (patch (.call (.identifier "fixed") [argument]) rules).1 ⟨[], none⟩ >>= Flow.get = .done v es) :
    v = .float (amount * 1000000) ∧ es = [.fixed amount] := by
  simp only [patch, patchList, patch_literal hamount] at h
  rw [eval] at h
  obtain ⟨_, _, _, hargs, hcall, rfl⟩ := call_eq_done (f := Fn.fixed) h
  obtain ⟨w, x, rfl, hx, rfl, rfl⟩ := fixed_eq_done hcall
  obtain ⟨u, _, _, _, hu, hnil, hvs, rfl⟩ := evalArgs_eq_done hargs rfl
  obtain ⟨rfl, -⟩ := List.cons.inj hvs
  cases hnil
  obtain ⟨_, hw', hrat⟩ := eval_literal engine (quietHost engine params request imageCount) hamount
  rw [hw'] at hu
  cases hu
  obtain rfl : x = amount := Option.some.inj (hx.symm.trans hrat)
  exact ⟨rfl, rfl⟩

theorem eval_leaf (hname : containsPricingMarker name = false)
    (hprice : validatePrice price = .ok ()) (henv : "$env" ∉ (Node.call (.identifier "tier") [name, price]).identifiers)
    (h : eval engine.language (quietHost engine params request imageCount)
      (patch (.call (.identifier "tier") [name, price]) rules).1 ⟨[], none⟩ >>= Flow.get = .done v es) :
    ∃ x, v = .float x ∧ (leafOf name price).Called x es := by
  have henv' : "$env" ∉ name.identifiers ++ price.identifiers := by
    simpa [Node.identifiers, identifiersOf] using henv
  simp only [patch, patchList] at h
  rw [eval] at h
  obtain ⟨_, _, _, hargs, hcall, rfl⟩ := call_eq_done (f := Fn.tier) h
  obtain ⟨label, w, x, rfl, hx, rfl, rfl⟩ := tier_eq_done hcall
  obtain ⟨_, rest, _, _, hnamev, hrest, hvs, rfl⟩ := evalArgs_eq_done hargs rfl
  obtain ⟨rfl, rfl⟩ := List.cons.inj hvs
  obtain ⟨_, _, _, _, hpricev, hnil, hws, rfl⟩ := evalArgs_eq_done hrest rfl
  obtain ⟨rfl, rfl⟩ := List.cons.inj hws
  cases hnil
  rw [silent hname (fun hmem => henv' (List.mem_append_left _ hmem)) hnamev, List.nil_append, List.append_nil]
  refine ⟨x, rfl, ?_⟩
  rcases price_cases hprice with hmarker | ⟨_, _, rfl, hamount⟩
  · rw [silent hmarker (fun hmem => henv' (List.mem_append_right _ hmem)) hpricev, token_price hmarker]
    exact ⟨label, rfl⟩
  rw [fixed_price hamount]
  obtain ⟨rfl, rfl⟩ := eval_fixed hamount hpricev
  cases hx
  exact ⟨rfl, label, rfl⟩

inductive Accepted : Node → Prop where
  | conditional {ternary : Bool} {cond exp1 exp2 : Node} : containsPricingMarker cond = false → Accepted exp1 →
      Accepted exp2 → Accepted (.conditional ternary cond exp1 exp2)
  | timesRight {left right : Node} : isRequestPriceMultiplier right = true → Accepted left →
      Accepted (.binary .mul left right)
  | timesLeft {left right : Node} : isRequestPriceMultiplier right = false → isRequestPriceMultiplier left = true →
      Accepted right → Accepted (.binary .mul left right)
  | leaf {name price : Node} : containsPricingMarker name = false → validatePrice price = .ok () →
      Accepted (.call (.identifier "tier") [name, price])

theorem accepted_of_valid (h : validateFixedPricingTree tree = .ok ()) : Accepted tree := by
  fun_induction validateFixedPricingTree tree with
  | case2 ternary cond exp1 exp2 hmarker ih1 ih2 =>
    cases hexp1 : validateFixedPricingTree exp1 with
    | error =>
      rw [hexp1] at h
      cases h
    | ok =>
      rw [hexp1] at h
      exact .conditional (Bool.eq_false_iff.mpr hmarker) (ih1 hexp1) (ih2 h)
  | case4 op left right hop hright ih =>
    obtain rfl := not_not.mp hop
    exact .timesRight hright (ih h)
  | case5 op left right hop hright hleft ih =>
    obtain rfl := not_not.mp hop
    exact .timesLeft (Bool.eq_false_iff.mpr hright) hleft (ih h)
  | case8 callee name price hleaf =>
    rw [not_or, not_not, Bool.not_eq_true] at hleaf
    obtain ⟨rfl, hname⟩ := hleaf
    exact .leaf hname h
  | _ => cases h

/-- An accepted tree is no literal, so it is no multiplier of a rule. -/
theorem Accepted.number (h : Accepted tree) : requestRuleNumber tree = none := by
  cases h <;> rfl

theorem mul_eq_done {L : Lang.Language Fn} {left right : Comp Event (Value Fn)}
    (h : binaryComp L .mul left right = .done v es) :
    ∃ a b es₁ es₂, left = .done a es₁ ∧ right = .done b es₂ ∧ binaryValue L .mul a b = some v ∧ es = es₁ ++ es₂ := by
  obtain ⟨a, es₁, _, ha, hrest, rfl⟩ := Comp.bind_eq_done.mp h
  obtain ⟨b, es₂, _, hb, hlift, rfl⟩ := Comp.bind_eq_done.mp hrest
  cases hvalue : binaryValue L .mul a b with
  | none =>
    rw [hvalue] at hlift
    cases hlift
  | some =>
    rw [hvalue] at hlift
    cases hlift
    exact ⟨a, b, es₁, es₂, ha, hb, hvalue, by rw [List.append_nil]⟩

theorem eval_tree (haccept : Accepted tree) (henv : "$env" ∉ tree.identifiers) (hclear : Clear tree.declared)
    (h : eval engine.language (quietHost engine params request imageCount) (patch tree rules).1 ⟨[], none⟩ >>=
      Flow.get = .done v es) :
    ∃ leaf multipliers x, reach engine params request imageCount tree = some (leaf, multipliers) ∧
      v = .float (x * product multipliers) ∧ leaf.Called x es := by
  induction haccept generalizing rules v es with
  | @conditional ternary cond exp1 exp2 hmarker hexp1 hexp2 ih1 ih2 =>
    simp only [Node.identifiers, List.mem_append, not_or] at henv
    have hrule (names : List String) : ruleMultiplier ternary names exp1 exp2 = none := by
      unfold ruleMultiplier
      rw [hexp1.number, ite_self]
    rw [patch_conditional, hrule] at h
    rw [eval] at h
    obtain ⟨b, es₁, es₂, hcond, hrest, rfl⟩ := conditional_eq_done h
    rw [silent hmarker henv.1.1 hcond, List.nil_append]
    simp only [reach, truth_of_eval (of_left (of_left hclear)) hcond, Option.bind_eq_bind, Option.bind_some]
    cases b
    · exact ih2 henv.2 (of_right hclear) hrest
    · exact ih1 henv.1.2 (of_right (of_left hclear)) hrest
  | @timesRight left right hright hleft ih =>
    simp only [Node.identifiers, List.mem_append, not_or] at henv
    simp only [patch] at h
    rw [eval, value_get] at h
    obtain ⟨a, b, es₁, es₂, ha, hb, hvalue, rfl⟩ := mul_eq_done h
    obtain ⟨leaf, multipliers, x, hreach, rfl, hcalled⟩ := ih henv.1 (of_left hclear) ha
    obtain ⟨rfl, m, hm, hb'⟩ := eval_multiplier hright henv.2 (of_right hclear) hb
    refine ⟨leaf, multipliers ++ [m], x, ?_, ?_, ?_⟩
    · simp only [reach, hright, hreach, hm, if_true, Option.bind_eq_bind, Option.bind_some, Option.pure_def]
    · rw [(mul_float hb').1] at hvalue
      rw [← Option.some.inj hvalue, product_append, mul_assoc]
    · rwa [List.append_nil]
  | @timesLeft left right hright hleft hrest ih =>
    simp only [Node.identifiers, List.mem_append, not_or] at henv
    simp only [patch] at h
    rw [eval, value_get] at h
    obtain ⟨a, b, _, _, ha, hb, hvalue, rfl⟩ := mul_eq_done h
    obtain ⟨leaf, multipliers, x, hreach, rfl, hcalled⟩ := ih henv.2 (of_right hclear) hb
    obtain ⟨rfl, m, hm, ha'⟩ := eval_multiplier hleft henv.1 (of_left hclear) ha
    refine ⟨leaf, m :: multipliers, x, ?_, ?_, hcalled⟩
    · simp only [reach, hright, hreach, hm, Bool.false_eq_true, if_false, Option.bind_eq_bind, Option.bind_some,
        Option.pure_def]
    · rw [(mul_float ha').2] at hvalue
      rw [← Option.some.inj hvalue, mul_left_comm]
      rfl
  | @leaf name price hname hprice =>
    obtain ⟨x, rfl, hcalled⟩ := eval_leaf hname hprice henv h
    refine ⟨leafOf name price, [], x, rfl, ?_, hcalled⟩
    rw [show product [] = 1 from rfl, mul_one]

theorem reach_congr {params' : TokenParams} (haccept : Accepted tree)
    (h : ∀ cond ∈ asked engine params request imageCount tree,
      truth engine params' request imageCount cond = truth engine params request imageCount cond) :
    reach engine params' request imageCount tree = reach engine params request imageCount tree := by
  have hfactor (node : Node) (hcond : ∀ cond ∈ factorConditions node,
      truth engine params' request imageCount cond = truth engine params request imageCount cond) :
      factorValue engine params' request imageCount node = factorValue engine params request imageCount node := by
    cases node with
    | conditional ternary cond => simp only [factorValue, hcond cond (List.mem_singleton_self cond)]
    | _ => rfl
  induction haccept with
  | @conditional ternary cond exp1 exp2 _ _ _ ih1 ih2 =>
    rw [asked, List.forall_mem_cons] at h
    simp only [reach, h.1]
    cases hcond : truth engine params request imageCount cond with
    | none => rfl
    | some b =>
      simp only [hcond] at h
      cases b
      · exact ih2 h.2
      · exact ih1 h.2
  | @timesRight left right hright _ ih =>
    rw [asked, if_pos hright, List.forall_mem_append] at h
    simp only [reach, hright, ih h.1, hfactor right h.2, if_true]
  | @timesLeft left right hright _ _ ih =>
    rw [asked, if_neg (Bool.eq_false_iff.mp hright), List.forall_mem_append] at h
    simp only [reach, hright, ih h.2, hfactor left h.1, Bool.false_eq_true, if_false]
  | leaf => rfl

theorem compile_prog (h : compileEntry tree = .ok entry) :
    entry.prog = (patch tree []).1 ∧ entry.requestRules = (patch tree []).2 ∧ Clear tree.declared ∧
      Clear tree.identifiers := by
  unfold compileEntry at h
  simp only at h
  split at h
  · cases h
  split at h
  · cases h
  rename_i hfind
  split at h
  · cases h
  rename_i hdeclared
  cases h
  refine ⟨rfl, rfl, fun name hname => ?_, fun name hname => ?_⟩
  swap
  · exact Bool.eq_false_iff.mpr (List.find?_eq_none.mp hfind name (List.mem_reverse.mpr hname))
  rw [Bool.not_eq_true, List.any_eq_false] at hdeclared
  have htaken := hdeclared name hname
  rw [← Bool.not_eq_true]
  intro htrace
  simp only [isTraceName, restrictedIdentifiers, List.mem_cons, List.not_mem_nil, or_false, decide_eq_true_eq] at htrace
  rcases htrace with rfl | rfl <;> exact htaken rfl

theorem record_unit {trace' : TraceResult} (h : trace.billingUnit = trace'.billingUnit) :
    (es.foldl TraceResult.record trace).billingUnit =
      ((es.filter quiet).foldl TraceResult.record trace').billingUnit := by
  induction es generalizing trace trace' with
  | nil => exact h
  | cons e es ih =>
    cases e with
    | tier => exact ih h
    | fixed => exact ih rfl
    | matched => exact ih h

theorem Leaf.Called.unit {leaf : Leaf} (h : leaf.Called x es)
    (htoken : trace.billingUnit = .token) : (es.foldl TraceResult.record trace).billingUnit = leaf.unit := by
  cases leaf with
  | token =>
    obtain ⟨label, rfl⟩ := h
    exact htoken
  | fixed =>
    obtain ⟨-, _, rfl⟩ := h
    rfl

theorem run_eq_ok {value : ℚ} (h : runProgram engine entry params request = .ok (value, trace)) :
    ∃ imageCount out es start, imageCountOf entry.usedVars request = .ok imageCount ∧
      eval engine.language (host engine params request imageCount) entry.prog ⟨[], none⟩ >>= Flow.get =
        .done out es ∧ toRat out = some value ∧ start.billingUnit = .token ∧ start.requestRules = entry.requestRules ∧
          trace = es.foldl TraceResult.record start := by
  unfold runProgram at h
  split at h
  · cases h
  rename_i imageCount hcount
  split at h
  · cases h
  rename_i out es hout
  split at h
  · cases h
  · rename_i f hf
    cases h
    exact ⟨imageCount, out, es, _, hcount, hout, hf, rfl, rfl, rfl⟩

def priceCalls (engine : Engine) (entry : CachedEntry) (params : TokenParams) (request : RequestInput)
    (imageCount : Int) : List Event :=
  match eval engine.language (host engine params request imageCount) entry.prog ⟨[], none⟩ >>= Flow.get with
  | .failed => []
  | .done _ events => events.filter quiet

theorem run_tree {value : ℚ} (haccept : Accepted tree)
    (henv : "$env" ∉ tree.identifiers) (hcompile : compileEntry tree = .ok entry)
    (hrun : runProgram engine entry params request = .ok (value, trace)) :
    ∃ imageCount leaf multipliers x, imageCountOf entry.usedVars request = .ok imageCount ∧
      reach engine params request imageCount tree = some (leaf, multipliers) ∧
        leaf.Called x (priceCalls engine entry params request imageCount) ∧ trace.billingUnit = leaf.unit ∧
          value = x * product multipliers := by
  obtain ⟨hprog, -, hclear, -⟩ := compile_prog hcompile
  obtain ⟨imageCount, _, _, _, hcount, heval, hvalue, hstart, -, rfl⟩ := run_eq_ok hrun
  have hquiet := congrArg (Comp.erase quiet) heval
  rw [hprog, erase_get, eval_erase] at hquiet
  obtain ⟨leaf, multipliers, x, hreach, rfl, hcalled⟩ := eval_tree haccept henv hclear hquiet
  refine ⟨imageCount, leaf, multipliers, x, hcount, hreach, ?_, ?_, (Option.some.inj hvalue).symm⟩
  · unfold priceCalls
    rw [heval]
    exact hcalled
  · rw [record_unit rfl]
    exact hcalled.unit hstart

end Sound

section Run

def bareLanguage : Lang.Language Fn where
  unary _ _ := none
  binary _ _ _ := none
  equal _ _ := false
  member _ _ := none
  slice _ _ _ := none
  builtin _ _ := .done none
  method _ _ := none
  unary_all := by simp
  binary_all := by simp
  member_all := by simp
  slice_all := by simp
  builtin_all := by simp [Strategy.All]
  method_all := by simp

def bareEngine : Engine := ⟨bareLanguage, fun _ => ""⟩

def tokens (p : ℚ) : TokenParams := ⟨p, 0, p, 0, 0, 0, 0, 0, 0, 0, 0, 0⟩

def lateRequest : RequestInput := ⟨[], fun _ => none, none, some 2, ⟨22, 30, 1, 6, 1⟩, fun _ => none⟩

def billed (engine : Engine) (tree : Node) (params : TokenParams) (request : RequestInput) : Option (ℚ × BillingUnit) :=
  match compileEntry tree with
  | .error _ => none
  | .ok entry =>
    match runProgram engine entry params request with
    | .error _ => none
    | .ok (value, trace) => some (value, trace.billingUnit)

theorem run_of_billed {engine : Engine} {tree : Node} {params : TokenParams} {request : RequestInput} {value : ℚ}
    {unit : BillingUnit} (h : billed engine tree params request = some (value, unit)) :
    ∃ entry trace, compileEntry tree = .ok entry ∧ runProgram engine entry params request = .ok (value, trace) ∧
      trace.billingUnit = unit := by
  unfold billed at h
  split at h
  · cases h
  rename_i entry hentry
  split at h
  · cases h
  · rename_i value trace hrun
    cases h
    exact ⟨entry, trace, hentry, hrun, rfl⟩

/-- `(p > 10 ? tier("big", fixed(0.5)) : tier("small", p * 2)) * image_count * (hour("") >= 21 ? 2 : 1)` -/
def lateTree : Node :=
  .binary .mul
    (.binary .mul
      (.conditional true (.binary .gt (.identifier "p") (.integer 10))
        (.call (.identifier "tier") [.string "big", .call (.identifier "fixed") [.float (1 / 2)]])
        (.call (.identifier "tier") [.string "small", .binary .mul (.identifier "p") (.integer 2)]))
      (.identifier "image_count"))
    (.conditional true (.binary .ge (.call (.identifier "hour") [.string ""]) (.integer 21)) (.integer 2) (.integer 1))

/-- `$env.fixed(0.5) > 0 ? tier("a", p * 2) : tier("b", fixed(1))` -/
def envTree : Node :=
  .conditional true
    (.binary .gt (.call (.member (.identifier "$env") (.string "fixed") false) [.float (1 / 2)]) (.integer 0))
    (.call (.identifier "tier") [.string "a", .binary .mul (.identifier "p") (.integer 2)])
    (.call (.identifier "tier") [.string "b", .call (.identifier "fixed") [.integer 1]])

end Run

end NewApi.Expressions
