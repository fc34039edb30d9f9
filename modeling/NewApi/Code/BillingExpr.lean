import NewApi.Code.Pricing
import NewApi.Lib.ExprLang
import NewApi.Lib.GoText

/-!
# Billing expressions

`compile.go`, `fixed.go` and `run.go` of `pkg/billingexpr`. Floats are exact. The engine gives the rest of the
language and the texts of values.
-/

namespace NewApi.Code.Billing

open Lang GoText Code.Pricing

/-! ## Input -/

inductive Data where
  | null
  | bool (b : Bool)
  | num (x : ℚ)
  | str (s : String)
  | arr (items : List Data)
  | obj (entries : List (String × Data))

structure Clock where
  hour : Int
  minute : Int
  weekday : Int
  month : Int
  day : Int
deriving DecidableEq

/-- `get` is `gjson` at a path, `zone` the time in a zone that can be loaded. -/
structure RequestInput where
  headers : List (String × String)
  get : String → Option Data
  usage : Option (List (String × Data))
  imageCount : Option Int
  utc : Clock
  zone : String → Option Clock

inductive Fn where
  | tier | fixed | trace | traceInt | header | param | u | has | hour | minute | weekday | month | day | max | min | abs
  | ceil | floor
deriving DecidableEq

inductive Event where
  | tier (name : String) (value : ℚ)
  | fixed (amount : ℚ)
  | matched (rule : Int)
deriving DecidableEq

structure Engine where
  language : Lang.Language Fn
  sprint : Value Fn → String

mutual
def Data.toValue : Data → Value Fn
  | .null => .nil
  | .bool b => .bool b
  | .num x => .float x
  | .str s => .str s
  | .arr items => .arr (toValues items)
  | .obj entries => .map (toEntries entries)

def toValues : List Data → List (Value Fn)
  | [] => []
  | d :: ds => d.toValue :: toValues ds

def toEntries : List (String × Data) → List (String × Value Fn)
  | [] => []
  | (k, d) :: es => (k, d.toValue) :: toEntries es
end

def normalizeHeaders (headers : List (String × String)) : List (String × String) :=
  (headers.map fun h => ((trimSpace h.1).toLower, trimSpace h.2)).filter fun h => h.1 ≠ "" ∧ h.2 ≠ ""

def RequestInput.header (request : RequestInput) (key : String) : String :=
  ((normalizeHeaders request.headers).lookup (trimSpace key).toLower).getD ""

def RequestInput.param (request : RequestInput) (path : String) : Value Fn :=
  if trimSpace path = "" then .nil else ((request.get (trimSpace path)).map Data.toValue).getD .nil

def RequestInput.u (request : RequestInput) (name : String) : Value Fn :=
  match request.usage with
  | none => .nil
  | some usage => ((usage.lookup (trimSpace name)).map Data.toValue).getD .nil

/-- No zone, and one that cannot be loaded, is UTC. -/
def RequestInput.timeInZone (request : RequestInput) (tz : String) : Clock :=
  if trimSpace tz = "" then request.utc else (request.zone (trimSpace tz)).getD request.utc

def Engine.text (engine : Engine) : Value Fn → String
  | .str s => s
  | .bool b => if b then "true" else "false"
  | .int n => toString n
  | v => engine.sprint v

def Engine.has (engine : Engine) (source : Value Fn) (substr : String) : Bool :=
  match source with
  | .nil => false
  | source => substr ≠ "" ∧ hasText (engine.text source) substr

/-! ## The environment -/

def float1 (f : ℚ → ℚ) (v : Value Fn) : Comp Event (Value Fn) := .float <$> Comp.lift ((toRat v).map f)

def float2 (f : ℚ → ℚ → ℚ) (a b : Value Fn) : Comp Event (Value Fn) :=
  .float <$> Comp.lift ((toRat a).bind fun x => (toRat b).map (f x))

def tierCall (name : String) (value : Value Fn) : Comp Event (Value Fn) :=
  match toRat value with
  | none => .failed
  | some x => .done (.float x) [.tier name x]

def fixedCall (amount : Value Fn) : Comp Event (Value Fn) :=
  match toRat amount with
  | none => .failed
  | some x => .done (.float (x * 1000000)) [.fixed x]

def ruleEvents (rule : Int) (matched : Bool) : List Event := if matched then [.matched rule] else []

def traceCall (rule : Int) (matched : Bool) (multiplier : Value Fn) : Comp Event (Value Fn) :=
  match toRat multiplier with
  | none => .failed
  | some x => .done (.float (if matched then x else 1)) (ruleEvents rule matched)

def apply (engine : Engine) (request : RequestInput) (f : Fn) (args : List (Value Fn)) : Comp Event (Value Fn) :=
  match f, args with
  | .tier, [.str name, value] => tierCall name value
  | .fixed, [amount] => fixedCall amount
  | .trace, [.int rule, .bool matched, multiplier] => traceCall rule matched multiplier
  | .traceInt, [.int rule, .bool matched, .int multiplier] =>
    .done (.int (if matched then multiplier else 1)) (ruleEvents rule matched)
  | .header, [.str key] => pure (.str (request.header key))
  | .param, [.str path] => pure (request.param path)
  | .u, [.str name] => pure (request.u name)
  | .has, [source, .str substr] => pure (.bool (engine.has source substr))
  | .hour, [.str tz] => pure (.int (request.timeInZone tz).hour)
  | .minute, [.str tz] => pure (.int (request.timeInZone tz).minute)
  | .weekday, [.str tz] => pure (.int (request.timeInZone tz).weekday)
  | .month, [.str tz] => pure (.int (request.timeInZone tz).month)
  | .day, [.str tz] => pure (.int (request.timeInZone tz).day)
  | .max, [a, b] => float2 Max.max a b
  | .min, [a, b] => float2 Min.min a b
  | .abs, [a] => float1 (fun x => |x|) a
  | .ceil, [a] => float1 (fun x => ⌈x⌉) a
  | .floor, [a] => float1 (fun x => ⌊x⌋) a
  | _, _ => .failed

def env (params : TokenParams) (imageCount : Int) : List (String × Value Fn) :=
  [("image_count", .float imageCount), ("p", .float params.p), ("c", .float params.c), ("len", .float params.len),
    ("cr", .float params.cr), ("cc", .float params.cc), ("cc1h", .float params.cc1h), ("cc12h", .float params.cc12h),
    ("img", .float params.img), ("img_cr", .float params.imgCR), ("img_o", .float params.imgO),
    ("ai", .float params.ai), ("ao", .float params.ao), ("tier", .func .tier), ("fixed", .func .fixed),
    ("_trace", .func .trace), ("_trace_int", .func .traceInt), ("header", .func .header), ("param", .func .param),
    ("u", .func .u), ("has", .func .has), ("hour", .func .hour), ("minute", .func .minute),
    ("weekday", .func .weekday), ("month", .func .month), ("day", .func .day), ("max", .func .max),
    ("min", .func .min), ("abs", .func .abs), ("ceil", .func .ceil), ("floor", .func .floor)]

def host (engine : Engine) (params : TokenParams) (request : RequestInput) (imageCount : Int) : Host Fn Event :=
  ⟨env params imageCount, apply engine request⟩

/-! ## Request rules -/

def requestRuleNumber : Node → Option ℚ
  | .integer value => some value
  | .float value => some value
  | _ => none

def requestProbes : List String := ["param", "header", "hour", "minute", "weekday", "month", "day"]

def usesRequestProbe (node : Node) : Bool := node.identifiers.any fun name => name ∈ requestProbes

structure RequestRuleTrace where
  cond : Node
  multiplier : ℚ
  matched : Bool

/-- A call that notes whether the rule matched; integers stay integers. -/
def traceNode (rule : Nat) (cond exp1 exp2 : Node) (multiplier : ℚ) : Node :=
  match exp1, exp2 with
  | .integer _, .integer _ => .call (.identifier "_trace_int") [.integer rule, cond, exp1]
  | _, _ => .call (.identifier "_trace") [.integer rule, cond, .float multiplier]

def visitConditional (ternary : Bool) (cond exp1 exp2 : Node) (rules : List RequestRuleTrace) :
    Node × List RequestRuleTrace :=
  if ternary = true ∧ usesRequestProbe cond = true then
    match requestRuleNumber exp1, requestRuleNumber exp2 with
    | some multiplier, some fallback =>
      if fallback = 1 then
        (traceNode rules.length cond exp1 exp2 multiplier, rules ++ [⟨cond, multiplier, false⟩])
      else (.conditional ternary cond exp1 exp2, rules)
    | _, _ => (.conditional ternary cond exp1 exp2, rules)
  else (.conditional ternary cond exp1 exp2, rules)

mutual
def patch : Node → List RequestRuleTrace → Node × List RequestRuleTrace
  | .unary op node, rules =>
    let (node, rules) := patch node rules
    (.unary op node, rules)
  | .binary op left right, rules =>
    let (left, rules) := patch left rules
    let (right, rules) := patch right rules
    (.binary op left right, rules)
  | .chain node, rules =>
    let (node, rules) := patch node rules
    (.chain node, rules)
  | .member node property optional, rules =>
    let (node, rules) := patch node rules
    let (property, rules) := patch property rules
    (.member node property optional, rules)
  | .slice node start stop, rules =>
    let (node, rules) := patch node rules
    let (start, rules) := patch start rules
    let (stop, rules) := patch stop rules
    (.slice node start stop, rules)
  | .call callee arguments, rules =>
    let (callee, rules) := patch callee rules
    let (arguments, rules) := patchList arguments rules
    (.call callee arguments, rules)
  | .builtin name arguments, rules =>
    let (arguments, rules) := patchList arguments rules
    (.builtin name arguments, rules)
  | .predicate node, rules =>
    let (node, rules) := patch node rules
    (.predicate node, rules)
  | .variableDeclarator name value expr, rules =>
    let (value, rules) := patch value rules
    let (expr, rules) := patch expr rules
    (.variableDeclarator name value expr, rules)
  | .sequence nodes, rules =>
    let (nodes, rules) := patchList nodes rules
    (.sequence nodes, rules)
  | .conditional ternary cond exp1 exp2, rules =>
    let (cond, rules) := patch cond rules
    let (exp1, rules) := patch exp1 rules
    let (exp2, rules) := patch exp2 rules
    visitConditional ternary cond exp1 exp2 rules
  | .array nodes, rules =>
    let (nodes, rules) := patchList nodes rules
    (.array nodes, rules)
  | .map pairs, rules =>
    let (pairs, rules) := patchList pairs rules
    (.map pairs, rules)
  | .pair key value, rules =>
    let (key, rules) := patch key rules
    let (value, rules) := patch value rules
    (.pair key value, rules)
  | node, rules => (node, rules)

def patchList : List Node → List RequestRuleTrace → List Node × List RequestRuleTrace
  | [], rules => ([], rules)
  | node :: nodes, rules =>
    let (node, rules) := patch node rules
    let (nodes, rules) := patchList nodes rules
    (node :: nodes, rules)
end

/-! ## Fixed prices -/

def containsPricingMarker (node : Node) : Bool := node.identifiers.any fun name => name = "tier" ∨ name = "fixed"

def isInf (x : ℚ) : Bool := 2 ^ 1024 - 2 ^ 970 ≤ |x|

def isRequestPriceMultiplier : Node → Bool
  | .identifier value => value = "image_count"
  | .conditional _ cond exp1 exp2 =>
    if usesRequestProbe cond = false ∨ containsPricingMarker cond = true then false
    else
      match requestRuleNumber exp1, requestRuleNumber exp2 with
      | some multiplier, some fallback => fallback = 1 ∧ 0 ≤ multiplier ∧ isInf multiplier = false
      | _, _ => false
  | _ => false

def literalMessage : String := "fixed price must be a finite, non-negative numeric literal with a finite v1 value"

def treeMessage : String :=
  "fixed pricing requires tier(name, fixed(amount)) leaves, conditional tiers and request multipliers; token and fixed charges cannot be combined in one leaf"

/-- A fixed price, or anything without a marker. -/
def validatePrice (price : Node) : Except String Unit :=
  match price with
  | .call (.identifier function) [argument] =>
    if function = "fixed" then
      match requestRuleNumber argument with
      | some amount => if 0 ≤ amount ∧ isInf (amount * 1000000) = false then .ok () else .error literalMessage
      | none => .error literalMessage
    else if containsPricingMarker price = true then .error treeMessage
    else .ok ()
  | price => if containsPricingMarker price = true then .error treeMessage else .ok ()

def validateFixedPricingTree : Node → Except String Unit
  | .conditional _ cond exp1 exp2 =>
    if containsPricingMarker cond = true then .error treeMessage
    else do
      validateFixedPricingTree exp1
      validateFixedPricingTree exp2
  | .binary op left right =>
    if op ≠ .mul then .error treeMessage
    else if isRequestPriceMultiplier right = true then validateFixedPricingTree left
    else if isRequestPriceMultiplier left = true then validateFixedPricingTree right
    else .error treeMessage
  | .call (.identifier callee) [name, price] =>
    if callee ≠ "tier" ∨ containsPricingMarker name = true then .error treeMessage else validatePrice price
  | _ => .error treeMessage

/-! ## Programs -/

structure CachedEntry where
  prog : Node
  usedVars : List String
  requestRules : List RequestRuleTrace
  fixedPricing : Bool

def restrictedIdentifiers : List String := ["_trace", "_trace_int"]

def isTraceName (name : String) : Bool := name ∈ restrictedIdentifiers

/-- `compileEntryFromCacheByHash` after parsing. Of the type check this is left: no variable has a name of the
environment. -/
def compileEntry (tree : Node) : Except String CachedEntry :=
  let fixedPricing := tree.identifiers.any fun name => name = "fixed"
  match if fixedPricing = true then validateFixedPricingTree tree else .ok () with
  | .error e => .error ("expr compile error: " ++ e)
  | .ok () =>
    let (prog, requestRules) := patch tree []
    match tree.identifiers.reverse.find? isTraceName with
    | some name => .error ("expr compile error: identifier \"" ++ name ++ "\" is reserved for internal use")
    | none =>
      if tree.declared.any fun name => (env ⟨0, 0, 0, 0, 0, 0, 0, 0, 0, 0, 0, 0⟩ 1).any fun e => e.1 = name then
        .error "expr compile error: cannot redeclare"
      else
        .ok
          { prog
            usedVars := prog.identifiers.filter fun name => !isTraceName name
            requestRules
            fixedPricing }

inductive BillingUnit where
  | token | request
deriving DecidableEq

structure TraceResult where
  imageCount : Option Int
  billingUnit : BillingUnit
  fixedPrice : Option ℚ
  matchedTier : String
  requestRules : List RequestRuleTrace
  cost : ℚ

def TraceResult.record (trace : TraceResult) : Event → TraceResult
  | .tier name value => { trace with matchedTier := name, cost := value }
  | .fixed amount => { trace with billingUnit := .request, fixedPrice := some amount }
  | .matched rule =>
    { trace with
      requestRules := if 0 ≤ rule then trace.requestRules.modify rule.toNat fun r => { r with matched := true }
        else trace.requestRules }

def maxImageN : Int := 128

def imageCountOf (usedVars : List String) (request : RequestInput) : Except String Int :=
  if "image_count" ∈ usedVars then
    let imageCount := request.imageCount.getD 1
    if imageCount < 1 ∨ maxImageN < imageCount then .error "image_count must be between 1 and 128" else .ok imageCount
  else .ok 1

def runProgram (engine : Engine) (entry : CachedEntry) (params : TokenParams) (request : RequestInput) :
    Except String (ℚ × TraceResult) :=
  match imageCountOf entry.usedVars request with
  | .error e => .error e
  | .ok imageCount =>
    match eval engine.language (host engine params request imageCount) entry.prog ⟨[], none⟩ >>= Flow.get with
    | .failed => .error "expr run error"
    | .done out events =>
      match toRat out with
      | none => .error "expr result is not a float64"
      | some f =>
        let trace : TraceResult := {
          imageCount := if "image_count" ∈ entry.usedVars then some imageCount else none
          billingUnit := .token
          fixedPrice := none
          matchedTier := ""
          requestRules := entry.requestRules
          cost := 0 }
        .ok (f, events.foldl TraceResult.record trace)

end NewApi.Code.Billing
