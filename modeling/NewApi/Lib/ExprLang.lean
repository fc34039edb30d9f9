import Mathlib.Data.Rat.Floor

/-!
# An expression language with host functions

Syntax trees, values and evaluation. A host gives the environment and applies its functions, and a call may record
events.
-/

namespace NewApi.Lang

/-! ## Computations -/

/-- A computation fails, or it returns and has recorded events. -/
inductive Comp (E α : Type) where
  | failed
  | done (a : α) (events : List E)

namespace Comp

variable {E α β : Type}

def lift : Option α → Comp E α
  | none => failed
  | some a => done a []

def before (es : List E) : Comp E α → Comp E α
  | failed => failed
  | done a es' => done a (es ++ es')

protected def bind (x : Comp E α) (f : α → Comp E β) : Comp E β :=
  match x with
  | failed => failed
  | done a es => (f a).before es

instance : Monad (Comp E) where
  pure a := done a []
  bind := Comp.bind

end Comp

/-! ## Values -/

inductive Value (F : Type) where
  | nil
  | bool (b : Bool)
  | int (n : Int)
  | float (x : ℚ)
  | str (s : String)
  | arr (items : List (Value F))
  | map (entries : List (String × Value F))
  | func (f : F)
  | ext (id : Nat)

/-- Every function in the value is of a kind. -/
inductive Value.All {F : Type} (P : F → Prop) : Value F → Prop where
  | nil : All P .nil
  | bool (b : Bool) : All P (.bool b)
  | int (n : Int) : All P (.int n)
  | float (x : ℚ) : All P (.float x)
  | str (s : String) : All P (.str s)
  | arr {items : List (Value F)} : (∀ v ∈ items, All P v) → All P (.arr items)
  | map {entries : List (String × Value F)} : (∀ e ∈ entries, All P e.2) → All P (.map entries)
  | func {f : F} : P f → All P (.func f)
  | ext (id : Nat) : All P (.ext id)

/-- The item at hand, its index and the accumulator. -/
structure Pointer (F : Type) where
  item : Value F
  index : Value F
  acc : Value F

def Pointer.All {F : Type} (P : F → Prop) (p : Pointer F) : Prop := p.item.All P ∧ p.index.All P ∧ p.acc.All P

/-- It asks its predicate about items and returns at last. -/
inductive Strategy (F : Type) where
  | done (result : Option (Value F))
  | ask (p : Pointer F) (next : Value F → Strategy F)

def Strategy.All {F : Type} (P : F → Prop) : Strategy F → Prop
  | done result => ∀ v, result = some v → v.All P
  | ask p next => p.All P ∧ ∀ v, v.All P → (next v).All P

def Strategy.run {F E : Type} (predicate : Pointer F → Comp E (Value F)) : Strategy F → Comp E (Value F)
  | done result => Comp.lift result
  | ask p next => do
    let v ← predicate p
    (next v).run predicate

/-! ## Syntax trees -/

inductive UnaryOp where
  | not | neg | plus
deriving DecidableEq

inductive BinaryOp where
  | or | and | eq | ne | lt | le | gt | ge | add | sub | mul | div | mod | pow | coalesce | isIn | matches | contains
  | startsWith | endsWith | range
deriving DecidableEq

inductive PointerName where
  | item | index | acc
deriving DecidableEq

/-- A bound that a slice does not have is `absent`. -/
inductive Node where
  | absent
  | nil
  | identifier (value : String)
  | integer (value : Int)
  | float (value : ℚ)
  | bool (value : Bool)
  | string (value : String)
  | unary (op : UnaryOp) (node : Node)
  | binary (op : BinaryOp) (left right : Node)
  | chain (node : Node)
  | member (node property : Node) (optional : Bool)
  | slice (node start stop : Node)
  | call (callee : Node) (arguments : List Node)
  | builtin (name : String) (arguments : List Node)
  | predicate (node : Node)
  | pointer (name : PointerName)
  | variableDeclarator (name : String) (value expr : Node)
  | sequence (nodes : List Node)
  | conditional (ternary : Bool) (cond exp1 exp2 : Node)
  | array (nodes : List Node)
  | map (pairs : List Node)
  | pair (key value : Node)

mutual
def Node.identifiers : Node → List String
  | .absent | .nil | .integer _ | .float _ | .bool _ | .string _ | .pointer _ => []
  | .identifier value => [value]
  | .unary _ node | .chain node | .predicate node => node.identifiers
  | .binary _ left right => left.identifiers ++ right.identifiers
  | .member node property _ => node.identifiers ++ property.identifiers
  | .slice node start stop => node.identifiers ++ start.identifiers ++ stop.identifiers
  | .call callee arguments => callee.identifiers ++ identifiersOf arguments
  | .builtin _ arguments => identifiersOf arguments
  | .variableDeclarator _ value expr => value.identifiers ++ expr.identifiers
  | .sequence nodes | .array nodes | .map nodes => identifiersOf nodes
  | .conditional _ cond exp1 exp2 => cond.identifiers ++ exp1.identifiers ++ exp2.identifiers
  | .pair key value => key.identifiers ++ value.identifiers

def identifiersOf : List Node → List String
  | [] => []
  | node :: nodes => node.identifiers ++ identifiersOf nodes
end

mutual
def Node.declared : Node → List String
  | .absent | .nil | .integer _ | .float _ | .bool _ | .string _ | .pointer _ | .identifier _ => []
  | .unary _ node | .chain node | .predicate node => node.declared
  | .binary _ left right => left.declared ++ right.declared
  | .member node property _ => node.declared ++ property.declared
  | .slice node start stop => node.declared ++ start.declared ++ stop.declared
  | .call callee arguments => callee.declared ++ declaredIn arguments
  | .builtin _ arguments => declaredIn arguments
  | .variableDeclarator name value expr => name :: (value.declared ++ expr.declared)
  | .sequence nodes | .array nodes | .map nodes => declaredIn nodes
  | .conditional _ cond exp1 exp2 => cond.declared ++ exp1.declared ++ exp2.declared
  | .pair key value => key.declared ++ value.declared

def declaredIn : List Node → List String
  | [] => []
  | node :: nodes => node.declared ++ declaredIn nodes
end

/-! ## Operators -/

/-- Beyond those defined below. The functions in a result are from the operands. -/
structure Language (F : Type) where
  unary : UnaryOp → Value F → Option (Value F)
  binary : BinaryOp → Value F → Value F → Option (Value F)
  equal : Value F → Value F → Bool
  member : Value F → Value F → Option (Value F)
  slice : Value F → Option (Value F) → Option (Value F) → Option (Value F)
  builtin : String → List (Value F) → Strategy F
  method : Value F → List (Value F) → Option (Value F)
  unary_all : ∀ {P op a v}, a.All P → unary op a = some v → v.All P
  binary_all : ∀ {P op a b v}, a.All P → b.All P → binary op a b = some v → v.All P
  member_all : ∀ {P a b v}, a.All P → b.All P → member a b = some v → v.All P
  slice_all : ∀ {P a start stop v}, a.All P → slice a start stop = some v → v.All P
  builtin_all : ∀ {P name args}, (∀ a ∈ args, a.All P) → (builtin name args).All P
  method_all : ∀ {P a args v}, a.All P → (∀ b ∈ args, b.All P) → method a args = some v → v.All P

section Operators

variable {F : Type}

def numeric (int : Int → Int → Int) (float : ℚ → ℚ → ℚ) : Value F → Value F → Option (Value F)
  | .int x, .int y => some (.int (int x y))
  | .int x, .float y => some (.float (float x y))
  | .float x, .int y => some (.float (float x y))
  | .float x, .float y => some (.float (float x y))
  | _, _ => none

def compare (num : ℚ → ℚ → Bool) (str : String → String → Bool) : Value F → Value F → Option (Value F)
  | .int x, .int y => some (.bool (num x y))
  | .int x, .float y => some (.bool (num x y))
  | .float x, .int y => some (.bool (num x y))
  | .float x, .float y => some (.bool (num x y))
  | .str x, .str y => some (.bool (str x y))
  | _, _ => none

/-- Values of different kinds are not equal, and numbers are one kind. -/
def equal (L : Language F) : Value F → Value F → Bool
  | .nil, .nil => true
  | .bool x, .bool y => x = y
  | .str x, .str y => x = y
  | .int x, .int y => x = y
  | .int x, .float y => (x : ℚ) = y
  | .float x, .int y => x = (y : ℚ)
  | .float x, .float y => x = y
  | .arr x, .arr y => L.equal (.arr x) (.arr y)
  | .map x, .map y => L.equal (.map x) (.map y)
  | .func x, .func y => L.equal (.func x) (.func y)
  | .ext x, .ext y => L.equal (.ext x) (.ext y)
  | _, _ => false

def toRat : Value F → Option ℚ
  | .int x => some x
  | .float x => some x
  | _ => none

/-- A quotient is no integer. By zero it is beyond the rationals. -/
def divide (a b : Value F) : Option (Value F) :=
  match toRat a, toRat b with
  | some x, some y => if y = 0 then none else some (.float (x / y))
  | _, _ => none

def remainder : Value F → Value F → Option (Value F)
  | .int x, .int y => if y = 0 then none else some (.int (x.tmod y))
  | _, _ => none

def concat : Value F → Value F → Option (Value F)
  | .str x, .str y => some (.str (x ++ y))
  | _, _ => none

def unaryValue (L : Language F) (op : UnaryOp) (a : Value F) : Option (Value F) :=
  match op, a with
  | .not, .bool b => some (.bool (!b))
  | .neg, .int x => some (.int (-x))
  | .neg, .float x => some (.float (-x))
  | .plus, .int x => some (.int x)
  | .plus, .float x => some (.float x)
  | op, a => L.unary op a

/-- The operators on numbers, texts and truth values. -/
def binaryCore (L : Language F) (op : BinaryOp) (a b : Value F) : Option (Value F) :=
  match op with
  | .eq => some (.bool (equal L a b))
  | .ne => some (.bool (!equal L a b))
  | .lt => compare (fun x y => x < y) (fun x y => x < y) a b
  | .le => compare (fun x y => x ≤ y) (fun x y => x ≤ y) a b
  | .gt => compare (fun x y => y < x) (fun x y => y < x) a b
  | .ge => compare (fun x y => y ≤ x) (fun x y => y ≤ x) a b
  | .add => (numeric (· + ·) (· + ·) a b).or (concat a b)
  | .sub => numeric (· - ·) (· - ·) a b
  | .mul => numeric (· * ·) (· * ·) a b
  | .div => divide a b
  | .mod => remainder a b
  | _ => none

def binaryValue (L : Language F) (op : BinaryOp) (a b : Value F) : Option (Value F) :=
  (binaryCore L op a b).or (L.binary op a b)

/-- A key that is missing is nil; a negative index counts from the end. -/
def memberValue (L : Language F) (a key : Value F) : Option (Value F) :=
  match a, key with
  | .map entries, .str k => some ((entries.lookup k).getD .nil)
  | .arr items, .int i => if 0 ≤ i then items[i.toNat]? else items.reverse[(-i - 1).toNat]?
  | a, key => L.member a key

end Operators

/-! ## Evaluation -/

structure Host (F E : Type) where
  entries : List (String × Value F)
  apply : F → List (Value F) → Comp E (Value F)

structure Scope (F : Type) where
  vars : List (String × Value F)
  pointer : Option (Pointer F)

/-- What an optional chain skips is nil at its end. -/
inductive Flow (F : Type) where
  | value (v : Value F)
  | skipped

section Combinators

variable {F E : Type}

def Flow.get : Flow F → Comp E (Value F)
  | .value v => pure v
  | .skipped => Comp.failed

def shortCircuit (stop : Bool) (left right : Comp E (Value F)) : Comp E (Value F) := do
  match ← left with
  | .bool a =>
    if a = stop then pure (.bool a)
    else
      match ← right with
      | .bool b => pure (.bool b)
      | _ => Comp.failed
  | _ => Comp.failed

def coalesce (left right : Comp E (Value F)) : Comp E (Value F) := do
  match ← left with
  | .nil => right
  | v => pure v

def binaryComp (L : Language F) (op : BinaryOp) (left right : Comp E (Value F)) : Comp E (Value F) :=
  match op with
  | .and => shortCircuit false left right
  | .or => shortCircuit true left right
  | .coalesce => coalesce left right
  | op => do
    let a ← left
    let b ← right
    Comp.lift (binaryValue L op a b)

def chainComp (node : Comp E (Flow F)) : Comp E (Flow F) := do
  match ← node with
  | .skipped => pure (.value .nil)
  | .value v => pure (.value v)

def memberComp (L : Language F) (optional : Bool) (node : Comp E (Flow F)) (property : Comp E (Value F)) :
    Comp E (Flow F) := do
  match ← node with
  | .skipped => pure .skipped
  | .value v =>
    match v, optional with
    | .nil, true => pure .skipped
    | v, _ => do
      let key ← property
      .value <$> Comp.lift (memberValue L v key)

def boundComp (node : Node) (bound : Comp E (Value F)) : Comp E (Option (Value F)) :=
  match node with
  | .absent => pure none
  | _ => some <$> bound

def sliceComp (L : Language F) (node : Comp E (Flow F)) (start stop : Comp E (Option (Value F))) :
    Comp E (Flow F) := do
  match ← node with
  | .skipped => pure .skipped
  | .value v => do
    let a ← start
    let b ← stop
    .value <$> Comp.lift (L.slice v a b)

def callComp (L : Language F) (H : Host F E) (args : Comp E (List (Value F))) (callee : Comp E (Flow F)) :
    Comp E (Flow F) := do
  let args ← args
  match ← callee with
  | .skipped => pure .skipped
  | .value (.func f) => .value <$> H.apply f args
  | .value v => .value <$> Comp.lift (L.method v args)

def conditionalComp (cond : Comp E (Value F)) (exp1 exp2 : Comp E (Flow F)) : Comp E (Flow F) := do
  match ← cond with
  | .bool true => exp1
  | .bool false => exp2
  | _ => Comp.failed

def consComp (value : Comp E (Value F)) (values : Comp E (List (Value F))) : Comp E (List (Value F)) := do
  let v ← value
  let vs ← values
  pure (v :: vs)

def pairComp (key value : Comp E (Value F)) (entries : Comp E (List (String × Value F))) :
    Comp E (List (String × Value F)) := do
  match ← key with
  | .str k => do
    let v ← value
    let es ← entries
    pure ((k, v) :: es)
  | _ => Comp.failed

end Combinators

section Eval

variable {F E : Type}

def Host.resolve (H : Host F E) (name : String) : Option (Value F) :=
  if name = "$env" then some (.map H.entries) else H.entries.lookup name

/-- Variables come first. `$env` is the environment itself. -/
def Scope.resolve (scope : Scope F) (H : Host F E) (name : String) : Option (Value F) :=
  match scope.vars.lookup name with
  | some v => some v
  | none => H.resolve name

def Scope.point (scope : Scope F) (name : PointerName) : Option (Value F) :=
  scope.pointer.map fun p =>
    match name with
    | .item => p.item
    | .index => p.index
    | .acc => p.acc

mutual
def eval (L : Language F) (H : Host F E) : Node → Scope F → Comp E (Flow F)
  | .absent, _ => Comp.failed
  | .nil, _ => pure (.value .nil)
  | .identifier name, scope => .value <$> Comp.lift (scope.resolve H name)
  | .integer n, _ => pure (.value (.int n))
  | .float x, _ => pure (.value (.float x))
  | .bool b, _ => pure (.value (.bool b))
  | .string s, _ => pure (.value (.str s))
  | .unary op node, scope => do
    let v ← eval L H node scope >>= Flow.get
    .value <$> Comp.lift (unaryValue L op v)
  | .binary op left right, scope =>
    .value <$> binaryComp L op (eval L H left scope >>= Flow.get) (eval L H right scope >>= Flow.get)
  | .chain node, scope => chainComp (eval L H node scope)
  | .member node property optional, scope =>
    memberComp L optional (eval L H node scope) (eval L H property scope >>= Flow.get)
  | .slice node start stop, scope =>
    sliceComp L (eval L H node scope) (boundComp start (eval L H start scope >>= Flow.get))
      (boundComp stop (eval L H stop scope >>= Flow.get))
  | .call callee arguments, scope => callComp L H (evalArgs L H arguments scope) (eval L H callee scope)
  | .builtin name arguments, scope => do
    let args ← evalArgs L H arguments scope
    .value <$> (L.builtin name args).run fun p => evalPredicate L H arguments { scope with pointer := some p }
  | .predicate _, _ => Comp.failed
  | .pointer name, scope => .value <$> Comp.lift (scope.point name)
  | .variableDeclarator name value expr, scope => do
    let v ← eval L H value scope >>= Flow.get
    eval L H expr { scope with vars := (name, v) :: scope.vars }
  | .sequence nodes, scope => do
    let values ← evalArgs L H nodes scope
    .value <$> Comp.lift values.getLast?
  | .conditional _ cond exp1 exp2, scope =>
    conditionalComp (eval L H cond scope >>= Flow.get) (eval L H exp1 scope) (eval L H exp2 scope)
  | .array nodes, scope => do
    let items ← evalArgs L H nodes scope
    pure (.value (.arr items))
  | .map pairs, scope => do
    let entries ← evalPairs L H pairs scope
    pure (.value (.map entries))
  | .pair _ _, _ => Comp.failed

def evalArgs (L : Language F) (H : Host F E) : List Node → Scope F → Comp E (List (Value F))
  | [], _ => pure []
  | .predicate _ :: nodes, scope => evalArgs L H nodes scope
  | node :: nodes, scope => consComp (eval L H node scope >>= Flow.get) (evalArgs L H nodes scope)

def evalPredicate (L : Language F) (H : Host F E) : List Node → Scope F → Comp E (Value F)
  | [], _ => Comp.failed
  | .predicate node :: _, scope => eval L H node scope >>= Flow.get
  | _ :: nodes, scope => evalPredicate L H nodes scope

def evalPairs (L : Language F) (H : Host F E) : List Node → Scope F → Comp E (List (String × Value F))
  | [], _ => pure []
  | .pair key value :: pairs, scope =>
    pairComp (eval L H key scope >>= Flow.get) (eval L H value scope >>= Flow.get) (evalPairs L H pairs scope)
  | _ :: _, _ => Comp.failed
end

end Eval

end NewApi.Lang
