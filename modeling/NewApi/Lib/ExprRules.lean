import NewApi.Lib.ExprLang

/-!
# Rules for evaluations

If a kind of functions is closed under calls and every name of a tree stands for such values, an evaluation returns such
a value and records only what these functions do.
-/

namespace NewApi.Lang

namespace Comp

variable {E α β : Type}

theorem before_before (es es' : List E) (x : Comp E α) : (x.before es').before es = x.before (es ++ es') := by
  cases x with
  | failed => rfl
  | done a es'' => exact congrArg (done a) (List.append_assoc es es' es'').symm

theorem bind_before (es : List E) (x : Comp E α) (f : α → Comp E β) : (x.before es).bind f = (x.bind f).before es := by
  cases x with
  | failed => rfl
  | done a es' => exact (before_before es es' (f a)).symm

instance : LawfulMonad (Comp E) := LawfulMonad.mk' _
  (by
    intro α x
    cases x with
    | failed => rfl
    | done a es => exact congrArg (done a) (List.append_nil es))
  (by
    intro α β a f
    change (f a).before [] = f a
    cases f a <;> rfl)
  (by
    intro α β γ x f g
    cases x with
    | failed => rfl
    | done a es => exact bind_before es (f a) g)

theorem bind_eq_done {x : Comp E α} {f : α → Comp E β} {b : β} {es : List E} :
    x >>= f = done b es ↔ ∃ a es₁ es₂, x = done a es₁ ∧ f a = done b es₂ ∧ es = es₁ ++ es₂ := by
  change x.bind f = done b es ↔ _
  constructor
  · intro h
    cases x with
    | failed => cases h
    | done a es₁ =>
      change (f a).before es₁ = done b es at h
      cases hf : f a with
      | failed =>
        rw [hf] at h
        cases h
      | done b' es₂ =>
        rw [hf] at h
        cases h
        exact ⟨a, es₁, es₂, rfl, hf, rfl⟩
  · rintro ⟨a, es₁, _, rfl, hf, rfl⟩
    change (f a).before es₁ = _
    rw [hf]
    rfl

def Sat (x : Comp E α) (P : α → Prop) (Q : E → Prop) : Prop := ∀ a es, x = done a es → P a ∧ ∀ e ∈ es, Q e

variable {P : α → Prop} {R : β → Prop} {Q : E → Prop} {x : Comp E α}

theorem Sat.pure {a : α} (h : P a) : (Pure.pure a : Comp E α).Sat P Q := by
  rintro _ _ ⟨⟩
  exact ⟨h, fun _ he => absurd he List.not_mem_nil⟩

theorem Sat.failed : (Comp.failed : Comp E α).Sat P Q := by
  rintro _ _ ⟨⟩

theorem Sat.lift {o : Option α} (h : ∀ a, o = some a → P a) : (Comp.lift o : Comp E α).Sat P Q := by
  cases o with
  | none => exact Sat.failed
  | some a => exact Sat.pure (h a rfl)

theorem Sat.bind {f : α → Comp E β} (hx : x.Sat P Q) (hf : ∀ a, P a → (f a).Sat R Q) : (x >>= f).Sat R Q := by
  intro b es h
  obtain ⟨a, es₁, es₂, hxa, hfa, rfl⟩ := bind_eq_done.mp h
  obtain ⟨ha, hes₁⟩ := hx a es₁ hxa
  obtain ⟨hb, hes₂⟩ := hf a ha b es₂ hfa
  refine ⟨hb, fun e he => ?_⟩
  rcases List.mem_append.mp he with he | he
  · exact hes₁ e he
  · exact hes₂ e he

theorem Sat.map {f : α → β} (hx : x.Sat P Q) (hf : ∀ a, P a → R (f a)) : (f <$> x).Sat R Q := by
  rw [map_eq_pure_bind]
  exact hx.bind fun a ha => Sat.pure (hf a ha)

/-! ## Events that do not count -/

variable {p : E → Bool} {y : Comp E α}

def erase (p : E → Bool) : Comp E α → Comp E α
  | .failed => .failed
  | .done a es => .done a (es.filter p)

theorem erase_before (es : List E) (x : Comp E α) : (x.before es).erase p = (x.erase p).before (es.filter p) := by
  cases x with
  | failed => rfl
  | done a es' => exact congrArg (Comp.done a) (List.filter_append es es')

theorem erase_bind (x : Comp E α) (f : α → Comp E β) : (x >>= f).erase p = x.erase p >>= fun a => (f a).erase p := by
  cases x with
  | failed => rfl
  | done a es => exact erase_before es (f a)

/-- What satisfies the conditions and becomes the other computation where only some events count. -/
def Tracks (p : E → Bool) (P : α → Prop) (Q : E → Prop) (x y : Comp E α) : Prop := x.erase p = y ∧ x.Sat P Q

theorem Tracks.pure {a : α} (h : P a) : Tracks p P Q (Pure.pure a) (Pure.pure a) := ⟨rfl, Sat.pure h⟩

theorem Tracks.failed : Tracks p P Q (Comp.failed : Comp E α) Comp.failed := ⟨rfl, Sat.failed⟩

theorem Tracks.lift {o : Option α} (h : ∀ a, o = some a → P a) : Tracks p P Q (Comp.lift o) (Comp.lift o) :=
  ⟨by cases o <;> rfl, Sat.lift h⟩

theorem Tracks.bind {f g : α → Comp E β} (hx : Tracks p P Q x y) (hf : ∀ a, P a → Tracks p R Q (f a) (g a)) :
    Tracks p R Q (x >>= f) (y >>= g) := by
  obtain ⟨rfl, hsat⟩ := hx
  refine ⟨?_, hsat.bind fun a ha => (hf a ha).2⟩
  rw [erase_bind]
  cases x with
  | failed => rfl
  | done a es => exact congrArg (before (es.filter p)) (hf a (hsat a es rfl).1).1

theorem Tracks.map {f : α → β} (hx : Tracks p P Q x y) (hf : ∀ a, P a → R (f a)) : Tracks p R Q (f <$> x) (f <$> y) := by
  rw [map_eq_pure_bind, map_eq_pure_bind]
  exact hx.bind fun a ha => Tracks.pure (hf a ha)

end Comp

open Comp

section Operators

variable {F : Type} {P : F → Prop} {L : Language F} {a b v : Value F}

theorem numeric_all {int : Int → Int → Int} {float : ℚ → ℚ → ℚ} (h : numeric int float a b = some v) : v.All P := by
  unfold numeric at h
  split at h <;> cases h <;> constructor

theorem compare_all {num : ℚ → ℚ → Bool} {str : String → String → Bool} (h : compare num str a b = some v) :
    v.All P := by
  unfold compare at h
  split at h <;> cases h <;> constructor

theorem unaryValue_all {op : UnaryOp} (ha : a.All P) (h : unaryValue L op a = some v) : v.All P := by
  unfold unaryValue at h
  split at h
  case h_6 => exact L.unary_all ha h
  all_goals cases h; constructor

theorem binaryCore_all {op : BinaryOp} (h : binaryCore L op a b = some v) : v.All P := by
  unfold binaryCore at h
  split at h
  case h_7 =>
    rcases hn : numeric (· + ·) (· + ·) a b with _ | w
    · rw [hn, Option.none_or] at h
      unfold concat at h
      split at h <;> cases h
      constructor
    · rw [hn, Option.some_or] at h
      cases h
      exact numeric_all hn
  case h_10 =>
    unfold divide at h
    split at h
    · split at h <;> cases h
      constructor
    · cases h
  case h_11 =>
    unfold remainder at h
    split at h
    · split at h <;> cases h
      constructor
    · cases h
  case h_12 => cases h
  case h_1 | h_2 => cases h; constructor
  case h_3 | h_4 | h_5 | h_6 => exact compare_all h
  all_goals exact numeric_all h

theorem binaryValue_all {op : BinaryOp} (ha : a.All P) (hb : b.All P) (h : binaryValue L op a b = some v) : v.All P := by
  unfold binaryValue at h
  rcases hcore : binaryCore L op a b with _ | w
  · rw [hcore, Option.none_or] at h
    exact L.binary_all ha hb h
  · rw [hcore, Option.some_or] at h
    cases h
    exact binaryCore_all hcore

theorem mem_of_lookup {entries : List (String × Value F)} {name : String} (h : entries.lookup name = some v) :
    (name, v) ∈ entries := by
  induction entries with
  | nil => cases h
  | cons e entries ih =>
    rw [List.lookup_cons] at h
    split at h
    · rename_i heq
      cases h
      rw [beq_iff_eq.mp heq]
      exact List.mem_cons_self
    · exact List.mem_cons_of_mem _ (ih h)

theorem lookup_all {entries : List (String × Value F)} {name : String} (hall : ∀ e ∈ entries, e.2.All P)
    (h : entries.lookup name = some v) : v.All P := hall _ (mem_of_lookup h)

theorem memberValue_all (ha : a.All P) (hb : b.All P) (h : memberValue L a b = some v) : v.All P := by
  unfold memberValue at h
  split at h
  · rename_i entries k
    cases ha with
    | map hall =>
      cases hk : entries.lookup k with
      | none =>
        rw [hk] at h
        cases h
        constructor
      | some =>
        rw [hk] at h
        cases h
        exact lookup_all hall hk
  · cases ha with
    | arr hall =>
      split at h
      · exact hall v (List.mem_of_getElem? h)
      · exact hall v (List.mem_reverse.mp (List.mem_of_getElem? h))
  · exact L.member_all ha hb h

end Operators

section Combinators

variable {F E : Type} {p : E → Bool} {P : F → Prop} {Q : E → Prop} {L : Language F} {H : Host F E}
  {left left' right right' : Comp E (Value F)} {node node' : Comp E (Flow F)}

def Flow.All (P : F → Prop) : Flow F → Prop
  | .value v => v.All P
  | .skipped => True

theorem erase_get (x : Comp E (Flow F)) : (x >>= Flow.get).erase p = x.erase p >>= Flow.get := by
  rw [erase_bind]
  congr 1
  funext flow
  cases flow <;> rfl

theorem get_tracks (h : Tracks p (Flow.All P) Q node node') :
    Tracks p (Value.All P) Q (node >>= Flow.get) (node' >>= Flow.get) := by
  refine h.bind fun flow hflow => ?_
  cases flow with
  | value => exact Tracks.pure hflow
  | skipped => exact Tracks.failed

section Operands

variable (hl : Tracks p (Value.All P) Q left left') (hr : Tracks p (Value.All P) Q right right')

include hl hr

theorem shortCircuit_tracks {stop : Bool} :
    Tracks p (Value.All P) Q (shortCircuit stop left right) (shortCircuit stop left' right') := by
  refine hl.bind fun a _ => ?_
  cases a with
  | bool a =>
    dsimp only
    split
    · exact Tracks.pure (.bool a)
    refine hr.bind fun b _ => ?_
    cases b with
    | bool b => exact Tracks.pure (.bool b)
    | _ => exact Tracks.failed
  | _ => exact Tracks.failed

theorem binaryComp_tracks {op : BinaryOp} :
    Tracks p (Value.All P) Q (binaryComp L op left right) (binaryComp L op left' right') := by
  unfold binaryComp
  split
  · exact shortCircuit_tracks hl hr
  · exact shortCircuit_tracks hl hr
  · refine hl.bind fun a ha => ?_
    cases a with
    | nil => exact hr
    | _ => exact Tracks.pure ha
  · exact hl.bind fun a ha => hr.bind fun b hb => Tracks.lift fun v hv => binaryValue_all ha hb hv

theorem pairComp_tracks {entries entries' : Comp E (List (String × Value F))}
    (hes : Tracks p (fun es => ∀ e ∈ es, e.2.All P) Q entries entries') :
    Tracks p (fun es => ∀ e ∈ es, e.2.All P) Q (pairComp left right entries) (pairComp left' right' entries') := by
  refine hl.bind fun k _ => ?_
  split
  · exact hr.bind fun v hv => hes.bind fun es hes => Tracks.pure (List.forall_mem_cons.mpr ⟨hv, hes⟩)
  · exact Tracks.failed

end Operands

theorem chainComp_tracks (h : Tracks p (Flow.All P) Q node node') :
    Tracks p (Flow.All P) Q (chainComp node) (chainComp node') := by
  refine h.bind fun flow hflow => ?_
  cases flow with
  | value => exact Tracks.pure hflow
  | skipped => exact Tracks.pure .nil

theorem memberComp_tracks {optional : Bool} (h : Tracks p (Flow.All P) Q node node')
    (hp : Tracks p (Value.All P) Q right right') :
    Tracks p (Flow.All P) Q (memberComp L optional node right) (memberComp L optional node' right') := by
  refine h.bind fun flow hflow => ?_
  cases flow with
  | skipped => exact Tracks.pure trivial
  | value =>
    dsimp only
    split
    · exact Tracks.pure trivial
    · exact hp.bind fun key hkey => (Tracks.lift fun w hw => memberValue_all hflow hkey hw).map fun w hw => hw

theorem boundComp_tracks {bound : Node} (h : Tracks p (Value.All P) Q right right') :
    Tracks p (fun _ => True) Q (boundComp bound right) (boundComp bound right') := by
  unfold boundComp
  split
  · exact Tracks.pure trivial
  · exact h.map fun _ _ => trivial

theorem sliceComp_tracks {start start' stop stop' : Comp E (Option (Value F))} (h : Tracks p (Flow.All P) Q node node')
    (hstart : Tracks p (fun _ => True) Q start start') (hstop : Tracks p (fun _ => True) Q stop stop') :
    Tracks p (Flow.All P) Q (sliceComp L node start stop) (sliceComp L node' start' stop') := by
  refine h.bind fun flow hflow => ?_
  cases flow with
  | skipped => exact Tracks.pure trivial
  | value =>
    refine hstart.bind fun a _ => hstop.bind fun b _ => ?_
    exact (Tracks.lift fun w hw => L.slice_all hflow hw).map fun w hw => hw

theorem conditionalComp_tracks {exp1 exp1' exp2 exp2' : Comp E (Flow F)} (h : Tracks p (Value.All P) Q left left')
    (h1 : Tracks p (Flow.All P) Q exp1 exp1') (h2 : Tracks p (Flow.All P) Q exp2 exp2') :
    Tracks p (Flow.All P) Q (conditionalComp left exp1 exp2) (conditionalComp left' exp1' exp2') := by
  refine h.bind fun v _ => ?_
  split
  · exact h1
  · exact h2
  · exact Tracks.failed

theorem consComp_tracks {values values' : Comp E (List (Value F))} (hv : Tracks p (Value.All P) Q left left')
    (hvs : Tracks p (fun vs => ∀ v ∈ vs, v.All P) Q values values') :
    Tracks p (fun vs => ∀ v ∈ vs, v.All P) Q (consComp left values) (consComp left' values') :=
  hv.bind fun _ hv => hvs.bind fun _ hvs => Tracks.pure (List.forall_mem_cons.mpr ⟨hv, hvs⟩)

theorem run_tracks {predicate predicate' : Pointer F → Comp E (Value F)} {s : Strategy F} (hs : s.All P)
    (hpred : ∀ q : Pointer F, q.All P → Tracks p (Value.All P) Q (predicate q) (predicate' q)) :
    Tracks p (Value.All P) Q (s.run predicate) (s.run predicate') := by
  induction s with
  | done => exact Tracks.lift hs
  | ask q next ih => exact (hpred q hs.1).bind fun v hv => ih v (hs.2 v hv)

/-- Functions of a kind return such values and record only certain events. -/
def Host.Keeps (H : Host F E) (P : F → Prop) (Q : E → Prop) : Prop :=
  ∀ f args, P f → (∀ a ∈ args, Value.All P a) → (H.apply f args).Sat (Value.All P) Q

def Host.erase (p : E → Bool) (H : Host F E) : Host F E := ⟨H.entries, fun f args => (H.apply f args).erase p⟩

theorem callComp_tracks {args args' : Comp E (List (Value F))} (hkeeps : H.Keeps P Q)
    (hargs : Tracks p (fun vs => ∀ v ∈ vs, v.All P) Q args args') (h : Tracks p (Flow.All P) Q node node') :
    Tracks p (Flow.All P) Q (callComp L H args node) (callComp L (H.erase p) args' node') := by
  refine hargs.bind fun vs hvs => h.bind fun flow hflow => ?_
  split
  · exact Tracks.pure trivial
  · rename_i f
    cases hflow with
    | func hf =>
      have hcall : Tracks p (Value.All P) Q (H.apply f vs) ((H.erase p).apply f vs) := ⟨rfl, hkeeps f vs hf hvs⟩
      exact hcall.map fun w hw => hw
  · exact (Tracks.lift fun w hw => L.method_all hflow hvs hw).map fun w hw => hw

end Combinators

section Eval

variable {F E : Type} {p : E → Bool} {P : F → Prop} {Q : E → Prop} {L : Language F} {H : Host F E}

structure Scope.All (P : F → Prop) (scope : Scope F) : Prop where
  vars : ∀ e ∈ scope.vars, e.2.All P
  pointer : ∀ p, scope.pointer = some p → p.All P

theorem Scope.All.at {scope : Scope F} {p : Pointer F} (h : scope.All P) (hp : p.All P) :
    Scope.All P { scope with pointer := some p } :=
  ⟨h.vars, fun q hq => by cases hq; exact hp⟩

theorem Scope.All.point {scope : Scope F} {name : PointerName} {v : Value F} (h : scope.All P)
    (hv : scope.point name = some v) : v.All P := by
  obtain ⟨p, hp, rfl⟩ := Option.map_eq_some_iff.mp hv
  obtain ⟨hitem, hindex, hacc⟩ := h.pointer p hp
  cases name
  · exact hitem
  · exact hindex
  · exact hacc

def Host.Names (H : Host F E) (P : F → Prop) (names : List String) : Prop :=
  ∀ name ∈ names, ∀ v, H.resolve name = some v → v.All P

theorem Host.Names.left {xs ys : List String} (h : H.Names P (xs ++ ys)) : H.Names P xs :=
  fun name hname => h name (List.mem_append_left ys hname)

theorem Host.Names.right {xs ys : List String} (h : H.Names P (xs ++ ys)) : H.Names P ys :=
  fun name hname => h name (List.mem_append_right xs hname)

theorem resolve_all {scope : Scope F} {name : String} {v : Value F} (hscope : scope.All P) (hname : H.Names P [name])
    (hv : scope.resolve H name = some v) : v.All P := by
  unfold Scope.resolve at hv
  split at hv
  · rename_i w hw
    cases hv
    exact lookup_all hscope.vars hw
  · exact hname name List.mem_cons_self v hv

def Node.isPredicate : Node → Bool
  | .predicate _ => true
  | _ => false

section

variable {node : Node} (hnode : node.isPredicate = false) (nodes : List Node) (scope : Scope F)
include hnode

theorem evalArgs_cons :
    evalArgs L H (node :: nodes) scope = consComp (eval L H node scope >>= Flow.get) (evalArgs L H nodes scope) := by
  cases node with
  | predicate => cases hnode
  | _ => rfl

theorem evalPredicate_cons : evalPredicate L H (node :: nodes) scope = evalPredicate L H nodes scope := by
  cases node with
  | predicate => cases hnode
  | _ => rfl

end

def Node.isPair : Node → Bool
  | .pair _ _ => true
  | _ => false

theorem evalPairs_other {node : Node} (hnode : node.isPair = false) (pairs : List Node) (scope : Scope F) :
    evalPairs L H (node :: pairs) scope = .failed := by
  cases node with
  | pair => cases hnode
  | _ => rfl

mutual
theorem eval_tracks (hkeeps : H.Keeps P Q) (node : Node) {scope : Scope F} (hnames : H.Names P node.identifiers)
    (hscope : scope.All P) : Tracks p (Flow.All P) Q (eval L H node scope) (eval L (H.erase p) node scope) :=
  match node, hnames with
  | .absent, _ => Tracks.failed
  | .nil, _ => Tracks.pure .nil
  | .identifier name, hnames =>
    (Tracks.lift fun v hv => resolve_all hscope hnames hv).map fun v hv => hv
  | .integer n, _ => Tracks.pure (.int n)
  | .float x, _ => Tracks.pure (.float x)
  | .bool b, _ => Tracks.pure (.bool b)
  | .string s, _ => Tracks.pure (.str s)
  | .unary op node, hnames =>
    (get_tracks (eval_tracks hkeeps node hnames hscope)).bind fun v hv =>
      (Tracks.lift fun w hw => unaryValue_all hv hw).map fun w hw => hw
  | .binary op left right, hnames =>
    (binaryComp_tracks (get_tracks (eval_tracks hkeeps left hnames.left hscope))
      (get_tracks (eval_tracks hkeeps right hnames.right hscope))).map fun v hv => hv
  | .chain node, hnames => chainComp_tracks (eval_tracks hkeeps node hnames hscope)
  | .member node property _, hnames =>
    memberComp_tracks (eval_tracks hkeeps node hnames.left hscope)
      (get_tracks (eval_tracks hkeeps property hnames.right hscope))
  | .slice node start stop, hnames =>
    sliceComp_tracks (eval_tracks hkeeps node hnames.left.left hscope)
      (boundComp_tracks (get_tracks (eval_tracks hkeeps start hnames.left.right hscope)))
      (boundComp_tracks (get_tracks (eval_tracks hkeeps stop hnames.right hscope)))
  | .call callee arguments, hnames =>
    callComp_tracks hkeeps (evalArgs_tracks hkeeps arguments hnames.right hscope)
      (eval_tracks hkeeps callee hnames.left hscope)
  | .builtin name arguments, hnames =>
    (evalArgs_tracks hkeeps arguments hnames hscope).bind fun args hargs =>
      (run_tracks (L.builtin_all hargs) fun p hp =>
        evalPredicate_tracks hkeeps arguments hnames (hscope.at hp)).map fun v hv => hv
  | .predicate _, _ => Tracks.failed
  | .pointer name, _ => (Tracks.lift fun v hv => hscope.point hv).map fun v hv => hv
  | .variableDeclarator name value expr, hnames =>
    (get_tracks (eval_tracks hkeeps value hnames.left hscope)).bind fun v hv =>
      eval_tracks hkeeps expr hnames.right
        ⟨fun e he => by
          rcases List.mem_cons.mp he with rfl | he
          · exact hv
          · exact hscope.vars e he, hscope.pointer⟩
  | .sequence nodes, hnames =>
    (evalArgs_tracks hkeeps nodes hnames hscope).bind fun vs hvs =>
      (Tracks.lift fun v hv => hvs v (List.mem_of_getLast? hv)).map fun v hv => hv
  | .conditional _ cond exp1 exp2, hnames =>
    conditionalComp_tracks (get_tracks (eval_tracks hkeeps cond hnames.left.left hscope))
      (eval_tracks hkeeps exp1 hnames.left.right hscope) (eval_tracks hkeeps exp2 hnames.right hscope)
  | .array nodes, hnames =>
    (evalArgs_tracks hkeeps nodes hnames hscope).bind fun vs hvs => Tracks.pure (.arr hvs)
  | .map pairs, hnames =>
    (evalPairs_tracks hkeeps pairs hnames hscope).bind fun es hes => Tracks.pure (.map hes)
  | .pair _ _, _ => Tracks.failed

theorem evalArgs_tracks (hkeeps : H.Keeps P Q) (nodes : List Node) {scope : Scope F}
    (hnames : H.Names P (identifiersOf nodes)) (hscope : scope.All P) :
    Tracks p (fun vs => ∀ v ∈ vs, v.All P) Q (evalArgs L H nodes scope) (evalArgs L (H.erase p) nodes scope) :=
  match nodes, hnames with
  | [], _ => Tracks.pure fun _ hv => absurd hv List.not_mem_nil
  | node :: nodes, hnames => by
    have hnode := get_tracks (eval_tracks hkeeps node hnames.left hscope)
    have hrest := evalArgs_tracks hkeeps nodes hnames.right hscope
    cases node with
    | predicate => exact hrest
    | _ => exact consComp_tracks hnode hrest

theorem evalPredicate_tracks (hkeeps : H.Keeps P Q) (nodes : List Node) {scope : Scope F}
    (hnames : H.Names P (identifiersOf nodes)) (hscope : scope.All P) :
    Tracks p (Value.All P) Q (evalPredicate L H nodes scope) (evalPredicate L (H.erase p) nodes scope) :=
  match nodes, hnames with
  | [], _ => Tracks.failed
  | node :: nodes, hnames => by
    have hrest := evalPredicate_tracks hkeeps nodes hnames.right hscope
    cases node with
    | predicate node => exact get_tracks (eval_tracks hkeeps node hnames.left hscope)
    | _ => exact hrest

theorem evalPairs_tracks (hkeeps : H.Keeps P Q) (pairs : List Node) {scope : Scope F}
    (hnames : H.Names P (identifiersOf pairs)) (hscope : scope.All P) :
    Tracks p (fun es => ∀ e ∈ es, e.2.All P) Q (evalPairs L H pairs scope) (evalPairs L (H.erase p) pairs scope) :=
  match pairs, hnames with
  | [], _ => Tracks.pure fun _ he => absurd he List.not_mem_nil
  | node :: pairs, hnames => by
    cases node with
    | pair key value =>
      exact pairComp_tracks (get_tracks (eval_tracks hkeeps key hnames.left.left hscope))
        (get_tracks (eval_tracks hkeeps value hnames.left.right hscope))
        (evalPairs_tracks hkeeps pairs hnames.right hscope)
    | _ => exact Tracks.failed
end

theorem eval_sat (hkeeps : H.Keeps P Q) {node : Node} {scope : Scope F} (hnames : H.Names P node.identifiers)
    (hscope : scope.All P) : (eval L H node scope >>= Flow.get).Sat (Value.All P) Q :=
  (get_tracks (eval_tracks (p := fun _ => true) hkeeps node hnames hscope)).2

theorem Value.all_true : ∀ v : Value F, v.All fun _ => True
  | .nil => .nil
  | .bool b => .bool b
  | .int n => .int n
  | .float x => .float x
  | .str s => .str s
  | .arr _ => .arr fun v _ => v.all_true
  | .map _ => .map fun e he => by
    have hentry := List.sizeOf_lt_of_mem he
    have hvalue : sizeOf e = 1 + sizeOf e.1 + sizeOf e.2 := rfl
    exact e.2.all_true
  | .func _ => .func trivial
  | .ext id => .ext id

/-- Events do not lead back into an evaluation. -/
theorem eval_erase (H : Host F E) (node : Node) (scope : Scope F) :
    (eval L H node scope).erase p = eval L (H.erase p) node scope := by
  have hkeeps : H.Keeps (fun _ => True) fun _ => True := fun _ _ _ _ v _ _ => ⟨v.all_true, fun _ _ => trivial⟩
  exact (eval_tracks hkeeps node (fun _ _ v _ => v.all_true)
    ⟨fun e _ => e.2.all_true, fun q _ => ⟨q.item.all_true, q.index.all_true, q.acc.all_true⟩⟩).1

end Eval

/-! ## What a result comes from -/

section Inversion

variable {F E : Type} {L : Language F} {H : Host F E} {v : Value F} {es : List E}

theorem value_get (x : Comp E (Value F)) : (Flow.value <$> x) >>= Flow.get = x := by
  rw [map_eq_pure_bind, bind_assoc]
  simp only [pure_bind, Flow.get, bind_pure]

theorem conditional_eq_done {cond : Comp E (Value F)} {exp1 exp2 : Comp E (Flow F)}
    (h : conditionalComp cond exp1 exp2 >>= Flow.get = .done v es) :
    ∃ b es₁ es₂, cond = .done (.bool b) es₁ ∧ (if b then exp1 else exp2) >>= Flow.get = .done v es₂ ∧
      es = es₁ ++ es₂ := by
  unfold conditionalComp at h
  rw [bind_assoc] at h
  obtain ⟨a, es₁, es₂, hcond, hrest, rfl⟩ := bind_eq_done.mp h
  split at hrest
  · exact ⟨true, es₁, es₂, hcond, hrest, rfl⟩
  · exact ⟨false, es₁, es₂, hcond, hrest, rfl⟩
  · cases hrest

theorem cons_eq_done {value : Comp E (Value F)} {values : Comp E (List (Value F))} {vs : List (Value F)}
    (h : consComp value values = .done vs es) :
    ∃ v vs' es₁ es₂, value = .done v es₁ ∧ values = .done vs' es₂ ∧ vs = v :: vs' ∧ es = es₁ ++ es₂ := by
  obtain ⟨v, es₁, _, hv, hrest, rfl⟩ := bind_eq_done.mp h
  obtain ⟨vs', es₂, _, hvs, hpure, rfl⟩ := bind_eq_done.mp hrest
  cases hpure
  exact ⟨v, vs', es₁, es₂, hv, hvs, rfl, by rw [List.append_nil]⟩

theorem evalArgs_length_le {scope : Scope F} : ∀ (nodes : List Node) {vs : List (Value F)} {es : List E},
    evalArgs L H nodes scope = .done vs es → vs.length ≤ nodes.length
  | [], vs, es, h => by
    cases h
    exact le_rfl
  | node :: nodes, vs, es, h => by
    cases hnode : node.isPredicate with
    | true =>
      cases node with
      | predicate => exact (evalArgs_length_le nodes h).trans (Nat.le_succ _)
      | _ => cases hnode
    | false =>
      rw [evalArgs_cons hnode] at h
      obtain ⟨v, _, _, _, -, hvs, rfl, -⟩ := cons_eq_done h
      exact Nat.succ_le_succ (evalArgs_length_le nodes hvs)

/-- As many values as arguments: none of them is a predicate. -/
theorem evalArgs_eq_done {node : Node} {nodes : List Node} {scope : Scope F} {vs : List (Value F)}
    (h : evalArgs L H (node :: nodes) scope = .done vs es) (hlength : vs.length = nodes.length + 1) :
    ∃ v vs' es₁ es₂, eval L H node scope >>= Flow.get = .done v es₁ ∧ evalArgs L H nodes scope = .done vs' es₂ ∧
      vs = v :: vs' ∧ es = es₁ ++ es₂ := by
  cases hnode : node.isPredicate with
  | true =>
    cases node with
    | predicate =>
      have := evalArgs_length_le nodes h
      omega
    | _ => cases hnode
  | false =>
    rw [evalArgs_cons hnode] at h
    exact cons_eq_done h

theorem call_eq_done {args : Comp E (List (Value F))} {f : F}
    (h : callComp L H args (pure (.value (.func f))) >>= Flow.get = .done v es) :
    ∃ vs es₁ es₂, args = .done vs es₁ ∧ H.apply f vs = .done v es₂ ∧ es = es₁ ++ es₂ := by
  unfold callComp at h
  simp only [pure_bind, bind_assoc, value_get] at h
  exact bind_eq_done.mp h

end Inversion

end NewApi.Lang

