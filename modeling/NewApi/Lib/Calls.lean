import NewApi.Lib.Run

/-!
# Calls on a shared store

A call in progress has an answer, or asks for one access and goes on with what it gets. `Sat` says what it needs of the
others (`R`), does for them (`G`) and answers (`Q`); `Fine.step` puts the calls together.
-/

namespace NewApi.Calls

open NewApi.Run

/-- A call that returns an `α`. `Ans op` is the answer to the access `op`. -/
inductive Prog (Op : Type) (Ans : Op → Type) (α : Type) where
  | done (a : α)
  | access (op : Op) (next : Ans op → Prog Op Ans α)

section Prog

variable {Op : Type} {Ans : Op → Type} {α β : Type}

def Prog.bind : Prog Op Ans α → (α → Prog Op Ans β) → Prog Op Ans β
  | .done a, f => f a
  | .access op next, f => .access op fun r => (next r).bind f

theorem Prog.bind_assoc {γ : Type} (p : Prog Op Ans α) (f : α → Prog Op Ans β) (g : β → Prog Op Ans γ) :
    (p.bind f).bind g = p.bind fun a => (f a).bind g := by
  induction p with
  | done => rfl
  | access op next ih => exact congrArg (Prog.access op) (funext ih)

def Prog.answer : Prog Op Ans α → Option α
  | .done a => some a
  | .access _ _ => none

def Prog.asked : Prog Op Ans α → Option Op
  | .done _ => none
  | .access op _ => some op

/-- Every access has `P`, whatever the answers are. -/
def Prog.All (P : Op → Prop) : Prog Op Ans α → Prop
  | .done _ => True
  | .access op next => P op ∧ ∀ r, (next r).All P

theorem Prog.All.access {P : Op → Prop} {op : Op} {next : Ans op → Prog Op Ans α} (h : P op)
    (hnext : ∀ r, (next r).All P) : (Prog.access op next).All P := ⟨h, hnext⟩

theorem Prog.All.bind {P : Op → Prop} {p : Prog Op Ans α} {f : α → Prog Op Ans β} (h : p.All P)
    (hf : ∀ a, (f a).All P) : (p.bind f).All P := by
  induction p with
  | done a => exact hf a
  | access op next ih => exact ⟨h.1, fun r => ih r (h.2 r)⟩

end Prog

/-! ## The system -/

/-- The calls are in the order in which they began. A call has a name `κ`. -/
structure System (σ κ Op : Type) (Ans : Op → Type) (α : Type) where
  store : σ
  calls : List (κ × Prog Op Ans α)

/-- `χ` is what an access leaves open, such as whether it fails. -/
inductive Event (κ χ τ : Type) where
  | begin (name : κ)
  | step (i : Nat) (choice : χ)
  | env (e : τ)

/-- `act i` is `none` where the `i`-th call has to wait. -/
structure Machine (σ κ χ τ Op : Type) (Ans : Op → Type) (α : Type) where
  act : Nat → (op : Op) → χ → σ → Option (Ans op × σ)
  env : τ → σ → Option σ
  body : κ → Prog Op Ans α

section Machine

variable {σ κ χ τ Op : Type} {Ans : Op → Type} {α : Type}

def Machine.step (M : Machine σ κ χ τ Op Ans α) (s : System σ κ Op Ans α) : Event κ χ τ → Option (System σ κ Op Ans α)
  | .begin name => some { s with calls := s.calls ++ [(name, M.body name)] }
  | .step i choice =>
    match s.calls[i]? with
    | some (name, .access op next) =>
      (M.act i op choice s.store).map fun (r, store) => ⟨store, s.calls.set i (name, next r)⟩
    | _ => none
  | .env e => (M.env e s.store).map fun store => { s with store }

def System.result (s : System σ κ Op Ans α) (i : Nat) : Option (κ × α) :=
  s.calls[i]?.bind fun (name, p) => p.answer.map fun a => (name, a)

def System.pending (s : System σ κ Op Ans α) (i : Nat) : Option (κ × Op) :=
  s.calls[i]?.bind fun (name, p) => p.asked.map fun op => (name, op)

def System.start (store : σ) : System σ κ Op Ans α := ⟨store, []⟩

theorem System.result_eq_some {s : System σ κ Op Ans α} {i : Nat} {name : κ} {a : α} :
    s.result i = some (name, a) ↔ s.calls[i]? = some (name, .done a) := by
  unfold System.result
  constructor
  · intro h
    obtain ⟨⟨_, p⟩, hcall, h⟩ := Option.bind_eq_some_iff.mp h
    cases p with
    | done =>
      cases h
      exact hcall
    | access => cases h
  · intro h
    rw [h]
    rfl

variable {M : Machine σ κ χ τ Op Ans α} {s t : System σ κ Op Ans α}

theorem Machine.step_cases {e : Event κ χ τ} (h : M.step s e = some t) :
    (∃ name, e = .begin name ∧ t = { s with calls := s.calls ++ [(name, M.body name)] }) ∨
    (∃ i choice name op next r store, e = .step i choice ∧ s.calls[i]? = some (name, .access op next) ∧
      M.act i op choice s.store = some (r, store) ∧ t = ⟨store, s.calls.set i (name, next r)⟩) ∨
    (∃ e' store, e = .env e' ∧ M.env e' s.store = some store ∧ t = { s with store }) := by
  cases e with
  | begin name => exact .inl ⟨name, rfl, (Option.some.inj h).symm⟩
  | step i choice =>
    refine .inr (.inl ?_)
    simp only [Machine.step] at h
    split at h
    · rename_i name op next hcall
      obtain ⟨⟨r, store⟩, hact, rfl⟩ := Option.map_eq_some_iff.mp h
      exact ⟨i, choice, name, op, next, r, store, rfl, hcall, hact, rfl⟩
    · cases h
  | env e =>
    obtain ⟨store, henv, rfl⟩ := Option.map_eq_some_iff.mp h
    exact .inr (.inr ⟨e, store, rfl, henv, rfl⟩)

def System.names (s : System σ κ Op Ans α) : List κ := s.calls.map Prod.fst

theorem System.names_set {s : System σ κ Op Ans α} {i : Nat} {name : κ} {p q : Prog Op Ans α} (store : σ)
    (h : s.calls[i]? = some (name, p)) :
    (System.mk store (s.calls.set i (name, q)) : System σ κ Op Ans α).names = s.names := by
  have hname : s.names[i]? = some name := by simp [System.names, h]
  obtain ⟨hi, hget⟩ := List.getElem?_eq_some_iff.mp hname
  unfold System.names at hi hget ⊢
  rw [List.map_set, ← hget, List.set_getElem_self]

/-- Every call makes only accesses that go with its name. -/
def System.All (P : κ → Op → Prop) (s : System σ κ Op Ans α) : Prop := ∀ c ∈ s.calls, c.2.All (P c.1)

theorem System.All.steps {ok : System σ κ Op Ans α → Event κ χ τ → Prop} {es : List (Event κ χ τ)} {P : κ → Op → Prop}
    (hs : s.All P) (hbody : ∀ name, (M.body name).All (P name)) (h : Steps M.step ok s es t) : t.All P := by
  refine h.invariant (fun s e t _ hs hstep => ?_) hs
  rcases Machine.step_cases hstep with ⟨name, -, rfl⟩ | ⟨i, -, name, _, _, r, _, -, hi, -, rfl⟩ |
    ⟨-, -, -, -, rfl⟩
  · intro c hc
    rcases List.mem_append.mp hc with hc | hc
    · exact hs c hc
    · rw [List.mem_singleton.mp hc]
      exact hbody name
  · intro c hc
    rcases List.mem_or_eq_of_mem_set hc with hc | rfl
    · exact hs c hc
    · exact (hs _ (List.mem_of_getElem? hi)).2 r
  · exact hs

end Machine

/-! ## One call -/

section Sat

variable {σ χ Op : Type} {Ans : Op → Type} {α β : Type}

/-- While the others keep to `R`, the call keeps `J`, changes the store within `G`, and answers with `Q`, for `allowed`
accesses. -/
def Sat (act : (op : Op) → χ → σ → Option (Ans op × σ)) (allowed : Op → χ → σ → Prop) (J : σ → Prop)
    (R G : σ → σ → Prop) (Q : α → σ → Prop) : Prog Op Ans α → σ → Prop
  | .done a, s => ∀ s', R s s' → J s' → Q a s'
  | .access op next, s => ∀ s', R s s' → J s' → ∀ choice r t, allowed op choice s' →
      act op choice s' = some (r, t) → J t ∧ G s' t ∧ Sat act allowed J R G Q (next r) t

variable {act : (op : Op) → χ → σ → Option (Ans op × σ)} {allowed : Op → χ → σ → Prop} {J : σ → Prop}
  {R G : σ → σ → Prop} {Q : α → σ → Prop} {s s' : σ}

variable {p : Prog Op Ans α}

theorem Sat.later (hR : ∀ {a b c}, R a b → R b c → R a c) (h : Sat act allowed J R G Q p s)
    (hs : R s s') : Sat act allowed J R G Q p s' := by
  cases p with
  | done | access => exact fun t ht hJ => h t (hR hs ht) hJ

theorem Sat.weaken {Q' : α → σ → Prop} (h : Sat act allowed J R G Q p s)
    (hQ : ∀ a t, J t → Q a t → Q' a t) : Sat act allowed J R G Q' p s := by
  induction p generalizing s with
  | done a => exact fun t ht hJ => hQ a t hJ (h t ht hJ)
  | access op next ih =>
    intro t ht hJ choice r u hallow hact
    obtain ⟨hJ', hG, hnext⟩ := h t ht hJ choice r u hallow hact
    exact ⟨hJ', hG, ih r hnext⟩

/-- What every access keeps from here on may be added to the invariant. -/
theorem Sat.restrict {allowed' : Op → χ → σ → Prop} {J' K : σ → Prop} {Q' : α → σ → Prop}
    (h : Sat act allowed J R G Q p s) (hJ : ∀ a, J' a ↔ J a ∧ K a) (hallow : ∀ op choice a, allowed' op choice a → allowed op choice a)
    (hK : ∀ op choice a r b, K a → allowed' op choice a → act op choice a = some (r, b) → G a b → K b)
    (hQ : ∀ a t, J' t → Q a t → Q' a t) : Sat act allowed' J' R G Q' p s := by
  induction p generalizing s with
  | done a => exact fun t ht hJt => hQ a t hJt (h t ht ((hJ t).mp hJt).1)
  | access op next ih =>
    intro t ht hJt choice r u hallowed hact
    obtain ⟨hold, hkeep⟩ := (hJ t).mp hJt
    obtain ⟨hnew, hG, hnext⟩ := h t ht hold choice r u (hallow op choice t hallowed) hact
    exact ⟨(hJ u).mpr ⟨hnew, hK op choice t r u hkeep hallowed hact hG⟩, hG, ih r hnext⟩

theorem Sat.bind (hrefl : ∀ a, R a a) {P : β → σ → Prop} {p : Prog Op Ans β} {f : β → Prog Op Ans α}
    (h : Sat act allowed J R G P p s) (hJ : J s)
    (hf : ∀ b t, J t → P b t → Sat act allowed J R G Q (f b) t) : Sat act allowed J R G Q (p.bind f) s := by
  induction p generalizing s with
  | done b => exact hf b s hJ (h s (hrefl s) hJ)
  | access op next ih =>
    intro t ht hJt choice r u hallow hact
    obtain ⟨hJ', hG, hnext⟩ := h t ht hJt choice r u hallow hact
    exact ⟨hJ', hG, ih r hnext hJ'⟩

theorem Sat.any {K : σ → Prop}
    (hJ : ∀ op choice a r b, J a → allowed op choice a → act op choice a = some (r, b) → J b ∧ G a b)
    (hR : ∀ a b, R a b → K a → K b) (hG : ∀ a b, G a b → K a → K b) (hQ : ∀ a t, J t → K t → Q a t)
    (p : Prog Op Ans α) (hs : K s) : Sat act allowed J R G Q p s := by
  induction p generalizing s with
  | done a => exact fun t ht hJt => hQ a t hJt (hR s t ht hs)
  | access op next ih =>
    intro t ht hJt choice r u hallow hact
    obtain ⟨hJu, hGu⟩ := hJ op choice t r u hJt hallow hact
    exact ⟨hJu, hGu, ih r (hG t u hGu (hR s t ht hs))⟩

/-- With `Q` when it answers, once it has made an access with `mark`. -/
def After (act : (op : Op) → χ → σ → Option (Ans op × σ)) (allowed : Op → χ → σ → Prop) (J : σ → Prop)
    (R G : σ → σ → Prop) (mark : Op → σ → Prop) (Q : α → σ → Prop) : Prog Op Ans α → σ → Prop
  | .done _, _ => True
  | .access op next, s => ∀ s', R s s' → J s' → ∀ choice r t, allowed op choice s' → act op choice s' = some (r, t) →
      (mark op s' → Sat act allowed J R G Q (next r) t) ∧ After act allowed J R G mark Q (next r) t

variable {mark : Op → σ → Prop}

theorem After.later (hR : ∀ {a b c}, R a b → R b c → R a c) (h : After act allowed J R G mark Q p s)
    (hs : R s s') : After act allowed J R G mark Q p s' := by
  cases p with
  | done => trivial
  | access => exact fun t ht hJ => h t (hR hs ht) hJ

theorem After.none (h : p.All fun op => ∀ s, ¬ mark op s) : After act allowed J R G mark Q p s := by
  induction p generalizing s with
  | done => trivial
  | access op next ih => exact fun t _ _ _ r u _ _ => ⟨fun hm => absurd hm (h.1 t), ih r (h.2 r)⟩

theorem After.bind (hrefl : ∀ a, R a a) {P : β → σ → Prop} {p : Prog Op Ans β} {f : β → Prog Op Ans α}
    (h : After act allowed J R G mark P p s) (hs : Sat act allowed J R G (fun _ _ => True) p s) (hJ : J s)
    (hf : ∀ b t, J t → P b t → Sat act allowed J R G Q (f b) t)
    (hafter : ∀ b t, J t → After act allowed J R G mark Q (f b) t) : After act allowed J R G mark Q (p.bind f) s := by
  induction p generalizing s with
  | done b => exact hafter b s hJ
  | access op next ih =>
    intro t ht hJt choice r u hallow hact
    obtain ⟨hmark, hnext⟩ := h t ht hJt choice r u hallow hact
    obtain ⟨hJu, -, hsat⟩ := hs t ht hJt choice r u hallow hact
    exact ⟨fun hm => Sat.bind hrefl (hmark hm) hJu hf, ih r hnext hsat hJu⟩

end Sat

/-! ## All calls together -/

section Fine

variable {σ κ χ τ Op : Type} {Ans : Op → Type} {α : Type}

/-- What each call relies on and guarantees. `allowed` is assumed of a run. -/
structure Contract (M : Machine σ κ χ τ Op Ans α) where
  allowed : Nat → κ → Op → χ → σ → Prop
  inv : σ → Prop
  rely : Nat → κ → σ → σ → Prop
  does : Nat → κ → σ → σ → Prop
  post : Nat → κ → α → σ → Prop
  apart : κ → κ → Prop
  trans : ∀ {i k a b c}, rely i k a b → rely i k b c → rely i k a c
  others : ∀ {i k j l a b}, i ≠ j → apart k l → inv a → inv b → does i k a b → rely j l a b
  env : ∀ {e a b}, M.env e a = some b → inv a → inv b ∧ ∀ i k, rely i k a b

variable {M : Machine σ κ χ τ Op Ans α}

def Contract.Sat (C : Contract M) (i : Nat) (name : κ) : Prog Op Ans α → σ → Prop :=
  Calls.Sat (M.act i) (C.allowed i name) C.inv (C.rely i name) (C.does i name) (C.post i name)

structure Fine (C : Contract M) (s : System σ κ Op Ans α) : Prop where
  inv : C.inv s.store
  sat : ∀ (i : Nat) name p, s.calls[i]? = some (name, p) → C.Sat i name p s.store
  apart : ∀ (i j : Nat) k l p q, i ≠ j → s.calls[i]? = some (k, p) → s.calls[j]? = some (l, q) → C.apart k l

/-- A call begins apart from those before it, and every access is allowed. -/
def Contract.Keeps (C : Contract M) (s : System σ κ Op Ans α) : Event κ χ τ → Prop
  | .begin name => ∀ c ∈ s.calls, C.apart c.1 name ∧ C.apart name c.1
  | .step i choice => ∀ c ∈ s.pending i, C.allowed i c.1 c.2 choice s.store
  | .env _ => True

variable {C : Contract M} {s t : System σ κ Op Ans α}

variable {name : κ} {store : σ} {e : Event κ χ τ} {ok : System σ κ Op Ans α → Event κ χ τ → Prop}
  {es : List (Event κ χ τ)}

theorem Contract.Sat.later {i : Nat} {p : Prog Op Ans α} {a b : σ} (h : C.Sat i name p a)
    (hab : C.rely i name a b) : C.Sat i name p b :=
  Calls.Sat.later (R := C.rely i name) C.trans h hab

theorem Fine.start (h : C.inv store) : Fine C (System.start store) :=
  ⟨h, fun i _ _ hi => by simp [System.start] at hi, fun i _ _ _ _ _ _ hi => by simp [System.start] at hi⟩

theorem concat_cases {β : Type*} {l : List β} {a b : β} {i : Nat} (h : (l ++ [a])[i]? = some b) :
    l[i]? = some b ∨ i = l.length ∧ b = a := by
  rcases Nat.lt_trichotomy i l.length with hlt | rfl | hgt
  · rw [List.getElem?_append_left hlt] at h
    exact .inl h
  · rw [List.getElem?_concat_length] at h
    exact .inr ⟨rfl, (Option.some.inj h).symm⟩
  · simp [List.getElem?_append_right (Nat.le_of_lt hgt), Nat.sub_ne_zero_of_lt hgt] at h

theorem Fine.begin (h : Fine C s) (hok : C.Keeps s (.begin name))
    (hbody : C.Sat s.calls.length name (M.body name) s.store) :
    Fine C { s with calls := s.calls ++ [(name, M.body name)] } := by
  refine ⟨h.inv, ?_, ?_⟩
  · intro i k p hi
    rcases concat_cases hi with hi | ⟨rfl, hnew⟩
    · exact h.sat i k p hi
    · cases hnew
      exact hbody
  · intro i j k l p q hij hi hj
    -- At most one of the two is the new call.
    rcases concat_cases hi with hi | ⟨rfl, hnew⟩ <;> rcases concat_cases hj with hj | ⟨rfl, hnew'⟩
    · exact h.apart i j k l p q hij hi hj
    · cases hnew'
      exact (hok _ (List.mem_of_getElem? hi)).1
    · cases hnew
      exact (hok _ (List.mem_of_getElem? hj)).2
    · exact absurd rfl hij

theorem Fine.change (h : Fine C s) {e : τ} (henv : M.env e s.store = some store) : Fine C { s with store } := by
  obtain ⟨hinv, hrely⟩ := C.env henv h.inv
  exact ⟨hinv, fun i k p hi => (h.sat i k p hi).later (hrely i k), h.apart⟩

def Contract.answering (C : Contract M) (i : Nat) (Q : α → σ → Prop) : Contract M :=
  { C with post := fun j k a t => if j = i then Q a t else C.post j k a t }

/-- The `i`-th call answers with `Q`, once it has made an access with `mark`. -/
structure Watched (C : Contract M) (i : Nat) (mark : Op → σ → Prop) (Q : α → σ → Prop) (s : System σ κ Op Ans α) :
    Prop where
  fine : Fine C s
  begun : i < s.calls.length
  after : ∀ name p, s.calls[i]? = some (name, p) →
    After (M.act i) (C.allowed i name) C.inv (C.rely i name) (C.does i name) mark Q p s.store

variable {i : Nat} {mark : Op → σ → Prop} {Q : α → σ → Prop}

theorem Machine.step_length (h : M.step s e = some t) : s.calls.length ≤ t.calls.length := by
  rcases Machine.step_cases h with ⟨_, -, rfl⟩ | ⟨j, _, _, _, _, r, _, -, -, -, rfl⟩ | ⟨_, _, -, -, rfl⟩
  · simp
  · simp
  · exact le_rfl

theorem Fine.post (h : Fine C s) (hrefl : ∀ i k a, C.rely i k a a) {a : α} (hi : s.result i = some (name, a)) :
    C.post i name a s.store :=
  h.sat i name _ (System.result_eq_some.mp hi) s.store (hrefl i name _) h.inv

section

variable (hrefl : ∀ i k a, C.rely i k a a)
include hrefl

theorem Fine.access (h : Fine C s) {choice : χ} {op : Op}
    {next : Ans op → Prog Op Ans α} {r : Ans op} (hok : C.Keeps s (.step i choice))
    (hcall : s.calls[i]? = some (name, .access op next)) (hact : M.act i op choice s.store = some (r, store)) :
    C.does i name s.store store ∧ Fine C ⟨store, s.calls.set i (name, next r)⟩ := by
  have hi := (List.getElem?_eq_some_iff.mp hcall).1
  obtain ⟨hinv, hdoes, hnext⟩ := h.sat i name _ hcall s.store (hrefl i name _) h.inv choice r store
    (hok (name, op) (by simp [System.pending, hcall, Prog.asked])) hact
  -- The entry at each place, before and after.
  have hplace : ∀ j k q, (s.calls.set i (name, next r))[j]? = some (k, q) →
      j = i ∧ k = name ∧ q = next r ∨ j ≠ i ∧ s.calls[j]? = some (k, q) := by
    intro j k q hj
    by_cases hij : i = j
    · subst hij
      rw [List.getElem?_set_self hi, Option.some.injEq, Prod.mk.injEq] at hj
      exact .inl ⟨rfl, hj.1.symm, hj.2.symm⟩
    · rw [List.getElem?_set_ne hij] at hj
      exact .inr ⟨fun e => hij e.symm, hj⟩
  refine ⟨hdoes, hinv, ?_, ?_⟩
  · intro j k q hj
    rcases hplace j k q hj with ⟨rfl, rfl, rfl⟩ | ⟨hne, hj⟩
    · exact hnext
    · have happ := h.apart i j name k _ q hne.symm hcall hj
      exact (h.sat j k q hj).later (C.others hne.symm happ h.inv hinv hdoes)
  · intro j j' k l p q hjj hj hj'
    rcases hplace j k p hj with ⟨rfl, rfl, rfl⟩ | ⟨-, hold⟩ <;>
      rcases hplace j' l q hj' with ⟨rfl, rfl, rfl⟩ | ⟨-, hold'⟩
    · exact absurd rfl hjj
    · exact h.apart _ _ _ _ _ _ hjj hcall hold'
    · exact h.apart _ _ _ _ _ _ hjj hold hcall
    · exact h.apart _ _ _ _ _ _ hjj hold hold'

/-- A step keeps the contract, where a call that begins fulfils it. -/
theorem Fine.step (h : Fine C s) (hok : C.Keeps s e)
    (hbody : ∀ name, e = .begin name → C.Sat s.calls.length name (M.body name) s.store) (hstep : M.step s e = some t) :
    Fine C t := by
  rcases Machine.step_cases hstep with ⟨name, rfl, rfl⟩ | ⟨i, _, name, _, _, r, store, rfl, hcall, hact, rfl⟩ |
    ⟨e', store, rfl, henv, rfl⟩
  · exact h.begin hok (hbody name rfl)
  · exact (h.access hrefl hok hcall hact).2
  · exact h.change henv

theorem Watched.step (h : Watched C i mark Q s) (hok : C.Keeps s e)
    (hbody : ∀ name, e = .begin name → C.Sat s.calls.length name (M.body name) s.store) (hstep : M.step s e = some t) :
    Watched C i mark Q t := by
  have hfine := h.fine.step hrefl hok hbody hstep
  rcases Machine.step_cases hstep with ⟨name, rfl, rfl⟩ | ⟨j, choice, name, op, _, r, store, rfl, hcall, hact, rfl⟩ |
    ⟨e', store, rfl, henv, rfl⟩
  · refine ⟨hfine, by simp only [List.length_append]; exact Nat.lt_add_right _ h.begun, fun k p hk => ?_⟩
    rw [List.getElem?_append_left h.begun] at hk
    exact h.after k p hk
  · obtain ⟨hdoes, -⟩ := h.fine.access hrefl hok hcall hact
    refine ⟨hfine, by simpa using h.begun, fun k p hk => ?_⟩
    by_cases hij : j = i
    · subst hij
      rw [List.getElem?_set_self h.begun] at hk
      cases hk
      have hallowed := hok (name, op) (by simp [System.pending, hcall, Prog.asked])
      exact (h.after name _ hcall s.store (hrefl j name _) h.fine.inv choice r store hallowed hact).2
    · rw [List.getElem?_set_ne hij] at hk
      have happ := h.fine.apart j i name k _ p hij hcall hk
      exact After.later (R := C.rely i k) C.trans (h.after k p hk) (C.others hij happ h.fine.inv hfine.inv hdoes)
  · refine ⟨hfine, h.begun, fun k p hk => ?_⟩
    exact After.later (R := C.rely i k) C.trans (h.after k p hk) ((C.env henv h.fine.inv).2 i k)

theorem Watched.marked (h : Watched C i mark Q s) {choice : χ} {op : Op}
    (hok : C.Keeps s (.step i choice)) (hpending : s.pending i = some (name, op)) (hmark : mark op s.store)
    (hstep : M.step s (.step i choice) = some t) : Fine (C.answering i Q) t := by
  rcases Machine.step_cases hstep with ⟨_, he, -⟩ | ⟨j, _, name', op', next, r, store, he, hcall, hact, rfl⟩ |
    ⟨_, _, he, -⟩
  · cases he
  · cases he
    have hsame : s.pending i = some (name', op') := by simp [System.pending, hcall, Prog.asked]
    obtain ⟨rfl, rfl⟩ : name' = name ∧ op' = op := by
      rw [hsame] at hpending
      simpa using hpending
    obtain ⟨-, hfine⟩ := h.fine.access hrefl hok hcall hact
    refine ⟨hfine.inv, fun j k p hj => ?_, hfine.apart⟩
    by_cases hij : j = i
    · subst hij
      have hset : (name', next r) = (k, p) := by
        rw [List.getElem?_set_self h.begun] at hj
        exact Option.some.inj hj
      cases hset
      have hafter := (h.after name' _ hcall s.store (hrefl j name' _) h.fine.inv choice r store
        (hok _ hsame) hact).1 hmark
      exact Sat.weaken hafter fun a u _ hQ => by simpa [Contract.answering] using hQ
    · exact Sat.weaken (hfine.sat j k p hj) fun a u _ hpost => by simpa [Contract.answering, hij] using hpost
  · cases he

variable (hbody : ∀ s name, ok s (.begin name) → C.inv s.store → C.Sat s.calls.length name (M.body name) s.store)
  (hok : ∀ s e, ok s e → C.Keeps s e)
include hbody hok

theorem Fine.run (h : Fine C s) (hsteps : Steps M.step ok s es t) : Fine C t := by
  refine hsteps.invariant (fun s e t hse hs hstep => hs.step hrefl (hok s e hse) (fun name he => ?_) hstep) h
  subst he
  exact hbody s name hse hs.inv

theorem Fine.answering_run (h : Fine (C.answering i Q) s) (hi : i < s.calls.length)
    (hsteps : Steps M.step ok s es t) : Fine (C.answering i Q) t := by
  have hkeep : ∀ s e t, ok s e → Fine (C.answering i Q) s ∧ i < s.calls.length → M.step s e = some t →
      Fine (C.answering i Q) t ∧ i < t.calls.length := by
    rintro s e t hse ⟨hs, hi⟩ hstep
    refine ⟨hs.step hrefl (hok s e hse) (fun name he => ?_) hstep, hi.trans_le (Machine.step_length hstep)⟩
    subst he
    -- The new call is not the `i`-th.
    refine Sat.weaken (hbody s name hse hs.inv) fun a u _ hpost => ?_
    simpa [Contract.answering, hi.ne'] using hpost
  exact (hsteps.invariant hkeep ⟨h, hi⟩).1

theorem Watched.run (h : Watched C i mark Q s) (hsteps : Steps M.step ok s es t) : Watched C i mark Q t := by
  refine hsteps.invariant (fun s e t hse hs hstep => hs.step hrefl (hok s e hse) (fun name he => ?_) hstep) h
  subst he
  exact hbody s name hse hs.fine.inv

end

theorem Watched.start (h : Fine C s) (hok : C.Keeps s (.begin name))
    (hbody : C.Sat s.calls.length name (M.body name) s.store)
    (hafter : After (M.act s.calls.length) (C.allowed s.calls.length name) C.inv (C.rely s.calls.length name)
      (C.does s.calls.length name) mark Q (M.body name) s.store) :
    Watched C s.calls.length mark Q { s with calls := s.calls ++ [(name, M.body name)] } := by
  refine ⟨h.begin hok hbody, by simp, fun k p hk => ?_⟩
  rw [List.getElem?_concat_length, Option.some.injEq] at hk
  cases hk
  exact hafter

end Fine

end NewApi.Calls
