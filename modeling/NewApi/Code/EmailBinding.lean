import NewApi.Lib.Calls

/-!
# The change of an email address

`model/email_binding.go`, for one flow, statement by statement. A transaction has the lock of the row once its first
update has met it, and its writes are seen when it commits. Times are nanoseconds.
-/

namespace NewApi.Code.EmailBinding

open Calls

def second : Int := 1000000000

def emailBindingResendDelay : Int := 60 * second

def emailBindingMaxAttempts : Nat := 5

inductive BindingError where
  | flowInvalid
  | flowConsumed
  | flowExpired
  | codeInvalid
  | locked
  | resendWait
  | bindingChanged
  | other (text : String)
deriving DecidableEq

structure AuthSessionIdentity where
  userID : Int
  sessionID : String
  userAuthVersion : Int
  sessionVersion : Int
deriving DecidableEq

structure AuthFlowAuthorization where
  proofID : Int
  identity : AuthSessionIdentity
  scope : String
  contextHash : String
deriving DecidableEq

structure EmailBindingState where
  authorization : Option AuthFlowAuthorization
  currentEmail : String
  email : String
  newCodeHash : String
  oldCodeHash : String
  failedAttempts : Nat
  resendAt : Int
deriving DecidableEq

/-- A payload that cannot be read is `none`. -/
structure AuthFlow where
  token : String
  userId : Int
  sessionId : String
  payload : Option EmailBindingState
  expiresAt : Int
  consumedAt : Option Int
deriving DecidableEq

/-- `applyAuthFlowMatch`, which leaves out what is empty. -/
def AuthFlow.matches (flow : AuthFlow) (identity : AuthSessionIdentity) (token : String) : Bool :=
  flow.token = token ∧ (identity.userID = 0 ∨ flow.userId = identity.userID) ∧
    (identity.sessionID = "" ∨ flow.sessionId = identity.sessionID)

structure Library where
  normalizeEmail : String → String
  validateNumericCode : String → Option String
  validatePasswordAndHash : String → String → Bool

def Library.codesMatch (lib : Library) (state : EmailBindingState) (newCode oldCode : String) : Bool :=
  ((lib.validateNumericCode newCode).any (lib.validatePasswordAndHash · state.newCodeHash)) &&
    (state.oldCodeHash = "" || (lib.validateNumericCode oldCode).any (lib.validatePasswordAndHash · state.oldCodeHash))

/-! ## The store -/

/-- By which call, the row before, and when the call had looked at the clock. -/
structure Change where
  call : Nat
  flow : AuthFlow
  looked : Int
deriving DecidableEq

/-- `looked`: when the transaction with the lock looked at the clock. `wrong`, `doubt`, `lost`: the wrong submissions,
one not yet stored, those rolled back. -/
structure Store where
  now : Int
  flow : AuthFlow
  email : String
  holder : Option Nat
  looked : Int
  wrong : Nat
  doubt : Bool
  lost : Nat
  changes : List Change
deriving DecidableEq

def Store.start (now : Int) (flow : AuthFlow) (email : String) : Store := ⟨now, flow, email, none, now, 0, false, 0, []⟩

inductive Write where
  | payload (state : EmailBindingState)
  | email (email : String)
  | consumed
deriving DecidableEq

def Store.write (s : Store) (call : Nat) : Write → Store
  | .payload state => { s with flow := { s.flow with payload := some state } }
  | .email email => { s with email, changes := s.changes ++ [⟨call, s.flow, s.looked⟩] }
  | .consumed => { s with flow := { s.flow with consumedAt := some s.now } }

inductive Op where
  | lockNormalizedEmail (email : String)
  | lock (identity : AuthSessionIdentity) (token : String)
  | first (identity : AuthSessionIdentity) (token : String)
  | now
  | validateAuthSession (identity : AuthSessionIdentity)
  | firstUser
  | check (valid : Bool)
  | ensureEmailAvailable (email : String)
  | update (write : Write)
  | commit (writes : List Write)
  | rollback
deriving DecidableEq

abbrev Ret : Op → Type
  | .first _ _ => Option AuthFlow
  | .now => Int
  | .firstUser => String
  | _ => Unit

abbrev Ans (op : Op) : Type := Except BindingError (Ret op)

/-- The locking update: it waits where a transaction has the row. -/
def Store.lock (s : Store) (call : Nat) (identity : AuthSessionIdentity) (token : String) : Option Store :=
  if s.flow.matches identity token ∧ s.flow.consumedAt = none ∧ s.now < s.flow.expiresAt then
    if s.holder = none then some { s with holder := some call } else none
  else some s

def Store.commit (s : Store) (call : Nat) (writes : List Write) : Store :=
  { writes.foldl (fun s w => s.write call w) s with holder := none, doubt := false }

def Store.look (s : Store) (call : Nat) : Store := if s.holder = some call then { s with looked := s.now } else s

def Store.rollback (s : Store) (call : Nat) : Store :=
  if s.holder = some call then { s with holder := none, doubt := false, lost := s.lost + s.doubt.toNat } else s

/-- A statement that fails leaves the store alone. -/
def reply {α : Type} (fails : Option BindingError) (s : Store) (a : α) (t : Store) : Except BindingError α × Store :=
  match fails with
  | some e => (.error e, s)
  | none => (.ok a, t)

/-- One access of this call. -/
def act (call : Nat) (op : Op) (fails : Option BindingError) (s : Store) : Option (Ans op × Store) :=
  match op with
  | .rollback => some (.ok (), s.rollback call)
  | .now => some (.ok s.now, s.look call)
  | .check valid => some (.ok (), if valid then s else { s with wrong := s.wrong + 1, doubt := true })
  | .lock identity token =>
    match fails with
    | some e => some (.error e, s)
    | none => (s.lock call identity token).map fun t => (.ok (), t)
  | .first identity token => some (reply fails s (if s.flow.matches identity token then some s.flow else none) s)
  | .firstUser => some (reply fails s s.email s)
  | .lockNormalizedEmail _ | .validateAuthSession _ | .ensureEmailAvailable _ | .update _ => some (reply fails s () s)
  | .commit writes => some (reply fails s () (s.commit call writes))

/-! ## The calls -/

/-- The state of the flow, and the error of a verification that has failed. -/
abbrev Answer := Except BindingError (EmailBindingState × Option BindingError)

abbrev Call := Prog Op Ans Answer

def fail (e : BindingError) : Call := .access .rollback fun _ => .done (.error e)

def exec (op : Op) (next : Ret op → Call) : Call :=
  .access op fun
    | .error e => fail e
    | .ok r => next r

def validateEmailBindingAccountWithTx (lib : Library) (identity : AuthSessionIdentity) (state : EmailBindingState)
    (next : Call) : Call :=
  if (state.authorization.any fun a => 0 < a.proofID ∧ a.identity = identity ∧ a.scope = "account.binding.bind" ∧
      a.contextHash ≠ "") = false ∨ state.email = "" ∨ state.email ≠ lib.normalizeEmail state.email ∨
      state.newCodeHash = "" then fail .flowInvalid
  else exec (.validateAuthSession identity) fun _ => exec .firstUser fun (email : String) =>
    if lib.normalizeEmail email ≠ state.currentEmail ∨ state.currentEmail = state.email then fail .bindingChanged else next

def lockEmailBindingWithTx (lib : Library) (identity : AuthSessionIdentity) (token : String)
    (next : EmailBindingState → Call) : Call :=
  exec (.lock identity token) fun _ => exec (.first identity token) fun
    | none => fail .flowInvalid
    | some flow =>
      if flow.consumedAt ≠ none then fail .flowConsumed
      else exec .now fun (now : Int) =>
        if flow.expiresAt ≤ now then fail .flowExpired
        else match flow.payload with
          | none => fail .flowInvalid
          | some state => validateEmailBindingAccountWithTx lib identity state
            (if emailBindingMaxAttempts ≤ state.failedAttempts then fail .locked else next state)

def resendEmailBinding (lib : Library) (identity : AuthSessionIdentity) (token newCodeHash oldCodeHash : String) : Call :=
  lockEmailBindingWithTx lib identity token fun state => exec .now fun (now : Int) =>
    if state.resendAt > now / second then fail .resendWait
    else if newCodeHash = "" ∨ (state.oldCodeHash ≠ "") ≠ (oldCodeHash ≠ "") then fail .flowInvalid
    else
      let next := { state with newCodeHash, oldCodeHash, resendAt := (now + emailBindingResendDelay) / second }
      exec (.update (.payload next)) fun _ => exec (.commit [.payload next]) fun _ => .done (.ok (next, none))

def completeEmailBinding (lib : Library) (identity : AuthSessionIdentity) (token email newCode oldCode : String) : Call :=
  if email = "" ∨ email ≠ lib.normalizeEmail email then fail .flowInvalid
  else exec (.lockNormalizedEmail email) fun _ => lockEmailBindingWithTx lib identity token fun state =>
    if state.email ≠ email then fail .flowInvalid
    else exec (.check (lib.codesMatch state newCode oldCode)) fun _ =>
      if lib.codesMatch state newCode oldCode = false then
        let next := { state with failedAttempts := state.failedAttempts + 1 }
        exec (.update (.payload next)) fun _ => exec (.commit [.payload next]) fun _ =>
          .done (.ok (next, some (if emailBindingMaxAttempts ≤ next.failedAttempts then .locked else .codeInvalid)))
      else exec (.ensureEmailAvailable state.email) fun _ => exec (.update (.email state.email)) fun _ =>
        exec (.update .consumed) fun _ => exec (.commit [.email state.email, .consumed]) fun _ => .done (.ok (state, none))

inductive Name where
  | complete (identity : AuthSessionIdentity) (token email newCode oldCode : String)
  | resend (identity : AuthSessionIdentity) (token newCodeHash oldCodeHash : String)
deriving DecidableEq

def body (lib : Library) : Name → Call
  | .complete identity token email newCode oldCode => completeEmailBinding lib identity token email newCode oldCode
  | .resend identity token newCodeHash oldCodeHash => resendEmailBinding lib identity token newCodeHash oldCodeHash

/-- Time passes, and the address of the user is set elsewhere. -/
inductive Outside where
  | elapse (ns : Nat)
  | setEmail (email : String)

def Store.env (s : Store) : Outside → Store
  | .elapse ns => { s with now := s.now + ns }
  | .setEmail email => { s with email }

def machine (lib : Library) : Machine Store Name (Option BindingError) Outside Op Ans Answer where
  act := act
  env := fun e s => some (s.env e)
  body := body lib

end NewApi.Code.EmailBinding
