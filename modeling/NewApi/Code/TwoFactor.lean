import NewApi.Lib.Calls
import NewApi.Lib.GoText
import NewApi.Lib.Table

/-!
# Two-factor codes

`VerifyTwoFactorCode` of `service/security_verification.go`, for one user. Each statement and each look at the clock is one
access. Times are nanoseconds.
-/

namespace NewApi.Code.TwoFactor

open Calls GoText Table

def backupCodeLength : Nat := 8

def maxFailAttempts : Int := 5

def lockoutDuration : Int := 300

def second : Int := 1000000000

/-- `strings.ToUpper`, `totp.Validate`, and the comparison with a hash. -/
structure Library where
  toUpper : String → String
  totp : String → String → Int → Bool
  validatePasswordAndHash : String → String → Bool

/-! ## Formats -/

def removeAll (c : Char) (s : String) : String := String.ofList (s.toList.filter (· ≠ c))

/-- What `strconv.Atoi` accepts; only used for six bytes. -/
def isInteger (s : String) : Bool :=
  match s.toList with
  | '+' :: digits | '-' :: digits => !digits.isEmpty && digits.all Char.isDigit
  | digits => !digits.isEmpty && digits.all Char.isDigit

def validateNumericCode (code : String) : Option String :=
  let code := removeAll ' ' code
  if code.utf8ByteSize ≠ 6 then none else if isInteger code then some code else none

variable (lib : Library) (twoFA : TwoFA)

def validateTOTPCode (secret code : String) (now : Int) : Bool :=
  let cleanCode := removeAll ' ' code
  if cleanCode.utf8ByteSize ≠ 6 then false else lib.totp cleanCode secret now

def backupCodeFormat (code : String) : Bool :=
  let cleanCode := lib.toUpper (removeAll '-' code)
  if cleanCode.utf8ByteSize ≠ backupCodeLength then false
  else cleanCode.toList.all fun c => ('A' ≤ c && c ≤ 'Z') || ('0' ≤ c && c ≤ '9')

/-- The cut is between bytes, where all characters have one. -/
def normalizeBackupCode (code : String) : String :=
  let cleanCode := lib.toUpper (removeAll '-' code)
  if cleanCode.utf8ByteSize = backupCodeLength then
    String.ofList (cleanCode.toList.take 4) ++ "-" ++ String.ofList (cleanCode.toList.drop 4)
  else code

/-! ## The store -/

structure TwoFA where
  id : Int
  secret : String
  isEnabled : Bool
  failedAttempts : Int
  lockedUntil : Option Int
  lastUsedAt : Option Int
deriving DecidableEq

structure TwoFABackupCode where
  id : Int
  codeHash : String
  isUsed : Bool
  usedAt : Option Int
deriving DecidableEq

structure Check where
  call : Nat
  lockedUntil : Option Int
  time : Int
deriving DecidableEq

/-- `loads`: the lock each call has loaded. `checks`: when a code was checked. -/
structure Store where
  now : Int
  twoFA : Option TwoFA
  backupCodes : Keyed TwoFABackupCode.id
  loads : List (Nat × Option Int)
  checks : List Check

def Store.start (now : Int) (twoFA : TwoFA) (backupCodes : Keyed TwoFABackupCode.id) : Store :=
  ⟨now, some twoFA, backupCodes, [], []⟩

def Store.lockedUntil (s : Store) : Option Int := s.twoFA.bind TwoFA.lockedUntil

def lockedAt (lockedUntil : Option Int) (now : Int) : Bool := lockedUntil.any fun time => now < time

def Store.locked (s : Store) : Bool := lockedAt s.lockedUntil s.now

def Store.check (s : Store) (call : Nat) : Store := { s with checks := s.checks ++ [⟨call, s.lockedUntil, s.now⟩] }

/-- Whether there was a row that meets the condition. -/
def Store.updateWhere (s : Store) (p : TwoFA → Bool) (change : TwoFA → TwoFA) : Bool × Store :=
  match s.twoFA with
  | none => (false, s)
  | some row => if p row then (true, { s with twoFA := some (change row) }) else (false, s)

/-! ## Accesses -/

inductive TwoFAError where
  | notEnabled
  | verificationLocked
  | verificationFailed
  | idEmpty
  | locked (deadline : Option Int)
  | incorrect
  | conflict
  | recordNotFound
  | database
deriving DecidableEq

inductive Op where
  | load
  | now
  | totp (secret code : String)
  | unusedBackupCodes
  | useBackupCode (id usedAt : Int)
  | select (id : Int)
  | increment (id failedAttempts now nextFailedAttempts : Int) (nextLockedUntil : Option Int)
  | updateUsageState (twoFA : TwoFA)
deriving DecidableEq

def Ans : Op → Type
  | .load => Except TwoFAError (Option TwoFA)
  | .now => Int
  | .totp _ _ => Bool
  | .unusedBackupCodes => Except TwoFAError (List TwoFABackupCode)
  | .useBackupCode _ _ | .increment _ _ _ _ _ => Except TwoFAError Bool
  | .select _ => Except TwoFAError TwoFA
  | .updateUsageState _ => Except TwoFAError Unit

/-- One access of this call. -/
def act (call : Nat) (op : Op) (fails : Bool) (s : Store) : Option (Ans op × Store) :=
  match op with
  | .load =>
    if fails then some (.error .database, s)
    else some (.ok s.twoFA, { s with loads := s.loads ++ [(call, s.lockedUntil)] })
  | .now => some (s.now, s)
  | .totp secret code => some (validateTOTPCode lib secret code s.now, s.check call)
  | .unusedBackupCodes =>
    if fails then some (.error .database, s) else some (.ok (s.backupCodes.matching fun c => !c.isUsed), s.check call)
  | .useBackupCode id usedAt =>
    if fails then some (.error .database, s)
    else
      let p : TwoFABackupCode → Bool := fun c => c.id = id && !c.isUsed
      some (.ok ((s.backupCodes.matching p).length = 1),
        { s with backupCodes := s.backupCodes.update p (fun c => { c with isUsed := true, usedAt := some usedAt }) fun _ => rfl })
  | .select id =>
    if fails then some (.error .database, s)
    else
      match s.twoFA with
      | none => some (.error .recordNotFound, s)
      | some row => some (if row.id = id then .ok row else .error .recordNotFound, s)
  | .increment id failedAttempts now nextFailedAttempts nextLockedUntil =>
    if fails then some (.error .database, s)
    else
      let (updated, t) := s.updateWhere
        (fun row => row.id = id && row.failedAttempts = failedAttempts && row.lockedUntil.all fun time => time ≤ now)
        fun row => { row with failedAttempts := nextFailedAttempts, lockedUntil := nextLockedUntil }
      some (.ok updated, t)
  | .updateUsageState twoFA =>
    if fails then some (.error .database, s)
    else
      some (.ok (), (s.updateWhere (fun row => row.id = twoFA.id) fun row =>
        { row with
          failedAttempts := twoFA.failedAttempts
          lockedUntil := twoFA.lockedUntil
          lastUsedAt := twoFA.lastUsedAt }).2)

/-! ## A submission -/

abbrev Call := Prog Op Ans

def isLocked : Call Bool :=
  if twoFA.lockedUntil = none then .done false else .access .now fun (now : Int) => .done (lockedAt twoFA.lockedUntil now)

def updateUsageState : Call (Except TwoFAError Unit) :=
  if twoFA.id = 0 then .done (.error .idEmpty) else .access (.updateUsageState twoFA) .done

def incrementLoop (twoFA : TwoFA) : Nat → Call (Except TwoFAError Unit)
  | 0 => .done (.error .conflict)
  | retries + 1 =>
    .access (.select twoFA.id) fun
      | .error e => .done (.error e)
      | .ok current =>
        .access .now fun (now : Int) =>
          if lockedAt current.lockedUntil now then .done (.ok ())
          else
            let nextFailedAttempts := current.failedAttempts + 1
            let nextLockedUntil :=
              if nextFailedAttempts ≥ maxFailAttempts then some (now + lockoutDuration * second) else current.lockedUntil
            .access (.increment current.id current.failedAttempts now nextFailedAttempts nextLockedUntil) fun
              | .error e => .done (.error e)
              | .ok false => incrementLoop twoFA retries
              | .ok true => .done (.ok ())

def incrementFailedAttempts : Call (Except TwoFAError Unit) :=
  if twoFA.id = 0 then .done (.error .idEmpty) else incrementLoop twoFA 5

def recordFailure : Call (Except TwoFAError Bool) :=
  (incrementFailedAttempts twoFA).bind fun
    | .error e => .done (.error e)
    | .ok () => .done (.ok false)

def recordSuccess : Call (Except TwoFAError Bool) :=
  .access .now fun (now : Int) =>
    (updateUsageState { twoFA with failedAttempts := 0, lockedUntil := none, lastUsedAt := some now }).bind fun
      | .error e => .done (.error e)
      | .ok () => .done (.ok true)

def validateTOTPAndUpdateUsage (code : String) : Call (Except TwoFAError Bool) :=
  (isLocked twoFA).bind fun
    | true => .done (.error (.locked twoFA.lockedUntil))
    | false => .access (.totp twoFA.secret code) fun
      | false => recordFailure twoFA
      | true => recordSuccess twoFA

def validateBackupCode (code : String) : Call (Except TwoFAError Bool) :=
  if backupCodeFormat lib code = false then .done (.error .incorrect)
  else
    .access .unusedBackupCodes fun
      | .error e => .done (.error e)
      | .ok backupCodes =>
        match backupCodes.find? fun c => lib.validatePasswordAndHash (normalizeBackupCode lib code) c.codeHash with
        | none => .done (.ok false)
        | some c => .access .now fun (now : Int) => .access (.useBackupCode c.id now) .done

def validateBackupCodeAndUpdateUsage (code : String) : Call (Except TwoFAError Bool) :=
  (isLocked twoFA).bind fun
    | true => .done (.error (.locked twoFA.lockedUntil))
    | false => (validateBackupCode lib code).bind fun
      | .error e => .done (.error e)
      | .ok false => recordFailure twoFA
      | .ok true => recordSuccess twoFA

def classify (code : String) : Call (Except TwoFAError Bool) :=
  match validateNumericCode code with
  | some numeric => validateTOTPAndUpdateUsage twoFA numeric
  | none => if backupCodeFormat lib code then validateBackupCodeAndUpdateUsage lib twoFA code else recordFailure twoFA

def verifyTwoFactorCode (twoFA : Option TwoFA) (code : String) : Call (Except TwoFAError Unit) :=
  match twoFA with
  | none => .done (.error .notEnabled)
  | some twoFA =>
    if twoFA.isEnabled = false then .done (.error .notEnabled)
    else
      (isLocked twoFA).bind fun
        | true => .done (.error .verificationLocked)
        | false => (classify lib twoFA (trimSpace code)).bind fun
          | .error e => .done (.error e)
          | .ok false => .done (.error .verificationFailed)
          | .ok true => .done (.ok ())

/-- `GetTwoFAByUserId` and `VerifyTwoFactorCode`. -/
def submit (code : String) : Call (Except TwoFAError Unit) :=
  .access .load fun
    | .error e => .done (.error e)
    | .ok twoFA => verifyTwoFactorCode lib twoFA code

/-- The submissions of one user, each with its code. Time passes in between. -/
def machine : Machine Store String Bool Nat Op Ans (Except TwoFAError Unit) where
  act := act lib
  env := fun ns s => some { s with now := s.now + ns }
  body := submit lib

end NewApi.Code.TwoFactor

