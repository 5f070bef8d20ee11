import Shellius.Schema

/-!
# The second factor

What `mfaService` does for break-glass: which factors a user can answer with,
e-mailing a one-time code, and checking a code.
-/

namespace Shellius

/-- The factors break-glass accepts. -/
inductive FactorMethod where
  | totp | email
deriving DecidableEq

def FactorMethod.key : FactorMethod → String
  | .totp => "totp"
  | .email => "email"

/-- What `mfaService` uses from outside: the TOTP check of `otplib` at an
instant, and the SHA-256 digest. -/
structure Crypto where
  /-- `authenticator.check(code, secret)` -/
  totpCheck : Millis → String → String → Bool
  sha256 : String → String

structure UserToken where
  id : Id
  userId : Id
  type : String
  tokenHash : String
  expiresAt : Millis
  usedAt : Option Millis := none

/-- `EMAIL_OTP_TYPE` -/
def emailOtpType : String := "mfa_email_otp"

/-- `EMAIL_OTP_TTL_MS` -/
def emailOtpTtlMs : Int := 10 * 60 * 1000

def factorEnabled (user : User) : FactorMethod → Bool
  | .totp => user.mfaTotpEnabled
  | .email => user.mfaEmailEnabled

def preferredMethod (user : User) : Option FactorMethod :=
  let enabled := [FactorMethod.totp, .email].filter (factorEnabled user)
  (enabled.find? fun m ↦ user.mfaPreferredMethod = some m.key).orElse fun _ ↦ enabled.head?

/-- `availableMethods` without the backup codes, which break-glass leaves out. -/
def availableMethods (user : User) : List FactorMethod :=
  let m := [FactorMethod.totp, .email].filter (factorEnabled user)
  match preferredMethod user with
  | some first => if m.head? ≠ some first then first :: m.filter fun x ↦ x ≠ first else m
  | none => m

section

variable (crypto : Crypto) (now : Millis)

/-- `verifyTotp`, of a trimmed code. -/
def verifyTotp (user : User) (code : String) : Bool :=
  user.mfaTotpEnabled && user.mfaTotpSecret.any fun secret ↦ crypto.totpCheck now code secret

/-- The row `verifyEmailOtp` looks up: an unused code of the user. -/
def findEmailOtp (tokens : List UserToken) (userId : Id) (code : String) : Option UserToken :=
  tokens.find? fun t ↦ t.userId = userId ∧ t.type = emailOtpType ∧
    t.tokenHash = crypto.sha256 (userId ++ ":" ++ code) ∧ t.usedAt = none

/-- The second half of `verifyEmailOtp`: mark the row found as used. -/
def useEmailOtp (tokens : List UserToken) (tokenId : Id) : List UserToken :=
  tokens.map fun t ↦ if t.id = tokenId then { t with usedAt := some now } else t

def verifyEmailOtp (tokens : List UserToken) (user : User) (code : String) :
    Bool × List UserToken :=
  match findEmailOtp crypto tokens user.id code with
  | none => (false, tokens)
  | some rec =>
    if rec.expiresAt < now then (false, tokens) else (true, useEmailOtp now tokens rec.id)

def verifyFactor (tokens : List UserToken) (user : User) (method : FactorMethod) (code : String) :
    Bool × List UserToken :=
  match method with
  | .totp => (verifyTotp crypto now user code, tokens)
  | .email => verifyEmailOtp crypto now tokens user code

/-- `dispatchEmailOtp`, with the code drawn, the id of its row and whether the
mail got out.  A code that was not delivered is deleted again. -/
def dispatchEmailOtp (tokens : List UserToken) (user : User) (tokenId : Id) (code : String)
    (delivered : Bool) : Except ApiError Unit × List UserToken :=
  let others := tokens.filter fun t ↦ ¬ (t.userId = user.id ∧ t.type = emailOtpType)
  if delivered then
    (.ok (), others ++ [⟨tokenId, user.id, emailOtpType, crypto.sha256 (user.id ++ ":" ++ code),
      now + emailOtpTtlMs, none⟩])
  else
    (.error ⟨503, "We couldn't send the email. Use another sign-in method, or ask an administrator " ++
      "to check the email (SMTP) settings.", some "EMAIL_NOT_DELIVERED"⟩, others)

end

end Shellius
