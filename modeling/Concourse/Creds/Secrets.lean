import Mathlib.Data.List.Basic

/-!
# Secret managers and the retry wrapper

`atc/creds`: a secret manager answers `Get(path)` with a value, its expiration and whether
the secret exists, or an error.  A manager implementing `SecretsWithParams` also answers
`GetWithParams(path, params)`, and `creds.GetWithParams` asks it that way; any other
manager is asked by path alone.  Answers may change over time, so every answer here is
taken at a time; times (`time.Time`) and durations (`time.Duration`) are nanoseconds, as
`Int`.

`RetryableSecrets` asks again after a retryable error, and `VariableLookupFromSecrets`
turns a `((var))` into secret paths through the manager's lookup paths, or asks for the
var's own path when the manager has none, as the `idtoken` provider does.
-/

namespace Concourse
namespace Creds

/-- `SecretLookupParams`.  The secret managers only compare `InstanceVars` with `nil` and
print it, so its representation is left open. -/
structure SecretLookupParams (InstanceVars : Type) where
  team : String
  pipeline : String
  instanceVars : Option InstanceVars
  job : String
  deriving DecidableEq, Repr

/-- `SecretLookupParams.IsEmpty`. -/
def SecretLookupParams.IsEmpty {InstanceVars : Type} (s : SecretLookupParams InstanceVars) :
    Bool :=
  s.team == "" && s.pipeline == "" && s.instanceVars.isNone && s.job == ""

/-- What `Get` answers: the value, its expiration and whether the secret exists, or an
error. -/
abbrev SecretAnswer (V : Type) := Except String (V × Option Int × Bool)

variable {V P : Type}

/-- A secret manager answering at a time.  `getWithParams` is present when it implements
`SecretsWithParams`. -/
structure Secrets (V P : Type) where
  get : Int → String → SecretAnswer V
  getWithParams : Option (Int → String → P → SecretAnswer V)

/-- `creds.GetWithParams`: ask with the params when the manager takes them. -/
def getWithParams (secrets : Secrets V P) (now : Int) (path : String) (params : P) :
    SecretAnswer V :=
  match secrets.getWithParams with
  | some getWithParams => getWithParams now path params
  | none => secrets.get now path

/-! ## `RetryableSecrets` -/

/-- `SecretRetryConfig`. -/
structure SecretRetryConfig where
  attempts : Int
  interval : Int
  deriving DecidableEq, Repr

/-- The loop of `RetryableSecrets.GetWithParams`, with `n` tries left before the last one:
a retryable error sleeps `Interval` and tries again, anything else is the answer; the last
try's error names the number of attempts. -/
def retryLoop (isRetryable : String → Bool) (retryConfig : SecretRetryConfig)
    (ask : Int → SecretAnswer V) : Nat → Int → SecretAnswer V × Int
  | 0, now =>
    match ask now with
    | .error err =>
      (.error (err ++ " (after " ++ toString retryConfig.attempts ++ " retries)"), now)
    | .ok answer => (.ok answer, now)
  | n + 1, now =>
    match ask now with
    | .error err =>
      if isRetryable err then retryLoop isRetryable retryConfig ask n (now + retryConfig.interval)
      else (.error err, now)
    | .ok answer => (.ok answer, now)

/-- `RetryableSecrets.GetWithParams`: `Attempts - 1` tries, then the last one.  The answer
comes with the time it was given at. -/
def retryableGetWithParams (isRetryable : String → Bool) (secrets : Secrets V P)
    (retryConfig : SecretRetryConfig) (now : Int) (path : String) (params : P) :
    SecretAnswer V × Int :=
  retryLoop isRetryable retryConfig (fun now => getWithParams secrets now path params)
    (retryConfig.attempts - 1).toNat now

/-- A successful answer of the retry loop is the one the manager gave at that time. -/
theorem retryLoop_ok {isRetryable : String → Bool} {retryConfig : SecretRetryConfig}
    {ask : Int → SecretAnswer V} {answer : V × Option Int × Bool} {t : Int} :
    ∀ (n : Nat) (now : Int), retryLoop isRetryable retryConfig ask n now = (.ok answer, t) →
      ask t = .ok answer := by
  intro n
  induction n with
  | zero =>
    intro now h
    unfold retryLoop at h
    cases hask : ask now with
    | error err => simp [hask] at h
    | ok a =>
      simp only [hask, Prod.mk.injEq, Except.ok.injEq] at h
      obtain ⟨rfl, rfl⟩ := h
      exact hask
  | succ n ih =>
    intro now h
    unfold retryLoop at h
    cases hask : ask now with
    | error err =>
      simp only [hask] at h
      split_ifs at h
      · exact ih _ h
      · simp at h
    | ok a =>
      simp only [hask, Prod.mk.injEq, Except.ok.injEq] at h
      obtain ⟨rfl, rfl⟩ := h
      exact hask

/-- The retry wrapper answers for the path and params it was asked for. -/
theorem retryableGetWithParams_ok {isRetryable : String → Bool} {secrets : Secrets V P}
    {retryConfig : SecretRetryConfig} {now t : Int} {path : String} {params : P}
    {answer : V × Option Int × Bool}
    (h : retryableGetWithParams isRetryable secrets retryConfig now path params = (.ok answer, t)) :
    getWithParams secrets t path params = .ok answer :=
  retryLoop_ok _ now h

/-- A first answer that is not an error is returned at once. -/
theorem retryableGetWithParams_of_ok {isRetryable : String → Bool} {secrets : Secrets V P}
    {retryConfig : SecretRetryConfig} {now : Int} {path : String} {params : P}
    {answer : V × Option Int × Bool} (h : getWithParams secrets now path params = .ok answer) :
    retryableGetWithParams isRetryable secrets retryConfig now path params = (.ok answer, now) := by
  unfold retryableGetWithParams
  cases (retryConfig.attempts - 1).toNat <;> simp [retryLoop, h]

/-! ## `VariableLookupFromSecrets` -/

/-- The loop of `VariableLookupFromSecrets.get` over the lookup paths, each a
`VariableToSecretPath`: the first secret found is the answer. -/
def lookupPathsLoop {C : Type} (ask : C → String → Except String (V × Bool) × C)
    (path : String) : List (String → Except String String) → C → Except String (Option V) × C
  | [], state => (.ok none, state)
  | rule :: rules, state =>
    match rule path with
    | .error err => (.error err, state)
    | .ok secretPath =>
      match ask state secretPath with
      | (.error err, state) => (.error err, state)
      | (.ok (_, false), state) => lookupPathsLoop ask path rules state
      | (.ok (result, true), state) => (.ok (some result), state)

/-- `VariableLookupFromSecrets.get`: with no lookup paths (fake, noop and `idtoken`
managers) the var's path is the secret path.  `ask` is `GetWithParams` with the lookup
context, over the state of the secrets. -/
def variableLookupGet {C : Type} (ask : C → String → Except String (V × Bool) × C)
    (lookupPaths : List (String → Except String String)) (state : C) (path : String) :
    Except String (Option V) × C :=
  if lookupPaths.isEmpty then
    match ask state path with
    | (.error err, state) => (.error err, state)
    | (.ok (result, found), state) => (.ok (if found then some result else none), state)
  else lookupPathsLoop ask path lookupPaths state

/-! ## The `idtoken` provider -/

/-- `IDToken`: it only knows the secret `token`, which it mints for the params it is asked
with; it has no lookup paths. -/
def idToken {InstanceVars : Type}
    (generateToken : Int → SecretLookupParams InstanceVars → Except String String) :
    Secrets String (SecretLookupParams InstanceVars) where
  get _ _ := .error "IDToken provider can only be used with params"
  getWithParams := some fun now secretPath params =>
    if secretPath != "token" then
      .error "idtoken credential provider only supports the field 'token'"
    else if params.IsEmpty then
      .error "idtoken credential provider was called with empty params"
    else
      (generateToken now params).map fun token => (token, none, true)

end Creds
end Concourse
