import Concourse.Creds.Secrets

/-!
# The secret cache

`atc/creds/cached_secrets.go`: `CachedSecrets` keeps the answers of the secrets below it in a
`go-cache` store, for `Duration` (or less, when the secret's lease ends sooner) when the
secret was found and for `DurationNotFound` when it was not; errors are not kept.
`CredentialManagementConfig.NewSecrets` puts the retry wrapper over a manager and, when the
cache is enabled, the cache over that.

The store is keyed by the secret path alone, while `GetWithParams` passes the params on to
managers that take them.  Within the time to live, an answer given for one params is
served for any other params of the same path.  For the `idtoken` provider, whose only
path is `token` and whose tokens are minted for the team, pipeline and job asking, one
pipeline is served the token minted for another.

`go-cache` is not part of the repository: the store is a parameter `GoCache`, with the two
facts of its documentation the cache relies on (`GoCache.Lawful`), and `goCache` is a
store that behaves as documented.
-/

namespace Concourse
namespace Creds

/-- `SecretCacheConfig`. -/
structure SecretCacheConfig where
  enabled : Bool
  duration : Int
  durationNotFound : Int
  purgeInterval : Int
  deriving DecidableEq, Repr

/-- `CacheEntry`. -/
structure CacheEntry (V : Type) where
  value : V
  expiration : Option Int
  found : Bool
  deriving DecidableEq, Repr

/-- The calls `CachedSecrets` makes on a `*cache.Cache` with state `C`: `Get(k)` at a time
and `Set(k, x, d)` at a time. -/
structure GoCache (C E : Type) where
  get : C → Int → String → Option E
  set : C → Int → String → E → Int → C

/-- What `go-cache` documents about `Set` and `Get`: an item set with a positive duration is
got back under its key until it expires, and setting a key leaves the others alone. -/
structure GoCache.Lawful {C E : Type} (cache : GoCache C E) : Prop where
  get_set_self : ∀ c now k e d t, 0 < d → now ≤ t → t ≤ now + d →
    cache.get (cache.set c now k e d) t k = some e
  get_set_ne : ∀ c now k e d t k', k' ≠ k →
    cache.get (cache.set c now k e d) t k' = cache.get c t k'

/-- `go-cache` as documented: `Set` replaces the item of the key, to expire `d` from now,
with the default expiration for `d = 0` and never for a duration that is not positive;
`Get` answers an item that has not expired. -/
def goCache {E : Type} (defaultExpiration : Int) :
    GoCache (List (String × E × Option Int)) E where
  get items now k :=
    match items.lookup k with
    | some (e, some expiration) => if now > expiration then none else some e
    | some (e, none) => some e
    | none => none
  set items now k e d :=
    let d := if d = 0 then defaultExpiration else d
    (k, e, if 0 < d then some (now + d) else none) :: items.filter fun item => item.1 != k

theorem lookup_filter_ne {E : Type} {k k' : String} (hne : k' ≠ k) :
    ∀ items : List (String × E),
      (items.filter fun item => item.1 != k).lookup k' = items.lookup k' := by
  intro items
  induction items with
  | nil => rfl
  | cons item items ih =>
    obtain ⟨key, e⟩ := item
    by_cases hk : key = k
    · -- the filter drops the item, and the lookup passes over it
      subst hk
      have hk' : (k' == key) = false := by simpa using hne
      simp [List.lookup_cons, hk', ih]
    · have hkeep : (key != k) = true := by simpa using hk
      simp only [List.filter_cons, hkeep, if_true, List.lookup_cons]
      split <;> simp [ih]

theorem goCache_lawful {E : Type} (defaultExpiration : Int) :
    GoCache.Lawful (goCache defaultExpiration : GoCache _ E) where
  get_set_self c now k e d t hd hnow ht := by
    have hd0 : d ≠ 0 := by omega
    simp only [goCache, List.lookup_cons, beq_self_eq_true, if_pos hd, if_neg hd0]
    rw [if_neg (by omega)]
  get_set_ne c now k e d t k' hne := by
    have hk : (k' == k) = false := by simpa using hne
    simp only [goCache, List.lookup_cons, hk, lookup_filter_ne hne]

variable {C V P : Type}

/-! ## `CachedSecrets.GetWithParams` -/

/-- How long `CachedSecrets.GetWithParams` keeps an answer given at `now`. -/
def cacheDuration (cacheConfig : SecretCacheConfig) (now : Int) (expiration : Option Int)
    (found : Bool) : Int :=
  if found then
    match expiration with
    | some expiration =>
      -- a lease that ends sooner shortens the time to live, unless it is already over
      let itemDuration := expiration - now
      if itemDuration < cacheConfig.duration ∧ 0 < itemDuration then itemDuration
      else cacheConfig.duration
    | none => cacheConfig.duration
  else cacheConfig.durationNotFound

/-- `CachedSecrets.GetWithParams` over the secrets `inner`: the entry of the path when there
is one, else `inner`'s answer, kept under the path unless it is an error. -/
def cachedGetWithParams (cache : GoCache C (CacheEntry V)) (cacheConfig : SecretCacheConfig)
    (inner : Int → String → P → SecretAnswer V × Int) (state : C) (now : Int)
    (secretPath : String) (context : P) : SecretAnswer V × C × Int :=
  match cache.get state now secretPath with
  | some result => (.ok (result.value, result.expiration, result.found), state, now)
  | none =>
    match inner now secretPath context with
    | (.error err, now) => (.error err, state, now)
    | (.ok (value, expiration, found), now) =>
      (.ok (value, expiration, found),
        cache.set state now secretPath { value, expiration, found }
          (cacheDuration cacheConfig now expiration found), now)

/-- A hit answers the entry, whatever the params. -/
theorem cachedGetWithParams_hit {cache : GoCache C (CacheEntry V)}
    {cacheConfig : SecretCacheConfig} {inner : Int → String → P → SecretAnswer V × Int}
    {state : C} {now : Int} {secretPath : String} {entry : CacheEntry V}
    (hit : cache.get state now secretPath = some entry) (context : P) :
    cachedGetWithParams cache cacheConfig inner state now secretPath context =
      (.ok (entry.value, entry.expiration, entry.found), state, now) := by
  simp [cachedGetWithParams, hit]

/-- A miss asks the secrets below with the same path and params. -/
theorem cachedGetWithParams_miss {cache : GoCache C (CacheEntry V)}
    {cacheConfig : SecretCacheConfig} {inner : Int → String → P → SecretAnswer V × Int}
    {state : C} {now t : Int} {secretPath : String} {context : P}
    {answer : V × Option Int × Bool} (miss : cache.get state now secretPath = none)
    (hinner : inner now secretPath context = (.ok answer, t)) :
    cachedGetWithParams cache cacheConfig inner state now secretPath context =
      (.ok answer, cache.set state t secretPath ⟨answer.1, answer.2.1, answer.2.2⟩
        (cacheDuration cacheConfig t answer.2.1 answer.2.2), t) := by
  simp [cachedGetWithParams, miss, hinner]

/-! ## The secrets `NewSecrets` builds -/

/-- `CredentialManagementConfig`. -/
structure CredentialManagementConfig where
  retryConfig : SecretRetryConfig
  cacheConfig : SecretCacheConfig
  deriving DecidableEq, Repr

/-- `GetWithParams` on the secrets `NewSecrets` builds over `secrets`: the retry wrapper, and
the cache over it when enabled.  The state is the cache's. -/
def CredentialManagementConfig.getWithParams (c : CredentialManagementConfig)
    (isRetryable : String → Bool) (cache : GoCache C (CacheEntry V)) (secrets : Secrets V P)
    (state : C) (now : Int) (path : String) (params : P) : SecretAnswer V × C × Int :=
  let retryable := retryableGetWithParams isRetryable secrets c.retryConfig
  if c.cacheConfig.enabled then
    cachedGetWithParams cache c.cacheConfig retryable state now path params
  else
    let (answer, now) := retryable now path params
    (answer, state, now)

/-- A run of calls `(time, path, params)` on those secrets, in order, and their answers. -/
def CredentialManagementConfig.run (c : CredentialManagementConfig)
    (isRetryable : String → Bool) (cache : GoCache C (CacheEntry V)) (secrets : Secrets V P) :
    C → List (Int × String × P) → List (SecretAnswer V)
  | _, [] => []
  | state, (now, path, params) :: calls =>
    let (answer, state, _) := c.getWithParams isRetryable cache secrets state now path params
    answer :: c.run isRetryable cache secrets state calls

/-- With the cache enabled, a found secret asked for at `t₀` with `params₀` is served to a
call for the same path with any other `params₁` within the cache duration, without asking
the manager. -/
theorem run_served_across_params {cache : GoCache C (CacheEntry V)} (hcache : cache.Lawful)
    {c : CredentialManagementConfig} (henabled : c.cacheConfig.enabled = true)
    (hduration : 0 < c.cacheConfig.duration) (isRetryable : String → Bool)
    {secrets : Secrets V P} {state : C} {t₀ t₁ : Int} {path : String} {params₀ : P}
    {value : V} (hmiss : cache.get state t₀ path = none)
    (hanswer : getWithParams secrets t₀ path params₀ = .ok (value, none, true))
    (ht₀ : t₀ ≤ t₁) (ht₁ : t₁ ≤ t₀ + c.cacheConfig.duration) (params₁ : P) :
    c.run isRetryable cache secrets state [(t₀, path, params₀), (t₁, path, params₁)] =
      [.ok (value, none, true), .ok (value, none, true)] := by
  -- the first call misses, asks the manager once and keeps its answer for `Duration`
  have hretry : retryableGetWithParams isRetryable secrets c.retryConfig t₀ path params₀ =
      (.ok (value, none, true), t₀) :=
    retryableGetWithParams_of_ok hanswer
  have hfirst : cachedGetWithParams cache c.cacheConfig
      (retryableGetWithParams isRetryable secrets c.retryConfig) state t₀ path params₀ =
      (.ok (value, none, true), cache.set state t₀ path ⟨value, none, true⟩
        (cacheDuration c.cacheConfig t₀ none true), t₀) :=
    cachedGetWithParams_miss hmiss hretry
  have hhit : cache.get (cache.set state t₀ path ⟨value, none, true⟩
      (cacheDuration c.cacheConfig t₀ none true)) t₁ path = some ⟨value, none, true⟩ :=
    hcache.get_set_self _ _ _ _ _ _ hduration ht₀ ht₁
  simp only [CredentialManagementConfig.run, CredentialManagementConfig.getWithParams,
    henabled, if_true, hfirst, cachedGetWithParams_hit hhit]

/-- Two pipelines of two teams ask `idtoken` for `token` half a minute apart, the cache
keeping answers for a minute; the token generator stands for the pipeline-scoped subject
the real tokens carry. -/
theorem run_served_across_params_idToken :
    let c : CredentialManagementConfig :=
      { retryConfig := { attempts := 5, interval := 1 }
        cacheConfig := { enabled := true, duration := 60, durationNotFound := 10,
                         purgeInterval := 600 } }
    let cache : GoCache (List (String × CacheEntry String × Option Int)) (CacheEntry String) :=
      goCache 60
    let secrets : Secrets String (SecretLookupParams Unit) :=
      idToken fun _ params => .ok (params.team ++ "/" ++ params.pipeline)
    let params₀ : SecretLookupParams Unit := ⟨"a", "p", none, "j"⟩
    let params₁ : SecretLookupParams Unit := ⟨"b", "p", none, "j"⟩
    cache.Lawful ∧ c.cacheConfig.enabled = true ∧ 0 < c.cacheConfig.duration ∧
      cache.get [] 0 "token" = none ∧
      getWithParams secrets 0 "token" params₀ = .ok ("a/p", none, true) ∧
      (0 : Int) ≤ 30 ∧ (30 : Int) ≤ 0 + c.cacheConfig.duration ∧
      c.run (fun _ => false) cache secrets [] [(0, "token", params₀), (30, "token", params₁)] =
        [.ok ("a/p", none, true), .ok ("a/p", none, true)] :=
  ⟨goCache_lawful 60, rfl, by decide, rfl, rfl, by decide, by decide,
    run_served_across_params (goCache_lawful 60) rfl (by decide) _ rfl rfl (by decide) (by decide) _⟩

end Creds
end Concourse
