import Chronos.Lib.TokenBucket
import Mathlib.Algebra.Order.Ring.Rat
import Mathlib.Data.Rat.Floor

/-!
# The rate limiter

`api/src/middleware/rateLimit.ts`, over exact rational numbers.  The Lua script
is one step on the store.  Redis drops a key some time after its expiry, and
the script takes a missing key for a full bucket.
-/

namespace Chronos

structure RateLimitConfig where
  maxTokens : ℚ
  windowSecs : ℚ

/-- The hash under one key, with the instant at which it expires. -/
structure Bucket where
  tokens : ℚ
  lastRefill : ℚ
  expiresAt : ℚ

/-- The keys of the limiter in Redis. -/
abbrev BucketStore : Type := String → Option Bucket

/-- No key of the limiter is in Redis. -/
def BucketStore.empty : BucketStore := fun _ => none

/-- Whether Redis still has a key with this expiry, by its clock. -/
abbrev KeyExpiry : Type := ℚ → ℚ → Bool

namespace KeyExpiry

/-- A key lives until its expiry, and no longer. -/
structure Prompt (live : KeyExpiry) : Prop where
  before : ∀ expiresAt now, now < expiresAt → live expiresAt now = true
  after : ∀ expiresAt now, expiresAt < now → live expiresAt now = false

/-- No key is gone before its expiry. -/
def Keeps (live : KeyExpiry) : Prop :=
  ∀ expiresAt now, now < expiresAt → live expiresAt now = true

theorem Prompt.keeps {live : KeyExpiry} (prompt : live.Prompt) : live.Keeps :=
  prompt.before

/-- Keys that never expire. -/
def never : KeyExpiry := fun _ _ => true

theorem never_keeps : never.Keeps := fun _ _ _ => rfl

end KeyExpiry

/-- `return {allowed, retryAfter}`. -/
structure LuaResult where
  allowed : Int
  retryAfter : Int
  deriving DecidableEq

/-- `HMGET key tokens lastRefill`. -/
def hmget (live : KeyExpiry) (store : BucketStore) (key : String) (now : ℚ) :
    Option Bucket :=
  (store key).filter fun bucket => live bucket.expiresAt now

def luaScript (live : KeyExpiry) (store : BucketStore) (key : String)
    (now maxTok windowSec : ℚ) : BucketStore × LuaResult :=
  let bucket := hmget live store key now
  let tokens := (bucket.map Bucket.tokens).getD maxTok
  let lastRefill := (bucket.map Bucket.lastRefill).getD now
  let elapsed := now - lastRefill
  let refill := elapsed / windowSec * maxTok
  let tokens := min maxTok (tokens + refill)
  if tokens < 1 then
    let waitFrac := (1 - tokens) / (maxTok / windowSec)
    (Function.update store key (some ⟨tokens, now, now + windowSec * 2⟩),
      ⟨0, ⌈waitFrac⌉⟩)
  else
    (Function.update store key (some ⟨tokens - 1, now, now + windowSec * 2⟩),
      ⟨1, 0⟩)

/-- A request as the handler of `rateLimit(endpoint, config)` sees it. -/
structure RateRequest where
  endpoint : String
  config : RateLimitConfig
  sub : Option String
  ip : Option String
  now : ℚ

/-- The headers that the handler sets, and the error that it throws. -/
structure RateReply where
  headers : List (String × ℚ)
  rateLimitError : Option Int

namespace RateRequest

def identity (request : RateRequest) : String :=
  (request.sub.or request.ip).getD "anonymous"

def key (request : RateRequest) : String :=
  s!"ratelimit:{request.identity}:{request.endpoint}"

end RateRequest

def rateLimit (live : KeyExpiry) (store : BucketStore)
    (request : RateRequest) : BucketStore × RateReply :=
  let config := request.config
  let (next, result) := luaScript live store request.key request.now
    config.maxTokens config.windowSecs
  if result.allowed = 1 then
    (next, ⟨[("X-RateLimit-Limit", config.maxTokens)], none⟩)
  else
    (next,
      { headers :=
          [("Retry-After", result.retryAfter),
            ("X-RateLimit-Limit", config.maxTokens),
            ("X-RateLimit-Remaining", 0),
            ("X-RateLimit-Reset", ⌈request.now + result.retryAfter⌉)]
        rateLimitError := some result.retryAfter })

/-- The requests in the order in which Redis runs their scripts, each with its
reply. -/
def replies (live : KeyExpiry) : BucketStore → List RateRequest →
    List (RateRequest × RateReply)
  | _, [] => []
  | store, request :: requests =>
      (request, (rateLimit live store request).2) ::
        replies live (rateLimit live store request).1 requests

/-- The times at which requests to this key were let through. -/
def admittedTimes (served : List (RateRequest × RateReply)) (key : String) :
    List ℚ :=
  (served.filter fun entry =>
    entry.1.key = key ∧ entry.2.rateLimitError = none).map (·.1.now)

/-- The store after these requests. -/
def storeAfter (live : KeyExpiry) (store : BucketStore)
    (requests : List RateRequest) : BucketStore :=
  requests.foldl (fun store request => (rateLimit live store request).1) store

/-! ## One bucket -/

/-- What the store says about a key is this token bucket: a key that was never
used stands for a full one. -/
structure Represents (config : RateLimitConfig) (entry : Option Bucket)
    (bucket : TokenBucket ℚ) : Prop where
  absent : entry = none → bucket.tokens = config.maxTokens
  present : ∀ found, entry = some found →
    found = ⟨bucket.tokens, bucket.time, bucket.time + config.windowSecs * 2⟩
  nonneg : 0 ≤ bucket.tokens
  le_maxTokens : bucket.tokens ≤ config.maxTokens

section Steps

variable {live live' : KeyExpiry} {store store' : BucketStore}
  {config : RateLimitConfig} {key : String} {bucket : TokenBucket ℚ} {now : ℚ}
  {request : RateRequest} {requests : List RateRequest}

namespace RateLimitConfig

/-- Tokens for each second. -/
def rate (config : RateLimitConfig) : ℚ :=
  config.maxTokens / config.windowSecs

structure Valid (config : RateLimitConfig) : Prop where
  maxTokens : 1 ≤ config.maxTokens
  windowSecs : 0 < config.windowSecs

theorem Valid.nonneg (valid : config.Valid) : 0 ≤ config.maxTokens :=
  zero_le_one.trans valid.maxTokens

theorem Valid.rate_nonneg (valid : config.Valid) : 0 ≤ config.rate :=
  div_nonneg valid.nonneg valid.windowSecs.le

theorem Valid.rate_mul_window (valid : config.Valid) :
    config.rate * config.windowSecs = config.maxTokens :=
  div_mul_cancel₀ _ valid.windowSecs.ne'

end RateLimitConfig

theorem tokens_eq_level (keeps : live.Keeps) (valid : config.Valid)
    (represents : Represents config (store key) bucket)
    (later : bucket.time ≤ now) :
    min config.maxTokens
        (((hmget live store key now).map Bucket.tokens).getD config.maxTokens +
          (now - ((hmget live store key now).map Bucket.lastRefill).getD now) /
            config.windowSecs * config.maxTokens) =
      bucket.level config.maxTokens config.rate now := by
  have missing : min config.maxTokens
      (config.maxTokens + (now - now) / config.windowSecs * config.maxTokens) =
      config.maxTokens := by
    simp
  cases entry : store key with
  | none =>
      have full := represents.absent entry
      have gone : hmget live store key now = none := by
        simp [hmget, entry]
      rw [TokenBucket.level_of_full valid.rate_nonneg full later, gone]
      exact missing
  | some found =>
      have same := represents.present found entry
      subst same
      cases isLive :
          live (bucket.time + config.windowSecs * 2) now with
      | true =>
          simp only [hmget, entry, Option.filter_some, isLive, if_true,
            Option.map_some, Option.getD_some, TokenBucket.level,
            RateLimitConfig.rate]
          congr 2
          ring
      | false =>
          have expired : bucket.time + config.windowSecs * 2 ≤ now := by
            by_contra early
            rw [keeps _ _ (not_le.mp early)] at isLive
            cases isLive
          have refilled :
              config.maxTokens ≤ config.rate * (now - bucket.time) := by
            have twice : config.rate * (config.windowSecs * 2) ≤
                config.rate * (now - bucket.time) := by
              apply mul_le_mul_of_nonneg_left _ valid.rate_nonneg
              linarith
            have whole := valid.rate_mul_window
            have nonneg := valid.nonneg
            rw [← mul_assoc, whole] at twice
            linarith
          have gone : hmget live store key now = none := by
            simp [hmget, entry, Option.filter_some, isLive]
          rw [TokenBucket.level_eq_capacity represents.nonneg refilled, gone]
          exact missing

/-- The tokens that the script finds under this key. -/
def foundTokens (live : KeyExpiry) (store : BucketStore) (key : String)
    (config : RateLimitConfig) (now : ℚ) : ℚ :=
  min config.maxTokens
    (((hmget live store key now).map Bucket.tokens).getD config.maxTokens +
      (now - ((hmget live store key now).map Bucket.lastRefill).getD now) /
        config.windowSecs * config.maxTokens)

/-- The script is one step of a token bucket whose level it finds. -/
theorem luaScript_of_level
    (level : foundTokens live store key config now =
      bucket.level config.maxTokens config.rate now) :
    luaScript live store key now config.maxTokens config.windowSecs =
      (Function.update store key (some
        ⟨(bucket.serve config.maxTokens config.rate now).tokens, now,
          now + config.windowSecs * 2⟩),
        if 1 ≤ bucket.level config.maxTokens config.rate now then ⟨1, 0⟩
        else
          ⟨0, ⌈(1 - bucket.level config.maxTokens config.rate now) /
            config.rate⌉⟩) := by
  unfold foundTokens at level
  unfold luaScript
  dsimp only
  rw [level, TokenBucket.serve]
  by_cases admits : 1 ≤ bucket.level config.maxTokens config.rate now
  · rw [if_neg (not_lt.mpr admits), if_pos admits, if_pos admits]
  · rw [if_pos (not_le.mp admits), if_neg admits, if_neg admits]
    rfl

theorem Represents.serve (represents : Represents config (store key) bucket)
    (valid : config.Valid) (later : bucket.time ≤ now) :
    Represents config
      (some ⟨(bucket.serve config.maxTokens config.rate now).tokens, now,
        now + config.windowSecs * 2⟩)
      (bucket.serve config.maxTokens config.rate now) := by
  have found := TokenBucket.level_nonneg valid.nonneg valid.rate_nonneg
    represents.nonneg later
  constructor
  · intro absent
    cases absent
  · intro other same
    cases same
    rfl
  · exact TokenBucket.serve_nonneg found
  · exact TokenBucket.serve_le_capacity

/-! ## The handler -/

theorem rateLimit_other (other : request.key ≠ key) :
    (rateLimit live store request).1 key = store key := by
  unfold rateLimit luaScript
  dsimp only
  split
  · split
    · exact Function.update_of_ne (Ne.symm other) ..
    · exact Function.update_of_ne (Ne.symm other) ..
  · split
    · exact Function.update_of_ne (Ne.symm other) ..
    · exact Function.update_of_ne (Ne.symm other) ..

/-- The reply to a request that finds this many tokens. -/
def replyFor (config : RateLimitConfig) (now level : ℚ) : RateReply :=
  if 1 ≤ level then ⟨[("X-RateLimit-Limit", config.maxTokens)], none⟩
  else
    { headers :=
        [("Retry-After", ⌈(1 - level) / config.rate⌉),
          ("X-RateLimit-Limit", config.maxTokens),
          ("X-RateLimit-Remaining", 0),
          ("X-RateLimit-Reset", ⌈now + ⌈(1 - level) / config.rate⌉⌉)]
      rateLimitError := some ⌈(1 - level) / config.rate⌉ }

theorem rateLimitError_replyFor {level : ℚ} :
    (replyFor config now level).rateLimitError = none ↔ 1 ≤ level := by
  unfold replyFor
  split
  · rename_i admits
    exact iff_of_true rfl admits
  · rename_i refused
    exact iff_of_false (by simp) refused

theorem rateLimit_of_level
    (level : foundTokens live store request.key request.config request.now =
      bucket.level request.config.maxTokens request.config.rate request.now) :
    rateLimit live store request =
      (Function.update store request.key (some
        ⟨(bucket.serve request.config.maxTokens request.config.rate
          request.now).tokens, request.now,
          request.now + request.config.windowSecs * 2⟩),
        replyFor request.config request.now
          (bucket.level request.config.maxTokens request.config.rate
            request.now)) := by
  unfold rateLimit replyFor
  dsimp only
  rw [luaScript_of_level level]
  by_cases admits : 1 ≤ bucket.level request.config.maxTokens
      request.config.rate request.now
  · simp [admits]
  · simp [admits]

/-- A request to the key is one step of its token bucket. -/
theorem rateLimit_eq (keeps : live.Keeps) (valid : request.config.Valid)
    (represents : Represents request.config (store request.key) bucket)
    (later : bucket.time ≤ request.now) :
    rateLimit live store request =
      (Function.update store request.key (some
        ⟨(bucket.serve request.config.maxTokens request.config.rate
          request.now).tokens, request.now,
          request.now + request.config.windowSecs * 2⟩),
        replyFor request.config request.now
          (bucket.level request.config.maxTokens request.config.rate
            request.now)) :=
  rateLimit_of_level (tokens_eq_level keeps valid represents later)

theorem Represents.rateLimit (keeps : live.Keeps) (valid : request.config.Valid)
    (represents : Represents request.config (store request.key) bucket)
    (later : bucket.time ≤ request.now) :
    Represents request.config
      ((Chronos.rateLimit live store request).1 request.key)
      (bucket.serve request.config.maxTokens request.config.rate
        request.now) := by
  rw [rateLimit_eq keeps valid represents later]
  dsimp only
  rw [Function.update_self]
  exact represents.serve valid later

theorem Represents.other (represents : Represents config (store key) bucket)
    (other : request.key ≠ key) (expiry : KeyExpiry) :
    Represents config ((Chronos.rateLimit expiry store request).1 key)
      bucket := by
  rw [rateLimit_other other]
  exact represents

/-! ## Any number of requests -/

/-- The requests come in the order of time, and those to this key under this
configuration. -/
structure Ordered (key : String) (config : RateLimitConfig) (since : ℚ)
    (requests : List RateRequest) : Prop where
  sorted : requests.Pairwise fun first second => first.now ≤ second.now
  later : ∀ request ∈ requests, since ≤ request.now
  limiter : ∀ request ∈ requests, request.key = key → request.config = config

theorem Ordered.tail {since : ℚ}
    (ordered : Ordered key config since (request :: requests)) :
    Ordered key config request.now requests := by
  obtain ⟨rest, sorted⟩ := List.pairwise_cons.mp ordered.sorted
  exact ⟨sorted, rest, fun other member =>
    ordered.limiter other (List.mem_cons_of_mem _ member)⟩

theorem Ordered.skip {since : ℚ}
    (ordered : Ordered key config since (request :: requests)) :
    Ordered key config since requests := by
  obtain ⟨_, sorted⟩ := List.pairwise_cons.mp ordered.sorted
  exact ⟨sorted,
    fun other member => ordered.later other (List.mem_cons_of_mem _ member),
    fun other member => ordered.limiter other (List.mem_cons_of_mem _ member)⟩

theorem admittedTimes_eq (keeps : live.Keeps) (valid : config.Valid)
    (represents : Represents config (store key) bucket)
    (ordered : Ordered key config bucket.time requests) :
    admittedTimes (replies live store requests) key =
      TokenBucket.admitted config.maxTokens config.rate bucket
        ((requests.filter fun request => request.key = key).map (·.now)) := by
  induction requests generalizing store bucket with
  | nil => rfl
  | cons request requests induction =>
      have head : request ∈ request :: requests := List.mem_cons_self
      by_cases same : request.key = key
      · subst key
        obtain rfl := ordered.limiter request head rfl
        have later := ordered.later request head
        have reply := congrArg Prod.snd
          (rateLimit_eq keeps valid represents later)
        have rest := induction
          (represents.rateLimit keeps valid later) ordered.tail
        simp only [admittedTimes] at rest
        simp only [replies, admittedTimes, List.filter_cons, reply,
          rateLimitError_replyFor, TokenBucket.admitted, true_and,
          decide_true, if_true, List.map_cons]
        split
        · rename_i admits
          have admits := of_decide_eq_true admits
          rw [if_pos admits, List.map_cons, rest]
        · rename_i refused
          have refused := of_decide_eq_false (Bool.eq_false_iff.mpr refused)
          rw [if_neg refused, rest]
      · have rest := induction (represents.other same live) ordered.skip
        simp only [admittedTimes] at rest
        simp only [replies, admittedTimes, List.filter_cons, same, false_and,
          decide_false, Bool.false_eq_true, if_false]
        exact rest

/-- Expiry changes no reply. -/
theorem replies_eq (keeps : live.Keeps) (keeps' : live'.Keeps)
    (valid : config.Valid)
    (represents : Represents config (store key) bucket)
    (represents' : Represents config (store' key) bucket)
    (ordered : Ordered key config bucket.time requests) :
    (replies live store requests).filter (fun entry => entry.1.key = key) =
      (replies live' store' requests).filter
        (fun entry => entry.1.key = key) := by
  induction requests generalizing store store' bucket with
  | nil => rfl
  | cons request requests induction =>
      have head : request ∈ request :: requests := List.mem_cons_self
      by_cases same : request.key = key
      · subst key
        obtain rfl := ordered.limiter request head rfl
        have later := ordered.later request head
        have reply := congrArg Prod.snd
          (rateLimit_eq keeps valid represents later)
        have reply' := congrArg Prod.snd
          (rateLimit_eq keeps' valid represents' later)
        have rest := induction (represents.rateLimit keeps valid later)
          (represents'.rateLimit keeps' valid later) ordered.tail
        simp only [replies, List.filter_cons, reply, reply', rest]
      · have rest := induction (represents.other same live)
          (represents'.other same live') ordered.skip
        simp only [replies, List.filter_cons, same, decide_false,
          Bool.false_eq_true, if_false]
        exact rest

theorem exists_represents (keeps : live.Keeps) (valid : config.Valid)
    (represents : Represents config (store key) bucket)
    (ordered : Ordered key config bucket.time requests) :
    ∃ bucket', Represents config (storeAfter live store requests key)
      bucket' := by
  induction requests generalizing store bucket with
  | nil => exact ⟨bucket, represents⟩
  | cons request requests induction =>
      have head : request ∈ request :: requests := List.mem_cons_self
      by_cases same : request.key = key
      · subst key
        obtain rfl := ordered.limiter request head rfl
        exact induction (represents.rateLimit keeps valid
          (ordered.later request head)) ordered.tail
      · exact induction (represents.other same live) ordered.skip

/-- What the limiter guarantees for one key, from a store without buckets. -/
structure RateLimited (live : KeyExpiry) (requests : List RateRequest)
    (key : String) (config : RateLimitConfig) : Prop where
  bound : ∀ start length : ℚ, 0 ≤ length →
    ((admittedTimes (replies live .empty requests) key).countP
        (fun time => start ≤ time ∧ time ≤ start + length) : ℚ) ≤
      config.maxTokens + config.maxTokens * length / config.windowSecs
  stored : ∀ bucket,
    storeAfter live .empty requests key = some bucket →
    0 ≤ bucket.tokens ∧ bucket.tokens ≤ config.maxTokens
  unexpired :
    (replies live .empty requests).filter (fun entry => entry.1.key = key) =
      (replies .never .empty requests).filter
        (fun entry => entry.1.key = key)

/-- Every interval sees at most as many admissions as a full bucket and its
refill allow, the stored tokens stay in range, and expiry has no effect. -/
theorem rate_limited (prompt : live.Prompt) (valid : config.Valid)
    (sorted : requests.Pairwise fun first second => first.now ≤ second.now)
    (limiter : ∀ request ∈ requests, request.key = key →
      request.config = config) :
    RateLimited live requests key config := by
  have begins : ∃ since, ∀ request ∈ requests, since ≤ request.now := by
    cases requests with
    | nil => exact ⟨0, by simp⟩
    | cons first requests =>
        refine ⟨first.now, ?_⟩
        intro request member
        rcases List.mem_cons.mp member with rfl | later
        · exact le_rfl
        · exact (List.pairwise_cons.mp sorted).1 request later
  obtain ⟨since, later⟩ := begins
  have ordered : Ordered key config since requests := ⟨sorted, later, limiter⟩
  have represents : Represents config (BucketStore.empty key)
      ⟨config.maxTokens, since⟩ := by
    constructor
    · exact fun _ => rfl
    · intro found same
      cases same
    · exact valid.nonneg
    · exact le_rfl
  constructor
  · intro start length nonneg
    rw [admittedTimes_eq prompt.keeps valid represents ordered]
    have forward : start ≤ start + length := by linarith
    have sortedTimes : ((requests.filter fun request => request.key = key).map
        (·.now)).Pairwise (· ≤ ·) :=
      List.pairwise_map.mpr (sorted.sublist List.filter_sublist)
    have most := TokenBucket.admitted_le valid.nonneg valid.rate_nonneg
      represents.nonneg sortedTimes (by
        intro now member
        obtain ⟨request, filtered, rfl⟩ := List.mem_map.mp member
        exact later request (List.mem_of_mem_filter filtered)) forward
    calc _ ≤ config.maxTokens + config.rate * (start + length - start) := most
      _ = config.maxTokens + config.maxTokens * length / config.windowSecs := by
        rw [RateLimitConfig.rate, add_sub_cancel_left]
        ring
  · intro bucket found
    obtain ⟨last, represents⟩ :=
      exists_represents prompt.keeps valid represents ordered
    rw [found] at represents
    rw [represents.present bucket rfl]
    exact ⟨represents.nonneg, represents.le_maxTokens⟩
  · exact replies_eq prompt.keeps KeyExpiry.never_keeps valid represents
      represents ordered

/-- One token for each minute: of three requests the second is refused, and
the third finds an expired key. -/
theorem rate_limited_minute :
    RateLimited (fun expiresAt now => now ≤ expiresAt)
        [⟨"auth", ⟨1, 60⟩, some "ada", none, 0⟩,
          ⟨"auth", ⟨1, 60⟩, some "ada", none, 30⟩,
          ⟨"auth", ⟨1, 60⟩, some "ada", none, 200⟩]
        "ratelimit:ada:auth" ⟨1, 60⟩ ∧
      admittedTimes
        (replies (fun expiresAt now => now ≤ expiresAt) .empty
          [⟨"auth", ⟨1, 60⟩, some "ada", none, 0⟩,
            ⟨"auth", ⟨1, 60⟩, some "ada", none, 30⟩,
            ⟨"auth", ⟨1, 60⟩, some "ada", none, 200⟩])
        "ratelimit:ada:auth" = [0, 200] := by
  constructor
  · apply rate_limited
    · constructor
      · intro expiresAt now early
        exact decide_eq_true early.le
      · intro expiresAt now late
        exact decide_eq_false (not_le.mpr late)
    · constructor
      · norm_num
      · norm_num
    · norm_num
    · simp
  · decide +kernel

end Steps

end Chronos
