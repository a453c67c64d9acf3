import Chronos.RateLimit

/-!
# Refused requests and Retry-After

A refused request writes back all the tokens that it found, with the time at
which it found them, so that later requests find what they would have found
without it.
-/

namespace Chronos

/-- The state of one bucket.  If keys never expire, this is any pair of
numbers; else what the script has stored. -/
structure Stored (live : KeyExpiry) (config : RateLimitConfig) (since : ℚ)
    (entry : Option Bucket) (bucket : TokenBucket ℚ) : Prop where
  absent : entry = none → bucket.tokens = config.maxTokens ∧ bucket.time ≤ since
  present : ∀ found, entry = some found →
    found.tokens = bucket.tokens ∧ found.lastRefill = bucket.time
  lasting : (∀ expiresAt now, live expiresAt now = true) ∨
    live.Keeps ∧ Represents config entry bucket ∧ bucket.time ≤ since

/-- Requests with their replies, and whether they are marked as inserted. -/
def marked (live : KeyExpiry) (store : BucketStore)
    (requests : List (RateRequest × Bool)) :
    List ((RateRequest × RateReply) × Bool) :=
  (replies live store (requests.map Prod.fst)).zip (requests.map Prod.snd)

section Steps

variable {live : KeyExpiry} {store store' : BucketStore}
  {config : RateLimitConfig} {key : String} {bucket bucket' : TokenBucket ℚ}
  {since now : ℚ} {request : RateRequest} {requests : List RateRequest}

/-- Whatever the entry is, if keys never expire, it is the state of a
bucket. -/
theorem exists_stored (lasting : ∀ expiresAt now, live expiresAt now = true)
    (config : RateLimitConfig) (since : ℚ) (entry : Option Bucket) :
    ∃ bucket, Stored live config since entry bucket := by
  cases entry with
  | none =>
      exact ⟨⟨config.maxTokens, since⟩, fun _ => ⟨rfl, le_rfl⟩, nofun,
        .inl lasting⟩
  | some found =>
      refine ⟨⟨found.tokens, found.lastRefill⟩, nofun, ?_, .inl lasting⟩
      intro other same
      cases same
      exact ⟨rfl, rfl⟩

theorem Represents.stored (represents : Represents config (store key) bucket)
    (keeps : live.Keeps) (later : bucket.time ≤ since) :
    Stored live config since (store key) bucket := by
  refine ⟨fun absent => ⟨represents.absent absent, later⟩, ?_,
    .inr ⟨keeps, represents, later⟩⟩
  intro found same
  rw [represents.present found same]
  exact ⟨rfl, rfl⟩

theorem Stored.foundTokens (stored : Stored live config since (store key) bucket)
    (valid : config.Valid) (later : since ≤ now) :
    foundTokens live store key config now =
      bucket.level config.maxTokens config.rate now := by
  rcases stored.lasting with lasting | ⟨keeps, represents, time⟩
  · unfold Chronos.foundTokens
    cases entry : store key with
    | none =>
        obtain ⟨full, time⟩ := stored.absent entry
        rw [TokenBucket.level_of_full valid.rate_nonneg full
          (time.trans later)]
        simp [hmget, entry]
    | some found =>
        obtain ⟨tokens, time⟩ := stored.present found entry
        simp only [hmget, entry, Option.filter_some, lasting, if_true,
          Option.map_some, Option.getD_some, TokenBucket.level,
          RateLimitConfig.rate, tokens, time]
        congr 2
        ring
  · exact tokens_eq_level keeps valid represents (time.trans later)

theorem Stored.rateLimit
    (stored : Stored live request.config since (store request.key) bucket)
    (valid : request.config.Valid) (later : since ≤ request.now) :
    (Chronos.rateLimit live store request).2 =
        replyFor request.config request.now
          (bucket.level request.config.maxTokens request.config.rate
            request.now) ∧
      Stored live request.config request.now
        ((Chronos.rateLimit live store request).1 request.key)
        (bucket.serve request.config.maxTokens request.config.rate
          request.now) := by
  have level := rateLimit_of_level (stored.foundTokens valid later)
  rw [level]
  refine ⟨rfl, ?_⟩
  dsimp only
  rw [Function.update_self]
  refine ⟨nofun, ?_, ?_⟩
  · intro found same
    cases same
    exact ⟨rfl, rfl⟩
  · rcases stored.lasting with lasting | ⟨keeps, represents, time⟩
    · exact .inl lasting
    · exact .inr ⟨keeps, represents.serve valid (time.trans later), le_rfl⟩

theorem Stored.later (stored : Stored live config since (store key) bucket)
    (later : since ≤ now) : Stored live config now (store key) bucket := by
  refine ⟨?_, stored.present, ?_⟩
  · intro absent
    obtain ⟨full, time⟩ := stored.absent absent
    exact ⟨full, time.trans later⟩
  · rcases stored.lasting with lasting | ⟨keeps, represents, time⟩
    · exact .inl lasting
    · exact .inr ⟨keeps, represents, time.trans later⟩

theorem Stored.other (stored : Stored live config since (store key) bucket)
    (other : request.key ≠ key) (later : since ≤ request.now) :
    Stored live config request.now
      ((Chronos.rateLimit live store request).1 key) bucket := by
  rw [rateLimit_other other]
  exact stored.later later

theorem Stored.refused {next : RateRequest} (valid : config.Valid)
    (stored : Stored live config since (store key) bucket)
    (ordered : Ordered key config since (requests ++ [next]))
    (refused : ∀ entry ∈ replies live store requests, entry.1.key = key →
      entry.2.rateLimitError ≠ none) :
    ∃ after, Stored live config next.now
        (storeAfter live store requests key) after ∧
      ∀ later, after.level config.maxTokens config.rate later =
        bucket.level config.maxTokens config.rate later := by
  induction requests generalizing store bucket since with
  | nil =>
      refine ⟨bucket, stored.later ?_, fun _ => rfl⟩
      exact ordered.later next List.mem_cons_self
  | cons request requests induction =>
      have head : request ∈ request :: requests ++ [next] :=
        List.mem_cons_self
      have rest : ∀ entry ∈
          replies live (Chronos.rateLimit live store request).1 requests,
          entry.1.key = key → entry.2.rateLimitError ≠ none :=
        fun entry member => refused entry (List.mem_cons_of_mem _ member)
      by_cases same : request.key = key
      · subst key
        obtain rfl := ordered.limiter request head rfl
        obtain ⟨reply, served⟩ :=
          stored.rateLimit valid (ordered.later request head)
        have turned : ¬1 ≤ bucket.level request.config.maxTokens
            request.config.rate request.now := by
          rw [← rateLimitError_replyFor, ← reply]
          exact refused (request, _) List.mem_cons_self rfl
        obtain ⟨after, stored', levels⟩ :=
          induction served ordered.tail rest
        refine ⟨after, stored', fun later => ?_⟩
        exact (levels later).trans
          (TokenBucket.level_serve valid.maxTokens turned)
      · exact induction (stored.other same (ordered.later request head))
          ordered.tail rest

/-- Inserted requests that are refused change no other reply. -/
theorem marked_kept {requests : List (RateRequest × Bool)}
    (valid : config.Valid)
    (stored : Stored live config since (store key) bucket)
    (stored' : Stored live config since (store' key) bucket')
    (levels : ∀ now, bucket.level config.maxTokens config.rate now =
      bucket'.level config.maxTokens config.rate now)
    (ordered : Ordered key config since (requests.map Prod.fst))
    (refused : ∀ entry ∈ marked live store requests, entry.1.1.key = key →
      entry.2 = true → entry.1.2.rateLimitError ≠ none) :
    ((marked live store requests).filter fun entry =>
        !entry.2 && decide (entry.1.1.key = key)).map Prod.fst =
      (replies live store'
        ((requests.filter fun entry => !entry.2).map Prod.fst)).filter
          fun entry => entry.1.key = key := by
  induction requests generalizing store store' bucket bucket' since with
  | nil => rfl
  | cons entry requests induction =>
      obtain ⟨request, inserted⟩ := entry
      have head : request ∈ ((request, inserted) :: requests).map Prod.fst :=
        List.mem_cons_self
      have later := ordered.later request head
      have rest : ∀ entry ∈ marked live
          (Chronos.rateLimit live store request).1 requests,
          entry.1.1.key = key → entry.2 = true →
          entry.1.2.rateLimitError ≠ none :=
        fun entry member => refused entry (List.mem_cons_of_mem _ member)
      by_cases same : request.key = key
      · subst key
        obtain rfl := ordered.limiter request head rfl
        obtain ⟨reply, served⟩ := stored.rateLimit valid later
        cases inserted with
        | true =>
            have turned : ¬1 ≤ bucket.level request.config.maxTokens
                request.config.rate request.now := by
              rw [← rateLimitError_replyFor, ← reply]
              exact refused ((request, _), true) List.mem_cons_self rfl rfl
            apply induction served (stored'.later later) _ ordered.tail rest
            intro now
            exact (TokenBucket.level_serve valid.maxTokens turned).trans
              (levels now)
        | false =>
            obtain ⟨reply', served'⟩ := stored'.rateLimit valid later
            rw [levels request.now] at reply
            have tail := induction served served' (by
              intro now
              rw [TokenBucket.serve_congr (levels request.now)]) ordered.tail
              rest
            simp only [marked] at tail
            simp [marked, replies, reply, reply', tail]
      · cases inserted with
        | true =>
            have tail := induction (stored.other same later)
              (stored'.later later) levels ordered.tail rest
            simp only [marked] at tail
            simp [marked, replies, tail]
        | false =>
            have tail := induction (stored.other same later)
              (stored'.other same later) levels ordered.tail rest
            simp only [marked] at tail
            simp [marked, replies, same, tail]

/-- The answer to a refused request, and what comes of the requests after it,
those in between being refused. -/
structure WaitsRight (live : KeyExpiry) (store : BucketStore)
    (request : RateRequest) (between : List RateRequest) (next : RateRequest)
    (retryAfter : Int) : Prop where
  positive : 1 ≤ retryAfter
  header : ("Retry-After", (retryAfter : ℚ)) ∈
    (rateLimit live store request).2.headers
  admitted : request.now + retryAfter ≤ next.now →
    (rateLimit live (storeAfter live store (request :: between))
      next).2.rateLimitError = none
  refused : next.now ≤ request.now + retryAfter - 1 →
    (rateLimit live (storeAfter live store (request :: between))
      next).2.rateLimitError ≠ none

theorem RateLimitConfig.Valid.rate_pos (valid : config.Valid) :
    0 < config.rate :=
  div_pos (zero_lt_one.trans_le valid.maxTokens) valid.windowSecs

theorem replyFor_refused {level : ℚ} {retryAfter : Int}
    (refused : (replyFor config now level).rateLimitError = some retryAfter) :
    level < 1 ∧ retryAfter = ⌈(1 - level) / config.rate⌉ ∧
      ("Retry-After", (retryAfter : ℚ)) ∈
        (replyFor config now level).headers := by
  unfold replyFor at refused ⊢
  split at refused
  · cases refused
  · rename_i turned
    cases refused
    rw [if_neg turned]
    exact ⟨not_le.mp turned, rfl, List.mem_cons_self⟩

theorem waitsRight_of_refused {next : RateRequest} {retryAfter : Int}
    (valid : config.Valid)
    (stored : Stored live config since (store key) bucket)
    (ordered : Ordered key config since (request :: requests ++ [next]))
    (ofKey : request.key = key) (nextOfKey : next.key = key)
    (answered : (rateLimit live store request).2.rateLimitError =
      some retryAfter)
    (refused : ∀ entry ∈
      replies live (rateLimit live store request).1 requests,
      entry.1.key = key → entry.2.rateLimitError ≠ none) :
    WaitsRight live store request requests next retryAfter := by
  have head : request ∈ request :: requests ++ [next] := List.mem_cons_self
  have last : next ∈ request :: requests ++ [next] := by simp
  subst key
  obtain rfl := ordered.limiter request head rfl
  obtain ⟨reply, _⟩ := stored.rateLimit valid (ordered.later request head)
  have announced := answered
  rw [reply] at announced
  obtain ⟨low, rfl, header⟩ := replyFor_refused announced
  have all : ∀ entry ∈ replies live store (request :: requests),
      entry.1.key = request.key → entry.2.rateLimitError ≠ none := by
    intro entry member
    rcases List.mem_cons.mp member with rfl | later
    · intro _ none
      cases answered.symm.trans none
    · exact refused entry later
  obtain ⟨after, stored', levels⟩ := stored.refused valid ordered all
  have sameConfig := ordered.limiter next last nextOfKey
  have valid' : next.config.Valid := sameConfig ▸ valid
  rw [← nextOfKey, ← sameConfig] at stored'
  have nextReply := (stored'.rateLimit valid' le_rfl).1
  have admits : (rateLimit live (storeAfter live store (request :: requests))
      next).2.rateLimitError = none ↔
      (1 - bucket.level request.config.maxTokens request.config.rate
        request.now) / request.config.rate ≤ next.now - request.now := by
    rw [nextReply, rateLimitError_replyFor, sameConfig, levels]
    exact TokenBucket.admits_iff_waited valid.maxTokens valid.rate_pos
      (not_le.mpr low)
  constructor
  · apply Int.one_le_ceil_iff.mpr
    exact div_pos (sub_pos.mpr low) valid.rate_pos
  · rw [reply]
    exact header
  · intro waited
    apply admits.mpr
    exact (Int.le_ceil _).trans (le_sub_iff_add_le'.mpr waited)
  · intro early
    rw [Ne, admits, not_le]
    have wait := Int.ceil_lt_add_one ((1 - bucket.level
      request.config.maxTokens request.config.rate request.now) /
        request.config.rate)
    linarith

/-- A refused request costs nothing, and its Retry-After is right: the next
request is admitted from then on, and refused a second before, whatever refused
requests come in between; and inserted requests that are refused change no
other reply.  The bucket has any state if keys never expire, and else one that
the script has stored. -/
theorem refused_cost_nothing (valid : config.Valid)
    (state : (∀ expiresAt now, live expiresAt now = true) ∨
      live.Keeps ∧ ∃ bucket, Represents config (store key) bucket ∧
        bucket.time ≤ since) :
    (∀ {request : RateRequest} {between : List RateRequest}
      {next : RateRequest} {retryAfter : Int},
      Ordered key config since (request :: between ++ [next]) →
      request.key = key → next.key = key →
      (rateLimit live store request).2.rateLimitError = some retryAfter →
      (∀ entry ∈ replies live (rateLimit live store request).1 between,
        entry.1.key = key → entry.2.rateLimitError ≠ none) →
      WaitsRight live store request between next retryAfter) ∧
    ∀ {requests : List (RateRequest × Bool)},
      Ordered key config since (requests.map Prod.fst) →
      (∀ entry ∈ marked live store requests, entry.1.1.key = key →
        entry.2 = true → entry.1.2.rateLimitError ≠ none) →
      ((marked live store requests).filter fun entry =>
          !entry.2 && decide (entry.1.1.key = key)).map Prod.fst =
        (replies live store
          ((requests.filter fun entry => !entry.2).map Prod.fst)).filter
            fun entry => entry.1.key = key := by
  obtain ⟨bucket, stored⟩ :
      ∃ bucket, Stored live config since (store key) bucket := by
    rcases state with lasting | ⟨keeps, bucket, represents, later⟩
    · exact exists_stored lasting config since (store key)
    · exact ⟨bucket, represents.stored keeps later⟩
  exact ⟨waitsRight_of_refused valid stored,
    marked_kept valid stored stored fun _ => rfl⟩

/-- A request of one client, who has a token for each minute. -/
def RateRequest.sample (now : ℚ) : RateRequest :=
  ⟨"auth", ⟨1, 60⟩, some "ada", none, now⟩

/-- Every client has half a token at 0. -/
def BucketStore.sample : BucketStore := fun _ => some ⟨1 / 2, 0, 120⟩

/-- Half a token at 0: a request at 10 is told to wait for 20 seconds, another
one at 20 is refused, and the one at 30 is admitted. -/
theorem refused_cost_nothing_minute :
    WaitsRight (fun expiresAt now => now ≤ expiresAt) .sample (.sample 10)
        [.sample 20] (.sample 30) 20 ∧
      ((marked (fun expiresAt now => now ≤ expiresAt) .sample
          [(.sample 10, false), (.sample 20, true), (.sample 30, false)]).filter
        fun entry => !entry.2 &&
          decide (entry.1.1.key = "ratelimit:ada:auth")).map Prod.fst =
      (replies (fun expiresAt now => now ≤ expiresAt) .sample
        [.sample 10, .sample 30]).filter
          fun entry => entry.1.key = "ratelimit:ada:auth" := by
  have valid : RateLimitConfig.Valid ⟨1, 60⟩ := by
    constructor
    · norm_num
    · norm_num
  have keeps : KeyExpiry.Keeps fun expiresAt now => now ≤ expiresAt :=
    fun _ _ early => decide_eq_true early.le
  have represents : Represents ⟨1, 60⟩
      (BucketStore.sample "ratelimit:ada:auth") ⟨1 / 2, 0⟩ := by
    constructor
    · exact nofun
    · intro found same
      cases same
      norm_num
    · norm_num
    · norm_num
  have ordered : Ordered "ratelimit:ada:auth" ⟨1, 60⟩ 0
      [.sample 10, .sample 20, .sample 30] := by
    constructor
    · norm_num [RateRequest.sample]
    · norm_num [RateRequest.sample]
    · simp [RateRequest.sample]
  obtain ⟨waits, inserted⟩ := refused_cost_nothing valid
    (.inr ⟨keeps, _, represents, le_rfl⟩)
  constructor
  · exact waits ordered rfl rfl (by decide +kernel) (by decide +kernel)
  · exact inserted ordered (by decide +kernel)

end Steps

end Chronos
