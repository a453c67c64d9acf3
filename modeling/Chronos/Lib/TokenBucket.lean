import Mathlib.Algebra.Order.Field.Basic
import Mathlib.Data.List.Count
import Mathlib.Tactic.Linarith
import Mathlib.Tactic.Ring

/-!
# Token buckets

A bucket holds at most `capacity` tokens and gains `rate` tokens per unit of
time.  A request that finds a whole token takes it and is admitted.  The tokens
left at some time, with what flows in until the end of an interval, pay for all
admissions up to that end: so an interval of length `T` sees at most
`capacity + rate * T` of them.
-/

universe u

/-- The tokens a bucket held when it was last used. -/
structure TokenBucket (α : Type u) where
  tokens : α
  time : α

namespace TokenBucket

variable {α : Type u} [Field α] [LinearOrder α]

/-- The tokens that a request finds. -/
def level (capacity rate : α) (bucket : TokenBucket α) (now : α) : α :=
  min capacity (bucket.tokens + rate * (now - bucket.time))

/-- The bucket after a request. -/
def serve (capacity rate : α) (bucket : TokenBucket α) (now : α) :
    TokenBucket α where
  tokens :=
    if 1 ≤ bucket.level capacity rate now then
      bucket.level capacity rate now - 1
    else bucket.level capacity rate now
  time := now

/-- The times of the requests that are admitted. -/
def admitted (capacity rate : α) : TokenBucket α → List α → List α
  | _, [] => []
  | bucket, now :: times =>
      let rest := admitted capacity rate (bucket.serve capacity rate now) times
      if 1 ≤ bucket.level capacity rate now then now :: rest else rest

section Level

variable {capacity rate : α}

theorem level_le_capacity (capacity rate : α) (bucket : TokenBucket α)
    (now : α) : bucket.level capacity rate now ≤ capacity :=
  min_le_left _ _

theorem level_le_inflow (capacity rate : α) (bucket : TokenBucket α)
    (now : α) :
    bucket.level capacity rate now ≤
      bucket.tokens + rate * (now - bucket.time) :=
  min_le_right _ _

theorem cost_add_serve (capacity rate : α) (bucket : TokenBucket α) (now : α) :
    (if 1 ≤ bucket.level capacity rate now then (1 : α) else 0) +
        (bucket.serve capacity rate now).tokens =
      bucket.level capacity rate now := by
  unfold serve
  dsimp only
  split
  · ring
  · ring

theorem mem_of_mem_admitted {bucket : TokenBucket α} {times : List α}
    {time : α} (member : time ∈ admitted capacity rate bucket times) :
    time ∈ times := by
  induction times generalizing bucket with
  | nil => cases member
  | cons now times induction =>
      simp only [admitted] at member
      split at member
      · rcases List.mem_cons.mp member with rfl | later
        · exact List.mem_cons_self
        · exact List.mem_cons_of_mem _ (induction later)
      · exact List.mem_cons_of_mem _ (induction member)

theorem countP_admitted_late {bucket : TokenBucket α} {now last : α}
    {times : List α} {condition : α → Bool} (late : last < now)
    (rest : ∀ time ∈ times, now ≤ time)
    (inside : ∀ time, condition time = true → time ≤ last) :
    (admitted capacity rate bucket (now :: times)).countP condition = 0 := by
  rw [List.countP_eq_zero]
  intro time member counted
  have early := inside time counted
  rcases List.mem_cons.mp (mem_of_mem_admitted member) with rfl | after
  · exact (not_lt.mpr early) late
  · exact (not_lt.mpr early) (lt_of_lt_of_le late (rest time after))

end Level

/-! ## Refused requests -/

section Refused

variable {capacity rate : α} {bucket other : TokenBucket α} {now later : α}

theorem level_of_refused (whole : 1 ≤ capacity)
    (refused : ¬1 ≤ bucket.level capacity rate now) :
    bucket.level capacity rate now =
      bucket.tokens + rate * (now - bucket.time) := by
  apply min_eq_right
  by_contra full
  apply refused
  rw [level, min_eq_left (not_le.mp full).le]
  exact whole

/-- Two refills add up to one. -/
theorem level_serve (whole : 1 ≤ capacity)
    (refused : ¬1 ≤ bucket.level capacity rate now) :
    (bucket.serve capacity rate now).level capacity rate later =
      bucket.level capacity rate later := by
  have tokens : (bucket.serve capacity rate now).tokens =
      bucket.tokens + rate * (now - bucket.time) := by
    rw [serve, if_neg refused]
    exact level_of_refused whole refused
  rw [level, level, tokens]
  congr 1
  change _ + rate * (later - now) = _
  ring

theorem level_after (whole : 1 ≤ capacity)
    (refused : ¬1 ≤ bucket.level capacity rate now) :
    bucket.level capacity rate later =
      min capacity (bucket.level capacity rate now + rate * (later - now)) := by
  rw [level_of_refused whole refused, level]
  congr 1
  ring

theorem serve_congr
    (same : bucket.level capacity rate now = other.level capacity rate now) :
    bucket.serve capacity rate now = other.serve capacity rate now := by
  rw [serve, serve, same]

end Refused

section Bounds

variable [IsStrictOrderedRing α] {capacity rate : α}
  {bucket : TokenBucket α} {now first last : α} {times : List α}

theorem level_nonneg (whole : 0 ≤ capacity) (flows : 0 ≤ rate)
    (tokens : 0 ≤ bucket.tokens) (later : bucket.time ≤ now) :
    0 ≤ bucket.level capacity rate now := by
  have inflow : 0 ≤ rate * (now - bucket.time) :=
    mul_nonneg flows (sub_nonneg.mpr later)
  exact le_min whole (add_nonneg tokens inflow)

theorem level_eq_capacity (tokens : 0 ≤ bucket.tokens)
    (long : capacity ≤ rate * (now - bucket.time)) :
    bucket.level capacity rate now = capacity := by
  apply min_eq_left
  linarith

theorem level_of_full (flows : 0 ≤ rate) (full : bucket.tokens = capacity)
    (later : bucket.time ≤ now) :
    bucket.level capacity rate now = capacity := by
  have inflow : 0 ≤ rate * (now - bucket.time) :=
    mul_nonneg flows (sub_nonneg.mpr later)
  apply min_eq_left
  rw [full]
  linarith

/-- After a refusal a request is admitted once the missing part of a token has
flowed in. -/
theorem admits_iff_waited (whole : 1 ≤ capacity) (flows : 0 < rate)
    (refused : ¬1 ≤ bucket.level capacity rate now) :
    1 ≤ bucket.level capacity rate last ↔
      (1 - bucket.level capacity rate now) / rate ≤ last - now := by
  rw [level_after whole refused, le_min_iff, div_le_iff₀ flows]
  constructor
  · rintro ⟨_, enough⟩
    linarith
  · intro enough
    exact ⟨whole, by linarith⟩

theorem serve_le_capacity :
    (bucket.serve capacity rate now).tokens ≤ capacity := by
  have most := bucket.level_le_capacity capacity rate now
  unfold serve
  dsimp only
  split
  · linarith
  · exact most

theorem serve_nonneg (found : 0 ≤ bucket.level capacity rate now) :
    0 ≤ (bucket.serve capacity rate now).tokens := by
  unfold serve
  dsimp only
  split
  · linarith
  · exact found

theorem countP_admitted_cons (condition : α → Bool) :
    ((admitted capacity rate bucket (now :: times)).countP condition : α) ≤
      (if 1 ≤ bucket.level capacity rate now then (1 : α) else 0) +
        ((admitted capacity rate (bucket.serve capacity rate now)
          times).countP condition : α) := by
  simp only [admitted]
  split
  · rw [List.countP_cons]
    split
    · push_cast
      linarith
    · push_cast
      linarith
  · linarith

/-- What is in the bucket and flows in until the end of the interval pays for
the admissions up to then. -/
theorem admitted_le_inflow (whole : 0 ≤ capacity) (flows : 0 ≤ rate)
    (tokens : 0 ≤ bucket.tokens) (sorted : times.Pairwise (· ≤ ·))
    (later : ∀ now ∈ times, bucket.time ≤ now) (started : bucket.time ≤ last) :
    ((admitted capacity rate bucket times).countP (· ≤ last) : α) ≤
      bucket.tokens + rate * (last - bucket.time) := by
  induction times generalizing bucket with
  | nil =>
      have inflow : 0 ≤ rate * (last - bucket.time) :=
        mul_nonneg flows (sub_nonneg.mpr started)
      simp only [admitted, List.countP_nil, Nat.cast_zero]
      linarith
  | cons now times induction =>
      obtain ⟨rest, sorted⟩ := List.pairwise_cons.mp sorted
      have nowLater := later now List.mem_cons_self
      have found := level_nonneg whole flows tokens nowLater
      by_cases inside : now ≤ last
      · have tail := induction (serve_nonneg found) sorted rest inside
        change _ ≤ _ + rate * (last - now) at tail
        have split : rate * (last - bucket.time) =
            rate * (now - bucket.time) + rate * (last - now) := by
          ring
        calc ((admitted capacity rate bucket (now :: times)).countP
                (· ≤ last) : α)
            ≤ (if 1 ≤ bucket.level capacity rate now then (1 : α) else 0) +
                ((admitted capacity rate (bucket.serve capacity rate now)
                  times).countP (· ≤ last) : α) := countP_admitted_cons _
          _ ≤ (if 1 ≤ bucket.level capacity rate now then (1 : α) else 0) +
                ((bucket.serve capacity rate now).tokens +
                  rate * (last - now)) := by gcongr
          _ = bucket.level capacity rate now + rate * (last - now) := by
            rw [← add_assoc, cost_add_serve]
          _ ≤ bucket.tokens + rate * (now - bucket.time) +
                rate * (last - now) := by
            gcongr
            exact bucket.level_le_inflow capacity rate now
          _ = bucket.tokens + rate * (last - bucket.time) := by
            rw [split, add_assoc]
      · have inflow : 0 ≤ rate * (last - bucket.time) :=
          mul_nonneg flows (sub_nonneg.mpr started)
        have late : (admitted capacity rate bucket (now :: times)).countP
            (· ≤ last) = 0 :=
          countP_admitted_late (not_le.mp inside) rest fun _ => by simp
        rw [late, Nat.cast_zero]
        linarith

/-- An interval sees at most as many admissions as a full bucket and the inflow
during the interval pay for. -/
theorem admitted_le (whole : 0 ≤ capacity) (flows : 0 ≤ rate)
    (tokens : 0 ≤ bucket.tokens) (sorted : times.Pairwise (· ≤ ·))
    (later : ∀ now ∈ times, bucket.time ≤ now) (forward : first ≤ last) :
    ((admitted capacity rate bucket times).countP
        (fun time => first ≤ time ∧ time ≤ last) : α) ≤
      capacity + rate * (last - first) := by
  have inflow : 0 ≤ rate * (last - first) :=
    mul_nonneg flows (sub_nonneg.mpr forward)
  induction times generalizing bucket with
  | nil =>
      simp only [admitted, List.countP_nil, Nat.cast_zero]
      linarith
  | cons now times induction =>
      obtain ⟨rest, sorted⟩ := List.pairwise_cons.mp sorted
      have nowLater := later now List.mem_cons_self
      have found := level_nonneg whole flows tokens nowLater
      by_cases begun : first ≤ now
      · by_cases inside : now ≤ last
        · have tail := admitted_le_inflow whole flows (serve_nonneg found) sorted
            rest inside
          change _ ≤ _ + rate * (last - now) at tail
          have fewer : (admitted capacity rate (bucket.serve capacity rate now)
                times).countP (fun time => first ≤ time ∧ time ≤ last) ≤
              (admitted capacity rate (bucket.serve capacity rate now)
                times).countP (· ≤ last) := by
            apply List.countP_mono_left
            intro time _ counted
            simp only [decide_eq_true_eq] at counted ⊢
            exact counted.2
          calc ((admitted capacity rate bucket (now :: times)).countP
                  (fun time => first ≤ time ∧ time ≤ last) : α)
              ≤ (if 1 ≤ bucket.level capacity rate now then (1 : α) else 0) +
                  ((admitted capacity rate (bucket.serve capacity rate now)
                    times).countP (fun time => first ≤ time ∧ time ≤ last) :
                    α) := countP_admitted_cons _
            _ ≤ (if 1 ≤ bucket.level capacity rate now then (1 : α) else 0) +
                  ((bucket.serve capacity rate now).tokens +
                    rate * (last - now)) := by
              gcongr
              exact (Nat.cast_le.mpr fewer).trans tail
            _ = bucket.level capacity rate now + rate * (last - now) := by
              rw [← add_assoc, cost_add_serve]
            _ ≤ capacity + rate * (last - first) := by
              gcongr
              exact bucket.level_le_capacity capacity rate now
        · have late : (admitted capacity rate bucket (now :: times)).countP
              (fun time => first ≤ time ∧ time ≤ last) = 0 :=
            countP_admitted_late (not_le.mp inside) rest fun _ => by simp
          rw [late, Nat.cast_zero]
          linarith
      · -- The interval has not begun, so the first request is not counted.
        have tail := induction (serve_nonneg found) sorted rest
        simp only [admitted]
        split
        · rw [List.countP_cons_of_neg (by simp [begun])]
          exact tail
        · exact tail

end Bounds

end TokenBucket
