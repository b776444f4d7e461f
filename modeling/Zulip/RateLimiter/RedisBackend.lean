import Mathlib.Data.List.Pairwise
import Zulip.Foundation.ExpiringKey

/-!
# The Redis backend of the rate limiter

The backend keeps the times of the accepted requests of an entity, newest first, in a list that is
as long as the last rule allows, and the same times in a sorted set. A request is rejected when,
for one of the rules, the request that many requests ago is too recent.
-/

namespace Zulip.RateLimiter

open ExpiringKey

/-- So many requests in so many seconds. -/
structure Rule where
  timeWindow : ℕ
  maxCount : ℕ
deriving DecidableEq

/-- The rules of an entity, from shortest to longest. -/
structure Rules where
  all : List Rule
  notEmpty : all ≠ []
  windowsNondecreasing : all.Pairwise fun rule later => rule.timeWindow ≤ later.timeWindow
  countsNondecreasing : all.Pairwise fun rule later => rule.maxCount ≤ later.maxCount

namespace Rules

/-- The API rate limit for the highest limit. -/
def maxApiCalls (rules : Rules) : ℕ := (rules.all.getLast rules.notEmpty).maxCount

/-- The API time window for the highest limit. -/
def maxApiWindow (rules : Rules) : ℕ := (rules.all.getLast rules.notEmpty).timeWindow

theorem maxCount_le (rules : Rules) {rule : Rule} (member : rule ∈ rules.all) :
    rule.maxCount ≤ rules.maxApiCalls :=
  rules.countsNondecreasing.rel_getLast_of_rel_getLast_getLast member (le_refl _)

theorem timeWindow_le (rules : Rules) {rule : Rule} (member : rule ∈ rules.all) :
    rule.timeWindow ≤ rules.maxApiWindow :=
  rules.windowsNondecreasing.rel_getLast_of_rel_getLast_getLast member (le_refl _)

end Rules

/-- The keys of an entity. -/
structure EntityKeys where
  list : Option (ExpiringKey (List ℚ))
  zset : Option (ExpiringKey (Finset ℚ))
  block : Option (ExpiringKey Unit)

namespace EntityKeys

/-- Manually block an entity for the desired number of seconds. -/
def blockAccess (keys : EntityKeys) (now : ℚ) (seconds : ℤ) : EntityKeys :=
  { keys with block := expire (some ⟨(), none⟩) now seconds }

def unblockAccess (keys : EntityKeys) : EntityKeys :=
  { keys with block := none }

/-- How many calls are left in this range, and the time until the rate limit resets. -/
def getApiCallsLeft (keys : EntityKeys) (now : ℚ) (rangeSeconds maxCalls : ℕ) : ℤ × ℚ :=
  let boundary := now - rangeSeconds
  let callsLeft : ℤ := maxCalls - zcount keys.zset now boundary now
  let timeReset :=
    match lindex keys.list now 0 with
    | some newestCall => now + (rangeSeconds - (now - newestCall))
    | none => now
  (callsLeft, timeReset - now)

/-- The first rule whose time is newer than its window allows decides. -/
def checkRules (now : ℚ) : List (Option ℚ × Rule) → Bool × ℚ
  | [] => (false, 0)
  | (none, _) :: rest => checkRules now rest
  | (some timestamp, rule) :: rest =>
      let boundary := timestamp + rule.timeWindow
      if now ≤ boundary then (true, boundary - now) else checkRules now rest

/-- Whether the entity is over a limit, and for how long. -/
def isRatelimited (keys : EntityKeys) (rules : List Rule) (now : ℚ) : Bool × ℚ :=
  let ruleTimestamps := rules.map fun rule => lindex keys.list now ((rule.maxCount : ℤ) - 1)
  if (visible keys.block now).isSome then (true, ttl keys.block now)
  else checkRules now (ruleTimestamps.zip rules)

/-- Record an accepted request. -/
def incrRatelimit (keys : EntityKeys) (maxApiCalls maxApiWindow : ℕ) (now : ℚ) : EntityKeys :=
  -- The element that is trimmed, so that it can be removed from the sorted set.
  let lastVal := lindex keys.list now ((maxApiCalls : ℤ) - 1)
  let list := ltrim (lpush keys.list now now) now 0 ((maxApiCalls : ℤ) - 1)
  let added := zadd keys.zset now now
  let zset :=
    match lastVal with
    | some last => zrem added now last
    | none => added
  { keys with
    list := expire list now maxApiWindow
    zset := expire zset now maxApiWindow }

/-- Check a request at one time and record it, when it is accepted, at another one. -/
def rateLimitEntity (keys : EntityKeys) (rules : List Rule) (maxApiCalls maxApiWindow : ℕ)
    (checkedAt recordedAt : ℚ) : (Bool × ℚ) × EntityKeys :=
  let (ratelimited, time) := keys.isRatelimited rules checkedAt
  if ratelimited then ((true, time), keys)
  else ((false, time), keys.incrRatelimit maxApiCalls maxApiWindow recordedAt)

/-! ## What the check says -/

theorem checkRules_eq_false {now : ℚ} {timestamps : List (Option ℚ × Rule)}
    (accepted : (checkRules now timestamps).1 = false) :
    ∀ entry ∈ timestamps, ∀ timestamp ∈ entry.1, timestamp + entry.2.timeWindow < now := by
  induction timestamps with
  | nil => simp
  | cons entry rest inductionHypothesis =>
      obtain ⟨found, rule⟩ := entry
      cases found with
      | none =>
          rw [checkRules] at accepted
          simpa using inductionHypothesis accepted
      | some timestamp =>
          rw [checkRules] at accepted
          by_cases recent : now ≤ timestamp + rule.timeWindow
          · simp [recent] at accepted
          · rw [if_neg recent] at accepted
            rw [List.forall_mem_cons]
            refine ⟨?_, inductionHypothesis accepted⟩
            simpa using recent

/-- In an accepted request, the time that each rule looks at is before its window. -/
theorem lt_of_accepted {keys : EntityKeys} {rules : List Rule} {now : ℚ}
    (accepted : (keys.isRatelimited rules now).1 = false) {rule : Rule} (member : rule ∈ rules)
    {timestamp : ℚ} (found : lindex keys.list now ((rule.maxCount : ℤ) - 1) = some timestamp) :
    timestamp + rule.timeWindow < now := by
  rw [isRatelimited] at accepted
  split_ifs at accepted
  refine checkRules_eq_false accepted (some timestamp, rule) ?_ timestamp rfl
  have entries := List.zip_map' (l := rules) (g := id)
    (f := fun rule : Rule => lindex keys.list now ((rule.maxCount : ℤ) - 1))
  rw [List.map_id] at entries
  rw [entries, List.mem_map]
  exact ⟨rule, member, by rw [found]; rfl⟩

end EntityKeys

end Zulip.RateLimiter
