import Mathlib.Algebra.Order.Floor.Ring
import Mathlib.Data.Rat.Floor
import Zulip.RateLimiter.TornadoBackend

/-!
# The report of the calls that are left

The in-memory backend reports how many requests of an entity are left from the reset time that it
has stored, also when that time has passed. `callsLeft_honest_iff` tells for which entries the
report is the number of requests that are accepted at once.
-/

namespace Zulip.RateLimiter

/-- A rule that divides the time of its window. -/
structure Rule.Positive (rule : Rule) : Prop where
  timeWindow : 0 < rule.timeWindow
  maxCount : 0 < rule.maxCount

namespace TornadoBackend

/-- The reset time that the backend keeps for an entity. -/
def storedReset (backend : TornadoBackend) (rule : Rule) (entityKey : String) : Option ℚ :=
  (backend.resetTimes.get? rule).bind fun resetTimesForRule => resetTimesForRule.get? entityKey

/-- How many calls are left in this range, and the time until the rate limit resets. -/
def getApiCallsLeft (backend : TornadoBackend) (now : ℚ) (entityKey : String)
    (rangeSeconds maxCalls : ℕ) : ℤ × ℚ :=
  match backend.storedReset ⟨rangeSeconds, maxCalls⟩ entityKey with
  | some resetTime =>
      let callsRemaining := ⌊(now + rangeSeconds - resetTime) * maxCalls / rangeSeconds⌋
      (callsRemaining, resetTime - now)
  | none => (maxCalls, 0)

/-- Which requests of an entity a rule accepts, one after another. -/
def requestsAccepted (backend : TornadoBackend) (entityKey : String) (rule : Rule) :
    List ℚ → List Bool
  | [] => []
  | now :: later =>
      let checked := backend.needToLimit entityKey rule now
      (!checked.1.1) :: checked.2.requestsAccepted entityKey rule later

/-- How many of some requests at the same time a rule accepts. -/
def acceptedAtOnce (backend : TornadoBackend) (entityKey : String) (rule : Rule) (now : ℚ)
    (requests : ℕ) : ℕ :=
  (backend.requestsAccepted entityKey rule (List.replicate requests now)).count true

/-- The report is the number of immediate further requests that the rule accepts. -/
structure HonestReport (backend : TornadoBackend) (entityKey : String) (rule : Rule) (now : ℚ) :
    Prop where
  accepted : ∀ requests : ℕ, (backend.acceptedAtOnce entityKey rule now requests : ℤ) =
    min (requests : ℤ) (backend.getApiCallsLeft now entityKey rule.timeWindow rule.maxCount).1
  nonneg : 0 ≤ (backend.getApiCallsLeft now entityKey rule.timeWindow rule.maxCount).1
  atMost : (backend.getApiCallsLeft now entityKey rule.timeWindow rule.maxCount).1 ≤ rule.maxCount

/-- A request and the rules for its entity. -/
structure LimitedRequest extends Request where
  rules : List Rule
  positive : ∀ rule ∈ rules, rule.Positive

/-- The backend after some requests. -/
def afterRequests (backend : TornadoBackend) (requests : List LimitedRequest) : TornadoBackend :=
  requests.foldl (fun reached request =>
    (rateLimitEntity needToLimit reached request.entityKey request.rules request.time).2) backend

variable {backend : TornadoBackend} {rule other : Rule} {entityKey otherKey : String} {now after : ℚ}

/-! ## The checks of a rule -/

theorem interval_nonneg : 0 ≤ rule.interval :=
  div_nonneg (Nat.cast_nonneg _) (Nat.cast_nonneg _)

theorem interval_pos (positive : rule.Positive) : 0 < rule.interval :=
  div_pos (Nat.cast_pos.mpr positive.timeWindow) (Nat.cast_pos.mpr positive.maxCount)

/-- The requests of a window take all of its time. -/
theorem maxCount_mul_interval (positive : rule.Positive) :
    rule.maxCount * rule.interval = rule.timeWindow :=
  mul_div_cancel₀ _ (Nat.cast_pos.mpr positive.maxCount).ne'

theorem resetTime_eq_stored :
    backend.resetTime rule entityKey now =
      max ((backend.storedReset rule entityKey).getD now) now := by
  unfold resetTime storedReset Dict.getD
  cases backend.resetTimes.get? rule <;> rfl

/-- A request is accepted when one interval more fits into the window. -/
theorem needToLimit_accepts :
    (backend.needToLimit entityKey rule now).1.1 = false ↔
      backend.resetTime rule entityKey now + rule.interval ≤ now + rule.timeWindow := by
  rw [needToLimit, limitOrRecord_answer, resetTime_collectIfDue]
  split_ifs with exceeds
  · simpa using exceeds
  · simpa using exceeds

/-- An accepted request postpones the reset time of its entity by an interval. -/
theorem resetTime_needToLimit :
    (backend.needToLimit entityKey rule now).2.resetTime other otherKey now =
      if (backend.needToLimit entityKey rule now).1.1 = false ∧ other = rule ∧
          otherKey = entityKey then
        backend.resetTime rule entityKey now + rule.interval
      else backend.resetTime other otherKey now := by
  unfold needToLimit
  rw [resetTime_limitOrRecord interval_nonneg, resetTime_collectIfDue, resetTime_collectIfDue]

/-! ## The requests that fit -/

/-- The number of requests that a rule accepts at once, as the reset time tells. -/
def requestsFitting (backend : TornadoBackend) (entityKey : String) (rule : Rule) (now : ℚ) : ℤ :=
  max 0 ⌊(now + rule.timeWindow - backend.resetTime rule entityKey now) / rule.interval⌋

/-- A request is accepted when one fits at least. -/
theorem needToLimit_accepts_iff_fits (positive : rule.Positive) :
    (backend.needToLimit entityKey rule now).1.1 = false ↔
      1 ≤ backend.requestsFitting entityKey rule now := by
  have fits : (1 : ℤ) ≤
      ⌊(now + rule.timeWindow - backend.resetTime rule entityKey now) / rule.interval⌋ ↔
      rule.interval ≤ now + rule.timeWindow - backend.resetTime rule entityKey now := by
    rw [Int.le_floor, Int.cast_one, le_div_iff₀ (interval_pos positive), one_mul]
  rw [needToLimit_accepts, requestsFitting]
  constructor
  · intro met
    have := fits.mpr (by linarith)
    omega
  · intro one
    have := fits.mp (by omega)
    linarith

/-- An accepted request takes one place. -/
theorem requestsFitting_needToLimit (positive : rule.Positive) :
    (backend.needToLimit entityKey rule now).2.requestsFitting entityKey rule now =
      max 0 (backend.requestsFitting entityKey rule now - 1) := by
  have taken := @resetTime_needToLimit backend rule rule entityKey entityKey now
  have accepts := @needToLimit_accepts_iff_fits backend rule entityKey now positive
  by_cases accepted : (backend.needToLimit entityKey rule now).1.1 = false
  · rw [if_pos ⟨accepted, rfl, rfl⟩] at taken
    have less : (now + rule.timeWindow - (backend.resetTime rule entityKey now + rule.interval)) /
        rule.interval =
        (now + rule.timeWindow - backend.resetTime rule entityKey now) / rule.interval - 1 := by
      rw [← sub_sub, sub_div, div_self (interval_pos positive).ne']
    unfold requestsFitting
    rw [taken, less, Int.floor_sub_one]
    omega
  · rw [if_neg fun recorded => accepted recorded.1] at taken
    have full : ¬ 1 ≤ backend.requestsFitting entityKey rule now :=
      fun fits => accepted (accepts.mpr fits)
    have same : (backend.needToLimit entityKey rule now).2.requestsFitting entityKey rule now =
        backend.requestsFitting entityKey rule now := by
      unfold requestsFitting
      rw [taken]
    have nonneg : 0 ≤ backend.requestsFitting entityKey rule now := le_max_left _ _
    omega

/-- The requests at once are accepted until no place is left. -/
theorem acceptedAtOnce_eq (positive : rule.Positive) (backend : TornadoBackend) (requests : ℕ) :
    (backend.acceptedAtOnce entityKey rule now requests : ℤ) =
      min (requests : ℤ) (backend.requestsFitting entityKey rule now) := by
  induction requests generalizing backend with
  | zero =>
      have nonneg : 0 ≤ backend.requestsFitting entityKey rule now := le_max_left _ _
      have none : backend.acceptedAtOnce entityKey rule now 0 = 0 := rfl
      omega
  | succ requests inductionHypothesis =>
      have nonneg : 0 ≤ backend.requestsFitting entityKey rule now := le_max_left _ _
      have accepts := @needToLimit_accepts_iff_fits backend rule entityKey now positive
      have next := inductionHypothesis (backend.needToLimit entityKey rule now).2
      rw [requestsFitting_needToLimit positive] at next
      have first : backend.acceptedAtOnce entityKey rule now (requests + 1) =
          (backend.needToLimit entityKey rule now).2.acceptedAtOnce entityKey rule now requests +
            if (backend.needToLimit entityKey rule now).1.1 = false then 1 else 0 := by
        unfold acceptedAtOnce
        rw [List.replicate_succ, requestsAccepted, List.count_cons]
        cases (backend.needToLimit entityKey rule now).1.1 <;> rfl
      by_cases accepted : (backend.needToLimit entityKey rule now).1.1 = false
      · have fits := accepts.mp accepted
        rw [if_pos accepted] at first
        omega
      · have full : ¬ 1 ≤ backend.requestsFitting entityKey rule now :=
          fun fits => accepted (accepts.mpr fits)
        rw [if_neg accepted] at first
        omega

/-! ## The reset times that requests leave -/

/-- No reset time is later than a whole window from now. -/
def WithinWindow (backend : TornadoBackend) (now : ℚ) : Prop :=
  ∀ rule : Rule, ∀ entityKey,
    backend.resetTime rule entityKey now ≤ now + rule.timeWindow

theorem withinWindow_start (timestampsBlockedUntil : Dict String ℚ) :
    (start timestampsBlockedUntil).WithinWindow now := by
  intro rule entityKey
  have nothing : (start timestampsBlockedUntil).resetTime rule entityKey now = now := max_self now
  rw [nothing]
  exact le_add_of_nonneg_right (Nat.cast_nonneg _)

theorem WithinWindow.later (within : backend.WithinWindow now) (before : now ≤ after) :
    backend.WithinWindow after := by
  intro rule entityKey
  rw [resetTime_of_le before]
  have bound := within rule entityKey
  have window : (0 : ℚ) ≤ rule.timeWindow := Nat.cast_nonneg _
  exact max_le (by linarith) (by linarith)

theorem WithinWindow.needToLimit (within : backend.WithinWindow now) (entityKey : String)
    (rule : Rule) : (backend.needToLimit entityKey rule now).2.WithinWindow now := by
  intro other otherKey
  rw [resetTime_needToLimit]
  split_ifs with recorded
  · rw [recorded.2.1]
    exact needToLimit_accepts.mp recorded.1
  · exact within other otherKey

theorem WithinWindow.checkRules (within : backend.WithinWindow now) (entityKey : String)
    (rules : List Rule) :
    (TornadoBackend.checkRules TornadoBackend.needToLimit entityKey now rules
      backend).2.WithinWindow now := by
  induction rules generalizing backend with
  | nil => exact within
  | cons rule rest inductionHypothesis =>
      rw [TornadoBackend.checkRules]
      split_ifs
      · exact within.needToLimit entityKey rule
      · exact inductionHypothesis (within.needToLimit entityKey rule)

theorem WithinWindow.rateLimitEntity (within : backend.WithinWindow now) (entityKey : String)
    (rules : List Rule) :
    (TornadoBackend.rateLimitEntity TornadoBackend.needToLimit backend entityKey rules
      now).2.WithinWindow now := by
  unfold TornadoBackend.rateLimitEntity
  split
  · split_ifs
    · exact within
    · have unblocked : ({ backend with timestampsBlockedUntil :=
          backend.timestampsBlockedUntil.erase entityKey } : TornadoBackend).WithinWindow now :=
        within
      exact unblocked.checkRules entityKey rules
  · exact within.checkRules entityKey rules

/-- Every request leaves the reset times within their windows. -/
theorem WithinWindow.afterRequests (within : backend.WithinWindow now)
    {requests : List LimitedRequest}
    (inOrder : requests.Pairwise fun request next => request.time ≤ next.time)
    (notBefore : ∀ request ∈ requests, now ≤ request.time) (begins : now ≤ after)
    (ends : ∀ request ∈ requests, request.time ≤ after) :
    (backend.afterRequests requests).WithinWindow after := by
  induction requests generalizing now backend with
  | nil => exact within.later begins
  | cons request rest inductionHypothesis =>
      obtain ⟨afterFirst, restInOrder⟩ := List.pairwise_cons.mp inOrder
      have atRequest := within.later (notBefore request List.mem_cons_self)
      exact inductionHypothesis (atRequest.rateLimitEntity request.entityKey request.rules)
        restInOrder afterFirst (ends request List.mem_cons_self)
        fun next member => ends next (List.mem_cons_of_mem _ member)

/-! ## The report -/

/-- What the report says, when the requests have left a reset time. -/
theorem getApiCallsLeft_stored {resetTime : ℚ}
    (stored : backend.storedReset rule entityKey = some resetTime) :
    (backend.getApiCallsLeft now entityKey rule.timeWindow rule.maxCount).1 =
      ⌊(now + rule.timeWindow - resetTime) / rule.interval⌋ := by
  unfold getApiCallsLeft
  rw [show (⟨rule.timeWindow, rule.maxCount⟩ : Rule) = rule from rfl, stored, Rule.interval,
    div_div_eq_mul_div]

/-- The report counts from the stored reset time, the acceptance from now on. -/
theorem requestsFitting_eq_callsLeft_iff (positive : rule.Positive)
    (within : backend.resetTime rule entityKey now ≤ now + rule.timeWindow) :
    backend.requestsFitting entityKey rule now =
        (backend.getApiCallsLeft now entityKey rule.timeWindow rule.maxCount).1 ↔
      ∀ resetTime, backend.storedReset rule entityKey = some resetTime →
        now < resetTime + rule.interval := by
  have interval := interval_pos positive
  have whole : (rule.timeWindow : ℚ) / rule.interval = rule.maxCount := by
    rw [← maxCount_mul_interval positive, mul_div_cancel_right₀ _ interval.ne']
  have seen := @resetTime_eq_stored backend rule entityKey now
  cases stored : backend.storedReset rule entityKey with
  | none =>
      rw [stored, Option.getD_none, max_self] at seen
      have reported : (backend.getApiCallsLeft now entityKey rule.timeWindow rule.maxCount).1 =
          rule.maxCount := by
        unfold getApiCallsLeft
        rw [show (⟨rule.timeWindow, rule.maxCount⟩ : Rule) = rule from rfl, stored]
      rw [reported, requestsFitting, seen, add_sub_cancel_left, whole, Int.floor_natCast]
      simp
  | some resetTime =>
      rw [stored, Option.getD_some] at seen
      rw [getApiCallsLeft_stored stored, requestsFitting]
      simp only [Option.some.injEq, forall_eq']
      rcases le_or_gt now resetTime with ahead | passed
      · rw [max_eq_left ahead] at seen
        have nonneg : 0 ≤ ⌊(now + rule.timeWindow - resetTime) / rule.interval⌋ :=
          Int.floor_nonneg.mpr (div_nonneg (by linarith) interval.le)
        rw [seen, max_eq_right nonneg]
        exact iff_of_true rfl (by linarith)
      · rw [max_eq_right passed.le] at seen
        -- The time since the reset is reported as if it could be used again.
        have extra : (now + rule.timeWindow - resetTime) / rule.interval =
            (now - resetTime) / rule.interval + (rule.maxCount : ℕ) := by
          rw [← whole, ← add_div]
          congr 1
          ring
        rw [seen, add_sub_cancel_left, whole, Int.floor_natCast, extra, Int.floor_add_natCast]
        have nonneg : 0 ≤ ⌊(now - resetTime) / rule.interval⌋ :=
          Int.floor_nonneg.mpr (div_nonneg (by linarith) interval.le)
        have isShort : ⌊(now - resetTime) / rule.interval⌋ < 1 ↔ now < resetTime + rule.interval := by
          rw [Int.floor_lt, Int.cast_one, div_lt_one interval]
          constructor <;> intro <;> linarith
        rw [← isShort]
        omega

/-- The report is never negative. -/
theorem callsLeft_nonneg (positive : rule.Positive)
    (within : backend.resetTime rule entityKey now ≤ now + rule.timeWindow) :
    0 ≤ (backend.getApiCallsLeft now entityKey rule.timeWindow rule.maxCount).1 := by
  have seen := @resetTime_eq_stored backend rule entityKey now
  cases stored : backend.storedReset rule entityKey with
  | none =>
      unfold getApiCallsLeft
      rw [show (⟨rule.timeWindow, rule.maxCount⟩ : Rule) = rule from rfl, stored]
      exact Int.natCast_nonneg _
  | some resetTime =>
      rw [stored, Option.getD_some] at seen
      have notLater : resetTime ≤ backend.resetTime rule entityKey now := seen ▸ le_max_left _ _
      rw [getApiCallsLeft_stored stored]
      exact Int.floor_nonneg.mpr (div_nonneg (by linarith) (interval_pos positive).le)

/-- A report is honest when it is the number of requests that fit. -/
theorem honestReport_iff_fitting (positive : rule.Positive) :
    backend.HonestReport entityKey rule now ↔
      backend.requestsFitting entityKey rule now =
        (backend.getApiCallsLeft now entityKey rule.timeWindow rule.maxCount).1 := by
  have fitting := @acceptedAtOnce_eq rule entityKey now positive backend
  have interval := interval_pos positive
  have notMore : backend.requestsFitting entityKey rule now ≤ rule.maxCount := by
    refine max_le (Int.natCast_nonneg _) (Int.floor_le_iff.mpr ?_)
    rw [div_lt_iff₀ interval, Int.cast_natCast, add_mul, maxCount_mul_interval positive]
    linarith [@le_resetTime backend rule entityKey now]
  have nonneg : 0 ≤ backend.requestsFitting entityKey rule now := le_max_left _ _
  constructor
  · intro honest
    -- Enough requests use up every place.
    have enough := honest.accepted (rule.maxCount + 1)
    rw [fitting] at enough
    have atMost := honest.atMost
    omega
  · intro same
    refine ⟨fun requests => ?_, same ▸ nonneg, same ▸ notMore⟩
    rw [fitting, same]

end TornadoBackend

open TornadoBackend in
/-- After any requests, the report of the calls that are left is never negative. It is the number
of further requests that are accepted at once unless a reset time is stored that passed an interval
ago. -/
theorem callsLeft_honest_iff (timestampsBlockedUntil : Dict String ℚ)
    {requests : List LimitedRequest}
    (inOrder : requests.Pairwise fun request next => request.time ≤ next.time)
    {now : ℚ} (isNow : ∀ request ∈ requests, request.time ≤ now)
    {rule : Rule} (positive : rule.Positive) (entityKey : String) :
    0 ≤ (((start timestampsBlockedUntil).afterRequests requests).getApiCallsLeft now entityKey
        rule.timeWindow rule.maxCount).1 ∧
      (((start timestampsBlockedUntil).afterRequests requests).HonestReport entityKey rule now ↔
        ∀ resetTime, ((start timestampsBlockedUntil).afterRequests requests).storedReset rule
          entityKey = some resetTime → now < resetTime + rule.interval) := by
  obtain ⟨earliest, begins, notBefore⟩ :
      ∃ earliest ≤ now, ∀ request ∈ requests, earliest ≤ request.time := by
    cases requests with
    | nil => exact ⟨now, le_rfl, fun request member => absurd member List.not_mem_nil⟩
    | cons request rest =>
        refine ⟨request.time, isNow request List.mem_cons_self, ?_⟩
        rw [List.forall_mem_cons]
        exact ⟨le_rfl, (List.pairwise_cons.mp inOrder).1⟩
  have within := (withinWindow_start timestampsBlockedUntil).afterRequests inOrder notBefore begins
    isNow
  refine ⟨callsLeft_nonneg positive (within rule entityKey), ?_⟩
  rw [honestReport_iff_fitting positive]
  exact requestsFitting_eq_callsLeft_iff positive (within rule entityKey)

/-- Two requests a minute. -/
def twoPerMinuteRequest (entityKey : String) (time : ℚ) : TornadoBackend.LimitedRequest where
  entityKey := entityKey
  time := time
  rules := twoPerMinute
  positive := by
    intro rule member
    rcases List.mem_singleton.mp member with rfl
    exact ⟨by decide, by decide⟩

open TornadoBackend in
/-- The report soon after a request is honest, that after two minutes is not. -/
theorem callsLeft_honest_iff_minute :
    ((start Dict.empty).afterRequests [twoPerMinuteRequest "user:7" 10]).HonestReport "user:7"
        ⟨60, 2⟩ 20 ∧
      ¬ ((start Dict.empty).afterRequests [twoPerMinuteRequest "user:7" 10]).HonestReport "user:7"
        ⟨60, 2⟩ 130 := by
  have stored : ((start Dict.empty).afterRequests [twoPerMinuteRequest "user:7" 10]).storedReset
      ⟨60, 2⟩ "user:7" = some 40 := by
    decide +kernel
  have positive : (⟨60, 2⟩ : Rule).Positive := ⟨by decide, by decide⟩
  have interval : (⟨60, 2⟩ : Rule).interval = 30 := by
    unfold Rule.interval
    norm_num
  constructor
  · refine (callsLeft_honest_iff Dict.empty (List.pairwise_singleton _ _) ?_ positive "user:7").2.mpr
      ?_
    · intro request member
      rcases List.mem_singleton.mp member with rfl
      exact by decide +kernel
    · intro resetTime isStored
      rw [stored, Option.some.injEq] at isStored
      rw [← isStored, interval]
      norm_num
  · refine fun honest => absurd ((callsLeft_honest_iff Dict.empty (List.pairwise_singleton _ _) ?_
      positive "user:7").2.mp honest 40 stored) ?_
    · intro request member
      rcases List.mem_singleton.mp member with rfl
      exact by decide +kernel
    · rw [interval]
      norm_num

open TornadoBackend in
/-- A minute and a half after the only request, four of two calls are left. -/
theorem callsLeft_tooMany :
    (((start Dict.empty).afterRequests [twoPerMinuteRequest "user:7" 10]).getApiCallsLeft 100
        "user:7" 60 2).1 = 4 ∧
      ((start Dict.empty).afterRequests [twoPerMinuteRequest "user:7" 10]).acceptedAtOnce "user:7"
        ⟨60, 2⟩ 100 4 = 2 ∧
      ¬ ((start Dict.empty).afterRequests [twoPerMinuteRequest "user:7" 10]).HonestReport "user:7"
        ⟨60, 2⟩ 100 := by
  have reported : (((start Dict.empty).afterRequests
      [twoPerMinuteRequest "user:7" 10]).getApiCallsLeft 100 "user:7" 60 2).1 = 4 := by
    decide +kernel
  refine ⟨reported, by decide +kernel, fun honest => ?_⟩
  have atMost := honest.atMost
  rw [reported] at atMost
  exact absurd atMost (by decide)

end Zulip.RateLimiter
