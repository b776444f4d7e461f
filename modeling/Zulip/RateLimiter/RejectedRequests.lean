import Zulip.RateLimiter.CallsLeft

/-!
# What a rejected request costs

The in-memory backend checks the rules one after another, and each rule that accepts a request has
recorded it when a later rule rejects it. `rejected_costsNothing_iff` tells which rejected requests
leave no trace.
-/

namespace Zulip.RateLimiter

namespace TornadoBackend

/-- Later requests of an entity are accepted by every rule as before. -/
def CostsNothing (backend next : TornadoBackend) (entityKey : String) (now : ℚ) : Prop :=
  ∀ rule : Rule, rule.Positive → ∀ later : List ℚ, later.Pairwise (· ≤ ·) →
    (∀ time ∈ later, now ≤ time) →
      next.requestsAccepted entityKey rule later = backend.requestsAccepted entityKey rule later

/-- The entity is manually blocked. -/
def Blocked (backend : TornadoBackend) (entityKey : String) (now : ℚ) : Prop :=
  ∃ blockedUntil, backend.timestampsBlockedUntil.get? entityKey = some blockedUntil ∧
    now < blockedUntil

/-- No interval more fits into the window of the rule. -/
def Full (backend : TornadoBackend) (entityKey : String) (now : ℚ) (rule : Rule) : Prop :=
  now + rule.timeWindow < backend.resetTime rule entityKey now + rule.interval

variable {backend next : TornadoBackend} {rule : Rule} {rules : List Rule} {entityKey : String}
  {now : ℚ}

/-! ## What later requests see -/

/-- Backends with the same reset time accept the same requests. -/
theorem requestsAccepted_congr {later : List ℚ} (inOrder : later.Pairwise (· ≤ ·))
    (notBefore : ∀ time ∈ later, now ≤ time)
    (same : next.resetTime rule entityKey now = backend.resetTime rule entityKey now) :
    next.requestsAccepted entityKey rule later = backend.requestsAccepted entityKey rule later := by
  induction later generalizing now next backend with
  | nil => rfl
  | cons time rest inductionHypothesis =>
      obtain ⟨afterFirst, restInOrder⟩ := List.pairwise_cons.mp inOrder
      have before := notBefore time List.mem_cons_self
      have sameAtTime : next.resetTime rule entityKey time =
          backend.resetTime rule entityKey time := by
        rw [resetTime_of_le before, resetTime_of_le before, same]
      have sameAnswer : (next.needToLimit entityKey rule time).1.1 =
          (backend.needToLimit entityKey rule time).1.1 := by
        rw [Bool.eq_iff_iff, ← not_iff_not, Bool.not_eq_true, Bool.not_eq_true,
          needToLimit_accepts, needToLimit_accepts, sameAtTime]
      have sameAfter : (next.needToLimit entityKey rule time).2.resetTime rule entityKey time =
          (backend.needToLimit entityKey rule time).2.resetTime rule entityKey time := by
        rw [resetTime_needToLimit, resetTime_needToLimit, sameAnswer, sameAtTime]
      have restAccepted := inductionHypothesis restInOrder afterFirst sameAfter
      rw [requestsAccepted, requestsAccepted, sameAnswer, restAccepted]

/-- When the rule accepted a request, an interval less is left. -/
theorem requestsFitting_lt (positive : rule.Positive) (notFull : ¬ backend.Full entityKey now rule)
    (charged : backend.resetTime rule entityKey now + rule.interval ≤
      next.resetTime rule entityKey now) :
    next.requestsFitting entityKey rule now < backend.requestsFitting entityKey rule now := by
  have interval := interval_pos positive
  have less : ⌊(now + rule.timeWindow - next.resetTime rule entityKey now) / rule.interval⌋ ≤
      ⌊(now + rule.timeWindow - backend.resetTime rule entityKey now) / rule.interval⌋ - 1 := by
    rw [← Int.floor_sub_one]
    refine Int.floor_mono ?_
    rw [div_sub_one interval.ne']
    exact div_le_div_of_nonneg_right (by linarith) interval.le
  have fits : (1 : ℤ) ≤
      ⌊(now + rule.timeWindow - backend.resetTime rule entityKey now) / rule.interval⌋ := by
    rw [Int.le_floor, Int.cast_one, le_div_iff₀ interval, one_mul]
    linarith [not_lt.mp notFull]
  unfold requestsFitting
  omega

/-- A recorded request is noticed by a burst of requests. -/
theorem not_costsNothing (positive : rule.Positive) (notFull : ¬ backend.Full entityKey now rule)
    (charged : backend.resetTime rule entityKey now + rule.interval ≤
      next.resetTime rule entityKey now) :
    ¬ CostsNothing backend next entityKey now := by
  intro nothing
  have fewer := requestsFitting_lt positive notFull charged
  have nonneg : 0 ≤ next.requestsFitting entityKey rule now := le_max_left _ _
  have burst := nothing rule positive
    (List.replicate (backend.requestsFitting entityKey rule now).toNat now)
    (List.pairwise_replicate.mpr (.inr le_rfl))
    fun time member => (List.eq_of_mem_replicate member).ge
  have sameCount : next.acceptedAtOnce entityKey rule now
        (backend.requestsFitting entityKey rule now).toNat =
      backend.acceptedAtOnce entityKey rule now
        (backend.requestsFitting entityKey rule now).toNat := by
    unfold acceptedAtOnce
    rw [burst]
  have before := @acceptedAtOnce_eq rule entityKey now positive backend
    (backend.requestsFitting entityKey rule now).toNat
  have after := @acceptedAtOnce_eq rule entityKey now positive next
    (backend.requestsFitting entityKey rule now).toNat
  omega

/-! ## The rules one after another -/

theorem full_iff_rejected :
    backend.Full entityKey now rule ↔ (backend.needToLimit entityKey rule now).1.1 = true := by
  rw [← not_iff_not, Bool.not_eq_true, needToLimit_accepts, Full, not_lt]

/-- Checks never bring a reset time forward. -/
theorem resetTime_le_needToLimit (checked : Rule) :
    backend.resetTime rule entityKey now ≤
      (backend.needToLimit entityKey checked now).2.resetTime rule entityKey now := by
  rw [resetTime_needToLimit]
  split_ifs with recorded
  · rw [recorded.2.1]
    exact le_add_of_nonneg_right interval_nonneg
  · exact le_rfl

theorem resetTime_le_checkRules :
    backend.resetTime rule entityKey now ≤
      (checkRules needToLimit entityKey now rules backend).2.resetTime rule entityKey now := by
  induction rules generalizing backend with
  | nil => exact le_rfl
  | cons first rest inductionHypothesis =>
      have checked := @resetTime_le_needToLimit backend rule entityKey now first
      rw [checkRules]
      split_ifs
      · exact checked
      · exact checked.trans inductionHypothesis

/-- A request that some rule rejects leaves no trace when it is the first rule. -/
theorem checkRules_costsNothing_iff (positive : ∀ rule ∈ rules, rule.Positive)
    (rejected : (checkRules needToLimit entityKey now rules backend).1.map Prod.fst = some true) :
    CostsNothing backend (checkRules needToLimit entityKey now rules backend).2 entityKey now ↔
      ∃ rule ∈ rules.head?, backend.Full entityKey now rule := by
  cases rules with
  | nil => cases rejected
  | cons first rest =>
      simp only [List.head?_cons, Option.mem_some_iff, exists_eq_left']
      constructor
      · refine fun nothing => by_contra fun notFull => ?_
        have accepted : (backend.needToLimit entityKey first now).1.1 = false :=
          Bool.eq_false_iff.mpr fun limited => notFull (full_iff_rejected.mpr limited)
        rw [checkRules, accepted, Bool.false_or] at rejected nothing
        split_ifs at rejected nothing with isLast
        · rw [Option.map_some, accepted] at rejected
          cases rejected
        · -- The first rule has recorded the request, and the others keep its reset time.
          refine not_costsNothing (positive first List.mem_cons_self) notFull ?_ nothing
          have recorded := @resetTime_needToLimit backend first first entityKey entityKey now
          rw [if_pos ⟨accepted, rfl, rfl⟩] at recorded
          rw [← recorded]
          exact resetTime_le_checkRules
      · intro full rule _ later inOrder notBefore
        have limited := full_iff_rejected.mp full
        refine requestsAccepted_congr inOrder notBefore ?_
        rw [checkRules, limited, Bool.true_or, if_pos rfl, resetTime_needToLimit, limited]
        exact if_neg fun recorded => Bool.noConfusion recorded.1

end TornadoBackend

open TornadoBackend in
/-- A rejected request changes no answer to later requests of its entity exactly when the entity is
manually blocked or the first rule rejects the request already: a rule that comes before the one
that rejects has recorded it. -/
theorem rejected_costsNothing_iff (backend : TornadoBackend) (entityKey : String)
    {rules : List Rule} (positive : ∀ rule ∈ rules, rule.Positive) (now : ℚ)
    (rejected : (rateLimitEntity needToLimit backend entityKey rules now).1.map Prod.fst =
      some true) :
    CostsNothing backend (rateLimitEntity needToLimit backend entityKey rules now).2 entityKey
        now ↔
      backend.Blocked entityKey now ∨
        ∃ rule ∈ rules.head?, backend.Full entityKey now rule := by
  unfold rateLimitEntity at rejected ⊢
  cases blocked : backend.timestampsBlockedUntil.get? entityKey with
  | none =>
      have notBlocked : ¬ backend.Blocked entityKey now := by
        rintro ⟨blockedUntil, found, _⟩
        rw [blocked] at found
        cases found
      rw [blocked] at rejected
      exact (checkRules_costsNothing_iff positive rejected).trans (or_iff_right notBlocked).symm
  | some blockedUntil =>
      rw [blocked] at rejected
      dsimp only at rejected ⊢
      split_ifs at rejected ⊢ with isBlocked
      · exact iff_of_true (fun _ _ _ _ _ => rfl) (.inl ⟨blockedUntil, blocked, isBlocked⟩)
      · have notBlocked : ¬ backend.Blocked entityKey now := by
          rintro ⟨blockedTime, found, ahead⟩
          rw [blocked, Option.some.injEq] at found
          exact isBlocked (found ▸ ahead)
        -- The requests do not see that the block has been removed.
        have unblocked : ∀ later next, CostsNothing { backend with
            timestampsBlockedUntil := backend.timestampsBlockedUntil.erase entityKey } next entityKey
              later ↔ CostsNothing backend next entityKey later := by
          intro later next
          refine forall_congr' fun rule => forall_congr' fun _ => forall_congr' fun times =>
            forall_congr' fun inOrder => forall_congr' fun notBefore => ?_
          have same := @requestsAccepted_congr backend { backend with
            timestampsBlockedUntil := backend.timestampsBlockedUntil.erase entityKey } rule entityKey
              later times inOrder notBefore rfl
          rw [same]
        rw [← unblocked, or_iff_right notBlocked]
        exact checkRules_costsNothing_iff positive rejected

/-- One request in ten seconds, and two in an hour. -/
def tenSecondsAndHour : List Rule := [⟨10, 1⟩, ⟨3600, 2⟩]

theorem tenSecondsAndHour_positive : ∀ rule ∈ tenSecondsAndHour, rule.Positive := by
  intro rule member
  rcases List.mem_cons.mp member with rfl | member
  · exact ⟨by decide, by decide⟩
  · rcases List.mem_singleton.mp member with rfl
    exact ⟨by decide, by decide⟩

open TornadoBackend in
/-- The backend after two requests of a user, so that the hour is used up. -/
def hourUsedUp : TornadoBackend :=
  (start Dict.empty).afterRequests
    [⟨⟨"user:7", 10⟩, tenSecondsAndHour, tenSecondsAndHour_positive⟩,
      ⟨⟨"user:7", 50⟩, tenSecondsAndHour, tenSecondsAndHour_positive⟩]

open TornadoBackend in
/-- The first rule rejects a request within ten seconds, which costs nothing. -/
theorem rejected_costsNothing_iff_tenSeconds :
    CostsNothing hourUsedUp
      (rateLimitEntity needToLimit hourUsedUp "user:7" tenSecondsAndHour 55).2 "user:7" 55 := by
  refine (rejected_costsNothing_iff hourUsedUp "user:7" tenSecondsAndHour_positive 55
    (by decide +kernel)).mpr (.inr ⟨⟨10, 1⟩, rfl, ?_⟩)
  rw [full_iff_rejected]
  decide +kernel

open TornadoBackend in
/-- The second rule rejects a request that the first rule has recorded, so that the first rule
rejects the next one. -/
theorem rejected_recorded :
    (rateLimitEntity needToLimit hourUsedUp "user:7" tenSecondsAndHour 100).1.map Prod.fst =
        some true ∧
      ¬ CostsNothing hourUsedUp
        (rateLimitEntity needToLimit hourUsedUp "user:7" tenSecondsAndHour 100).2 "user:7" 100 := by
  refine ⟨by decide +kernel, fun nothing => ?_⟩
  have same := nothing ⟨10, 1⟩ ⟨by decide, by decide⟩ [105] (List.pairwise_singleton _ _)
    (by decide +kernel)
  exact absurd same (by decide +kernel)

end Zulip.RateLimiter
