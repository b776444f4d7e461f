import Mathlib.Tactic.FieldSimp
import Mathlib.Tactic.Linarith
import Mathlib.Tactic.Positivity
import Mathlib.Tactic.Ring
import Zulip.Foundation.Pointwise
import Zulip.RateLimiter.RedisBackend

/-!
# The in-memory backend of the rate limiter

The backend keeps one time for every entity and rule, at which the requests so far are forgotten.
`inMemoryLimit` bounds the requests of an entity in every interval of time, and shows that the
garbage collector cannot be noticed.
-/

namespace Zulip.RateLimiter

/-- The class variables of the backend: the reset times of every rule, when they were last
collected, and until when entities are manually blocked. -/
structure TornadoBackend where
  resetTimes : Dict Rule (Dict String ℚ)
  lastGcTime : Dict Rule ℚ
  timestampsBlockedUntil : Dict String ℚ

/-- How long it takes until one request more is allowed. -/
def Rule.interval (rule : Rule) : ℚ := rule.timeWindow / rule.maxCount

structure Request where
  entityKey : String
  time : ℚ
deriving DecidableEq

/-- Whether a request is rate-limited, and for how long. -/
abbrev Answer := Bool × ℚ

/-- The check of one rule. -/
abbrev Limiter := TornadoBackend → String → Rule → ℚ → Answer × TornadoBackend

namespace TornadoBackend

/-- Delete the reset times that have passed. -/
def garbageCollectForRule (backend : TornadoBackend) (now : ℚ) (rule : Rule) : TornadoBackend :=
  match backend.resetTimes.get? rule with
  | none => backend
  | some resetTimesForRule =>
      let keysToDelete := (resetTimesForRule.entries.filter fun entry => entry.2 < now).map Prod.fst
      let kept := keysToDelete.foldl Dict.erase resetTimesForRule
      if kept.keys.isEmpty then { backend with resetTimes := backend.resetTimes.erase rule }
      else { backend with resetTimes := backend.resetTimes.set rule kept }

/-- Remove all reset times that are too old, from time to time. -/
def collectIfDue (backend : TornadoBackend) (rule : Rule) (now : ℚ) : TornadoBackend :=
  if backend.lastGcTime.getD rule 0 ≤ now - rule.interval then
    ({ backend with lastGcTime := backend.lastGcTime.set rule now }).garbageCollectForRule now rule
  else backend

/-- The check of a rule, after the collection. -/
def limitOrRecord : Limiter := fun backend entityKey rule now =>
  let resetTimesForRule := backend.resetTimes.getD rule Dict.empty
  let newReset := max (resetTimesForRule.getD entityKey now) now + rule.interval
  if newReset > now + rule.timeWindow then
    -- For how long the bucket remains filled.
    ((true, newReset - rule.timeWindow - now),
      { backend with resetTimes := backend.resetTimes.set rule resetTimesForRule })
  else
    ((false, 0),
      { backend with
        resetTimes := backend.resetTimes.set rule (resetTimesForRule.set entityKey newReset) })

def needToLimit : Limiter := fun backend entityKey rule now =>
  (backend.collectIfDue rule now).limitOrRecord entityKey rule now

/-- The loop over the rules, which fails without rules. -/
def checkRules (limit : Limiter) (entityKey : String) (now : ℚ) :
    List Rule → TornadoBackend → Option Answer × TornadoBackend
  | [], backend => (none, backend)
  | rule :: rest, backend =>
      let checked := limit backend entityKey rule now
      if checked.1.1 || rest.isEmpty then (some checked.1, checked.2)
      else checkRules limit entityKey now rest checked.2

def rateLimitEntity (limit : Limiter) (backend : TornadoBackend) (entityKey : String)
    (rules : List Rule) (now : ℚ) : Option Answer × TornadoBackend :=
  match backend.timestampsBlockedUntil.get? entityKey with
  | some blockedUntil =>
      if now < blockedUntil then (some (true, blockedUntil - now), backend)
      else
        checkRules limit entityKey now rules
          { backend with
            timestampsBlockedUntil := backend.timestampsBlockedUntil.erase entityKey }
  | none => checkRules limit entityKey now rules backend

/-- The requests with their answers. -/
def handleRequests (limit : Limiter) (rules : String → List Rule) :
    TornadoBackend → List Request → List (Request × Option Answer)
  | _, [] => []
  | backend, request :: rest =>
      let handled :=
        rateLimitEntity limit backend request.entityKey (rules request.entityKey) request.time
      (request, handled.1) :: handleRequests limit rules handled.2 rest

/-- No requests so far; entities may be blocked. -/
def start (timestampsBlockedUntil : Dict String ℚ) : TornadoBackend :=
  ⟨Dict.empty, Dict.empty, timestampsBlockedUntil⟩

end TornadoBackend

/-- The number of accepted requests of an entity in a closed interval. -/
def acceptedWithin (handled : List (Request × Option Answer)) (entityKey : String)
    (first last : ℚ) : ℕ :=
  handled.countP fun entry => entry.1.entityKey == entityKey &&
    (entry.2.map Prod.fst == some false) && decide (first ≤ entry.1.time ∧ entry.1.time ≤ last)

/-! ## When the requests so far are forgotten -/

namespace TornadoBackend

/-- The reset time of an entity, as the check of a rule sees it. -/
def resetTime (backend : TornadoBackend) (rule : Rule) (entityKey : String) (now : ℚ) : ℚ :=
  max ((backend.resetTimes.getD rule Dict.empty).getD entityKey now) now

variable {backend : TornadoBackend} {rule other : Rule} {entityKey otherKey : String} {now after : ℚ}

theorem le_resetTime : now ≤ backend.resetTime rule entityKey now := le_max_right _ _

/-- Reset times that pass are forgotten. -/
theorem resetTime_of_le (before : now ≤ after) :
    backend.resetTime rule entityKey after = max (backend.resetTime rule entityKey now) after := by
  simp only [resetTime, Dict.getD]
  cases (((backend.resetTimes.get? rule).getD Dict.empty).get? entityKey) with
  | none => simp [before]
  | some time => simp [max_assoc, before]

theorem resetTime_mono (before : now ≤ after) :
    backend.resetTime rule entityKey now ≤ backend.resetTime rule entityKey after := by
  rw [resetTime_of_le before]
  exact le_max_left _ _

theorem resetTime_set (times : Dict String ℚ) :
    ({ backend with resetTimes := backend.resetTimes.set rule times }).resetTime other entityKey
        now =
      if other = rule then max (times.getD entityKey now) now
      else backend.resetTime other entityKey now := by
  rw [resetTime, Dict.getD_set]
  split_ifs <;> rfl

theorem resetTime_erase :
    ({ backend with resetTimes := backend.resetTimes.erase rule }).resetTime other entityKey now =
      if other = rule then now else backend.resetTime other entityKey now := by
  simp only [resetTime, Dict.getD, Dict.get?_erase]
  split_ifs
  · exact max_self now
  · rfl

/-- The collector deletes nothing that a check would see. -/
theorem resetTime_garbageCollectForRule :
    (backend.garbageCollectForRule now rule).resetTime other entityKey now =
      backend.resetTime other entityKey now := by
  rw [garbageCollectForRule]
  cases found : backend.resetTimes.get? rule with
  | none => rfl
  | some times =>
      have same : backend.resetTimes.getD rule Dict.empty = times := by rw [Dict.getD, found]; rfl
      have kept : max (((((times.entries.filter fun entry => entry.2 < now).map Prod.fst).foldl
          Dict.erase times).getD entityKey now)) now = max (times.getD entityKey now) now := by
        rw [Dict.getD, Dict.get?_foldl_erase]
        split_ifs with deleted
        · obtain ⟨⟨key, time⟩, isDeleted, rfl⟩ := List.mem_map.mp deleted
          obtain ⟨isEntry, passed⟩ := List.mem_filter.mp isDeleted
          have isTime := Dict.get?_eq_some_iff.mpr isEntry
          rw [Dict.getD, isTime]
          exact (max_self now).trans (max_eq_right (of_decide_eq_true passed).le).symm
        · rfl
      dsimp only
      split_ifs with noneKept
      · rw [resetTime_erase]
        split_ifs with isRule
        · have noTime : (((times.entries.filter fun entry => entry.2 < now).map Prod.fst).foldl
              Dict.erase times).get? entityKey = none := by
            refine Dict.get?_eq_none_iff.mpr ?_
            rw [List.isEmpty_iff.mp noneKept]
            exact List.not_mem_nil
          rw [Dict.getD, noTime, Option.getD_none, max_self] at kept
          rw [isRule, resetTime, same, ← kept]
        · rfl
      · rw [resetTime_set]
        split_ifs with isRule
        · rw [kept, isRule, resetTime, same]
        · rfl

theorem resetTime_collectIfDue :
    (backend.collectIfDue rule now).resetTime other entityKey now =
      backend.resetTime other entityKey now := by
  rw [collectIfDue]
  split_ifs
  · rw [resetTime_garbageCollectForRule]
    rfl
  · rfl

theorem timestampsBlockedUntil_collectIfDue :
    (backend.collectIfDue rule now).timestampsBlockedUntil = backend.timestampsBlockedUntil := by
  rw [collectIfDue, garbageCollectForRule]
  split_ifs
  · split
    · rfl
    · dsimp only
      split_ifs <;> rfl
  · rfl

/-! ## The check of a rule -/

/-- The answer of a check. -/
theorem limitOrRecord_answer :
    (backend.limitOrRecord entityKey rule now).1 =
      if backend.resetTime rule entityKey now + rule.interval > now + rule.timeWindow then
        (true, backend.resetTime rule entityKey now + rule.interval - rule.timeWindow - now)
      else (false, 0) := by
  rw [limitOrRecord, resetTime]
  split_ifs <;> rfl

/-- A request that meets a rule postpones the reset time of the entity. -/
theorem resetTime_limitOrRecord (positive : 0 ≤ rule.interval) :
    (backend.limitOrRecord entityKey rule now).2.resetTime other otherKey now =
      if (backend.limitOrRecord entityKey rule now).1.1 = false ∧ other = rule ∧
          otherKey = entityKey then
        backend.resetTime rule entityKey now + rule.interval
      else backend.resetTime other otherKey now := by
  rw [limitOrRecord]
  by_cases limited : max ((backend.resetTimes.getD rule Dict.empty).getD entityKey now) now +
      rule.interval > now + rule.timeWindow
  · rw [if_pos limited, if_neg (by simp), resetTime_set]
    split_ifs with isRule
    · rw [isRule, resetTime]
    · rfl
  · rw [if_neg limited, resetTime_set, Dict.getD_set]
    by_cases isRule : other = rule
    · by_cases isKey : otherKey = entityKey
      · rw [if_pos isRule, if_pos isKey, if_pos ⟨rfl, isRule, isKey⟩, ← resetTime]
        exact max_eq_left (le_add_of_le_of_nonneg le_resetTime positive)
      · rw [if_pos isRule, if_neg isKey, if_neg fun recorded => isKey recorded.2.2, isRule, resetTime]
    · rw [if_neg isRule, if_neg fun recorded => isRule recorded.2.1]

theorem timestampsBlockedUntil_limitOrRecord :
    (backend.limitOrRecord entityKey rule now).2.timestampsBlockedUntil =
      backend.timestampsBlockedUntil := by
  rw [limitOrRecord]
  split_ifs <;> rfl

/-! ## The garbage collector -/

/-- The backends cannot be told apart from some time on. -/
structure Agree (now : ℚ) (left right : TornadoBackend) : Prop where
  blocked : left.timestampsBlockedUntil = right.timestampsBlockedUntil
  resetTime : ∀ rule entityKey,
    left.resetTime rule entityKey now = right.resetTime rule entityKey now

variable {left right : TornadoBackend}

theorem Agree.later (agree : Agree now left right) (before : now ≤ after) :
    Agree after left right := by
  refine ⟨agree.blocked, fun rule entityKey => ?_⟩
  rw [resetTime_of_le before, resetTime_of_le before, agree.resetTime]

theorem Agree.collectIfDue (agree : Agree now left right) (rule : Rule) :
    Agree now (left.collectIfDue rule now) right := by
  refine ⟨timestampsBlockedUntil_collectIfDue.trans agree.blocked, fun other entityKey => ?_⟩
  rw [resetTime_collectIfDue, agree.resetTime]

theorem Agree.limitOrRecord (agree : Agree now left right) (entityKey : String)
    (positive : 0 ≤ rule.interval) :
    (left.limitOrRecord entityKey rule now).1 = (right.limitOrRecord entityKey rule now).1 ∧
      Agree now (left.limitOrRecord entityKey rule now).2
        (right.limitOrRecord entityKey rule now).2 := by
  have sameAnswer : (left.limitOrRecord entityKey rule now).1 =
      (right.limitOrRecord entityKey rule now).1 := by
    rw [limitOrRecord_answer, limitOrRecord_answer, agree.resetTime]
  refine ⟨sameAnswer, ?_, fun other otherKey => ?_⟩
  · rw [timestampsBlockedUntil_limitOrRecord, timestampsBlockedUntil_limitOrRecord, agree.blocked]
  · rw [resetTime_limitOrRecord positive, resetTime_limitOrRecord positive, sameAnswer,
      agree.resetTime, agree.resetTime]

theorem Agree.checkRules {rules : List Rule} (positive : ∀ rule ∈ rules, 0 ≤ rule.interval)
    (agree : Agree now left right) (entityKey : String) :
    (TornadoBackend.checkRules needToLimit entityKey now rules left).1 =
        (TornadoBackend.checkRules TornadoBackend.limitOrRecord entityKey now rules right).1 ∧
      Agree now (TornadoBackend.checkRules needToLimit entityKey now rules left).2
        (TornadoBackend.checkRules TornadoBackend.limitOrRecord entityKey now rules right).2 := by
  induction rules generalizing left right with
  | nil => exact ⟨rfl, agree⟩
  | cons rule rest inductionHypothesis =>
      rw [List.forall_mem_cons] at positive
      obtain ⟨sameAnswer, next⟩ := (agree.collectIfDue rule).limitOrRecord entityKey positive.1
      simp only [TornadoBackend.checkRules, needToLimit, sameAnswer]
      split_ifs
      · exact ⟨rfl, next⟩
      · exact inductionHypothesis positive.2 next

theorem Agree.rateLimitEntity {rules : List Rule} (positive : ∀ rule ∈ rules, 0 ≤ rule.interval)
    (agree : Agree now left right) (entityKey : String) :
    (TornadoBackend.rateLimitEntity needToLimit left entityKey rules now).1 =
        (TornadoBackend.rateLimitEntity TornadoBackend.limitOrRecord right entityKey rules now).1 ∧
      Agree now (TornadoBackend.rateLimitEntity needToLimit left entityKey rules now).2
        (TornadoBackend.rateLimitEntity TornadoBackend.limitOrRecord right entityKey rules
          now).2 := by
  rw [TornadoBackend.rateLimitEntity, TornadoBackend.rateLimitEntity, agree.blocked]
  cases right.timestampsBlockedUntil.get? entityKey with
  | none => exact agree.checkRules positive entityKey
  | some blockedUntil =>
      dsimp only
      split_ifs
      · exact ⟨rfl, agree⟩
      · have unblocked : Agree now
            { left with
              timestampsBlockedUntil := right.timestampsBlockedUntil.erase entityKey }
            { right with
              timestampsBlockedUntil := right.timestampsBlockedUntil.erase entityKey } :=
          ⟨rfl, agree.resetTime⟩
        exact unblocked.checkRules positive entityKey

/-- Requests in order of time get the same answers with and without the collector. -/
theorem Agree.handleRequests {rules : String → List Rule}
    (positive : ∀ entityKey, ∀ rule ∈ rules entityKey, 0 ≤ rule.interval) {requests : List Request}
    (inOrder : requests.Pairwise fun request next => request.time ≤ next.time)
    (notBefore : ∀ request ∈ requests, now ≤ request.time) (agree : Agree now left right) :
    TornadoBackend.handleRequests needToLimit rules left requests =
      TornadoBackend.handleRequests TornadoBackend.limitOrRecord rules right requests := by
  induction requests generalizing now left right with
  | nil => rfl
  | cons request rest inductionHypothesis =>
      obtain ⟨afterFirst, restInOrder⟩ := List.pairwise_cons.mp inOrder
      obtain ⟨sameAnswer, next⟩ := (agree.later (notBefore request List.mem_cons_self)).rateLimitEntity
        (positive request.entityKey) request.entityKey
      simp only [TornadoBackend.handleRequests, sameAnswer]
      rw [inductionHypothesis restInOrder afterFirst next]

/-! ## Accepted requests -/

/-- What the checks of one request do to the reset times of its entity. -/
theorem checkRules_spec {rules : List Rule} (positive : ∀ rule ∈ rules, 0 ≤ rule.interval)
    (backend : TornadoBackend) (rule : Rule) :
    (∀ otherKey, otherKey ≠ entityKey →
        (checkRules limitOrRecord entityKey now rules backend).2.resetTime rule otherKey now =
          backend.resetTime rule otherKey now) ∧
      backend.resetTime rule entityKey now ≤
        (checkRules limitOrRecord entityKey now rules backend).2.resetTime rule entityKey now ∧
      ((checkRules limitOrRecord entityKey now rules backend).1.map Prod.fst = some false →
        (rule ∈ rules → backend.resetTime rule entityKey now + rule.interval ≤
          (checkRules limitOrRecord entityKey now rules backend).2.resetTime rule entityKey now) ∧
        (rule ∈ rules ∨ backend.resetTime rule entityKey now ≤ now + rule.timeWindow →
          (checkRules limitOrRecord entityKey now rules backend).2.resetTime rule entityKey now ≤
            now + rule.timeWindow)) := by
  induction rules generalizing backend with
  | nil =>
      refine ⟨fun _ _ => rfl, le_rfl, fun accepted => ?_⟩
      cases accepted
  | cons first rest inductionHypothesis =>
      rw [List.forall_mem_cons] at positive
      have after := fun otherKey => @resetTime_limitOrRecord backend first rule entityKey otherKey
        now positive.1
      have others : ∀ otherKey, otherKey ≠ entityKey →
          (backend.limitOrRecord entityKey first now).2.resetTime rule otherKey now =
            backend.resetTime rule otherKey now :=
        fun otherKey different => (after otherKey).trans (if_neg fun recorded =>
          different recorded.2.2)
      have grows : backend.resetTime rule entityKey now ≤
          (backend.limitOrRecord entityKey first now).2.resetTime rule entityKey now := by
        rw [after]
        split_ifs with recorded
        · rw [recorded.2.1]
          exact le_add_of_nonneg_right positive.1
        · exact le_rfl
      -- An accepted request postpones the reset time, but not by more than the window.
      have met : (backend.limitOrRecord entityKey first now).1.1 = false →
          (rule = first → backend.resetTime rule entityKey now + rule.interval ≤
            (backend.limitOrRecord entityKey first now).2.resetTime rule entityKey now) ∧
          (rule = first ∨ backend.resetTime rule entityKey now ≤ now + rule.timeWindow →
            (backend.limitOrRecord entityKey first now).2.resetTime rule entityKey now ≤
              now + rule.timeWindow) := by
        intro accepted
        rw [after]
        by_cases isFirst : rule = first
        · subst isFirst
          rw [if_pos ⟨accepted, rfl, rfl⟩]
          refine ⟨fun _ => le_rfl, fun _ => ?_⟩
          rw [limitOrRecord_answer] at accepted
          split_ifs at accepted with exceeds
          exact not_lt.mp exceeds
        · rw [if_neg fun recorded => isFirst recorded.2.1]
          exact ⟨fun same => absurd same isFirst, fun bound => bound.resolve_left isFirst⟩
      obtain ⟨restOthers, restGrows, restMet⟩ := inductionHypothesis positive.2
        (backend.limitOrRecord entityKey first now).2
      rw [checkRules]
      by_cases limited : (backend.limitOrRecord entityKey first now).1.1 = true
      · rw [if_pos (by rw [limited]; rfl)]
        refine ⟨others, grows, fun accepted => ?_⟩
        rw [Option.map_some, limited] at accepted
        cases accepted
      · have accepted := Bool.eq_false_iff.mpr limited
        obtain ⟨recorded, bounded⟩ := met accepted
        split_ifs with isLast
        · rw [accepted, Bool.false_or, List.isEmpty_iff] at isLast
          rw [isLast, List.mem_singleton]
          exact ⟨others, grows, fun _ => ⟨recorded, bounded⟩⟩
        · refine ⟨fun otherKey different =>
            (restOthers otherKey different).trans (others otherKey different),
            grows.trans restGrows, fun restAccepted => ?_⟩
          obtain ⟨restRecorded, restBounded⟩ := restMet restAccepted
          rw [List.mem_cons]
          constructor
          · rintro (isFirst | isRest)
            · exact (recorded isFirst).trans restGrows
            · exact (add_le_add_left grows _).trans (restRecorded isRest)
          · rintro ((isFirst | isRest) | bound)
            · exact restBounded (.inr (bounded (.inl isFirst)))
            · exact restBounded (.inl isRest)
            · exact restBounded (.inr (bounded (.inr bound)))

theorem rateLimitEntity_spec {rules : List Rule} (positive : ∀ rule ∈ rules, 0 ≤ rule.interval)
    (backend : TornadoBackend) (rule : Rule) :
    (∀ otherKey, otherKey ≠ entityKey →
        (rateLimitEntity limitOrRecord backend entityKey rules now).2.resetTime rule otherKey now =
          backend.resetTime rule otherKey now) ∧
      backend.resetTime rule entityKey now ≤
        (rateLimitEntity limitOrRecord backend entityKey rules now).2.resetTime rule entityKey
          now ∧
      ((rateLimitEntity limitOrRecord backend entityKey rules now).1.map Prod.fst = some false →
        rule ∈ rules → backend.resetTime rule entityKey now + rule.interval ≤
          (rateLimitEntity limitOrRecord backend entityKey rules now).2.resetTime rule entityKey
            now ∧
        (rateLimitEntity limitOrRecord backend entityKey rules now).2.resetTime rule entityKey
          now ≤ now + rule.timeWindow) := by
  have checked : ∀ unblocked : TornadoBackend,
      unblocked.resetTimes = backend.resetTimes → _ := fun unblocked _ =>
    @checkRules_spec entityKey now rules positive unblocked rule
  rw [rateLimitEntity]
  cases backend.timestampsBlockedUntil.get? entityKey with
  | none =>
      obtain ⟨others, grows, met⟩ := checked backend rfl
      exact ⟨others, grows, fun accepted member =>
        ⟨(met accepted).1 member, (met accepted).2 (.inl member)⟩⟩
  | some blockedUntil =>
      dsimp only
      split_ifs
      · refine ⟨fun _ _ => rfl, le_rfl, fun accepted => ?_⟩
        cases accepted
      · obtain ⟨others, grows, met⟩ := checked { backend with
          timestampsBlockedUntil := backend.timestampsBlockedUntil.erase entityKey } rfl
        exact ⟨others, grows, fun accepted member =>
          ⟨(met accepted).1 member, (met accepted).2 (.inl member)⟩⟩

/-- The accepted requests of an entity have postponed its reset time, and are few. -/
structure Metered (rule : Rule) (entityKey : String) (now : ℚ) (backend : TornadoBackend)
    (accepted : List ℚ) : Prop where
  past : ∀ time ∈ accepted, time ≤ now
  postponed : ∀ first ≤ now, first + accepted.countP (fun time => decide (first ≤ time)) *
    rule.interval ≤ backend.resetTime rule entityKey now
  few : ∀ first last, first ≤ last →
    accepted.countP (fun time => decide (first ≤ time ∧ time ≤ last)) * rule.interval ≤
      last - first + rule.timeWindow

variable {accepted : List ℚ} {next : TornadoBackend}

theorem Metered.start (windowNonneg : (0 : ℚ) ≤ rule.timeWindow) :
    Metered rule entityKey now backend [] := by
  refine ⟨fun time member => ?_, fun first before => ?_, fun first last before => ?_⟩
  · cases member
  · simpa using before.trans le_resetTime
  · simpa using add_nonneg (sub_nonneg.mpr before) windowNonneg

/-- Time passes. -/
theorem Metered.later (metered : Metered rule entityKey now backend accepted)
    (before : now ≤ after) : Metered rule entityKey after backend accepted := by
  refine ⟨fun time member => (metered.past time member).trans before, fun first atMost => ?_,
    metered.few⟩
  rcases le_or_gt first now with early | late
  · exact (metered.postponed first early).trans (resetTime_mono before)
  · have none : accepted.countP (fun time => decide (first ≤ time)) = 0 := by
      refine List.countP_eq_zero.mpr fun time member => ?_
      simpa using (metered.past time member).trans_lt late
    rw [none, Nat.cast_zero, zero_mul, add_zero]
    exact atMost.trans le_resetTime

/-- Checks only postpone the reset time. -/
theorem Metered.grow (metered : Metered rule entityKey now backend accepted)
    (grows : backend.resetTime rule entityKey now ≤ next.resetTime rule entityKey now) :
    Metered rule entityKey now next accepted :=
  ⟨metered.past, fun first before => (metered.postponed first before).trans grows, metered.few⟩

/-- A request is accepted, and postpones the reset time by an interval. The interval that ends with
it starts with a reset time, so that all the requests in it fit into the window after it. -/
theorem Metered.accept (metered : Metered rule entityKey now backend accepted)
    (recorded : backend.resetTime rule entityKey now + rule.interval ≤
      next.resetTime rule entityKey now)
    (bounded : next.resetTime rule entityKey now ≤ now + rule.timeWindow) :
    Metered rule entityKey now next (now :: accepted) := by
  have postponed : ∀ first ≤ now, first +
      (now :: accepted).countP (fun time => decide (first ≤ time)) * rule.interval ≤
        next.resetTime rule entityKey now := by
    intro first before
    rw [List.countP_cons_of_pos (by simpa using before)]
    push_cast
    linarith [metered.postponed first before]
  refine ⟨?_, postponed, fun first last before => ?_⟩
  · rw [List.forall_mem_cons]
    exact ⟨le_rfl, metered.past⟩
  · by_cases inside : first ≤ now ∧ now ≤ last
    · have all : (now :: accepted).countP (fun time => decide (first ≤ time ∧ time ≤ last)) =
          (now :: accepted).countP fun time => decide (first ≤ time) := by
        refine List.countP_congr fun time member => ?_
        have past : time ≤ now := by
          rcases List.mem_cons.mp member with rfl | old
          · exact le_rfl
          · exact metered.past time old
        simp [past.trans inside.2]
      rw [all]
      linarith [postponed first inside.1, inside.2]
    · rw [List.countP_cons_of_neg (by simpa using inside)]
      exact metered.few first last before

/-- The accepted requests of an entity are few in every interval. -/
theorem Metered.handleRequests {rules : String → List Rule}
    (positive : ∀ entityKey, ∀ rule ∈ rules entityKey, 0 ≤ rule.interval)
    (member : rule ∈ rules entityKey) {requests : List Request}
    (inOrder : requests.Pairwise fun request next => request.time ≤ next.time)
    (notBefore : ∀ request ∈ requests, now ≤ request.time)
    (metered : Metered rule entityKey now backend accepted) {first last : ℚ}
    (before : first ≤ last) :
    (accepted.countP (fun time => decide (first ≤ time ∧ time ≤ last)) + acceptedWithin
        (TornadoBackend.handleRequests limitOrRecord rules backend requests) entityKey first last :
          ℕ) * rule.interval ≤ last - first + rule.timeWindow := by
  induction requests generalizing now backend accepted with
  | nil => exact metered.few first last before
  | cons request rest inductionHypothesis =>
      obtain ⟨afterFirst, restInOrder⟩ := List.pairwise_cons.mp inOrder
      have atRequest := metered.later (notBefore request List.mem_cons_self)
      obtain ⟨others, grows, met⟩ := @rateLimitEntity_spec request.entityKey request.time
        (rules request.entityKey) (positive request.entityKey) backend rule
      rw [TornadoBackend.handleRequests, acceptedWithin, List.countP_cons]
      by_cases isKey : request.entityKey = entityKey
      · subst isKey
        by_cases isAccepted : (TornadoBackend.rateLimitEntity limitOrRecord backend
            request.entityKey (rules request.entityKey) request.time).1.map Prod.fst = some false
        · obtain ⟨recorded, bounded⟩ := met isAccepted member
          have bound := inductionHypothesis restInOrder afterFirst
            (atRequest.accept recorded bounded)
          rw [List.countP_cons] at bound
          simp only [acceptedWithin] at bound
          simp only [isAccepted, beq_self_eq_true, Bool.true_and] at bound ⊢
          convert bound using 3
          omega
        · have bound := inductionHypothesis restInOrder afterFirst (atRequest.grow grows)
          simp only [beq_eq_false_iff_ne.mpr isAccepted, beq_self_eq_true, Bool.true_and,
            Bool.false_and, Bool.false_eq_true, if_false, add_zero]
          exact bound
      · have bound := inductionHypothesis restInOrder afterFirst
          (atRequest.grow (others entityKey fun same => isKey same.symm).ge)
        simp only [beq_eq_false_iff_ne.mpr isKey, Bool.false_and, Bool.false_eq_true, if_false,
          add_zero]
        exact bound

end TornadoBackend

open TornadoBackend in
/-- An entity has at most `count * (t / window + 1)` accepted requests in every interval of length
`t`, for each of its rules. Without the garbage collector the answers are the same. -/
theorem inMemoryLimit (rules : String → List Rule)
    (positive : ∀ entityKey, ∀ rule ∈ rules entityKey, 0 < rule.timeWindow ∧ 0 < rule.maxCount)
    (timestampsBlockedUntil : Dict String ℚ) {requests : List Request}
    (inOrder : requests.Pairwise fun request next => request.time ≤ next.time) :
    (∀ entityKey, ∀ rule ∈ rules entityKey, ∀ (first length : ℚ), 0 ≤ length →
        (acceptedWithin (handleRequests needToLimit rules (start timestampsBlockedUntil) requests)
            entityKey first (first + length) : ℚ) ≤
          rule.maxCount * (length / rule.timeWindow + 1)) ∧
      handleRequests needToLimit rules (start timestampsBlockedUntil) requests =
        handleRequests limitOrRecord rules (start timestampsBlockedUntil) requests := by
  have nonneg : ∀ entityKey, ∀ rule ∈ rules entityKey, 0 ≤ rule.interval :=
    fun _ _ _ => div_nonneg (Nat.cast_nonneg _) (Nat.cast_nonneg _)
  obtain ⟨earliest, notBefore⟩ : ∃ earliest, ∀ request ∈ requests, earliest ≤ request.time := by
    cases requests with
    | nil => exact ⟨0, fun request member => absurd member List.not_mem_nil⟩
    | cons request rest =>
        refine ⟨request.time, List.forall_mem_cons.mpr ⟨le_rfl, ?_⟩⟩
        exact (List.pairwise_cons.mp inOrder).1
  have atStart : Agree earliest (start timestampsBlockedUntil) (start timestampsBlockedUntil) :=
    ⟨rfl, fun _ _ => rfl⟩
  have same := atStart.handleRequests nonneg inOrder notBefore
  refine ⟨fun entityKey rule member first length lengthNonneg => ?_, same⟩
  obtain ⟨windowPositive, countPositive⟩ := positive entityKey rule member
  have window : (0 : ℚ) < rule.timeWindow := by exact_mod_cast windowPositive
  have count : (0 : ℚ) < rule.maxCount := by exact_mod_cast countPositive
  have bound := Metered.handleRequests nonneg member inOrder notBefore
    (@Metered.start (start timestampsBlockedUntil) rule entityKey earliest window.le)
    (le_add_of_nonneg_right lengthNonneg : first ≤ first + length)
  rw [same]
  rw [List.countP_nil, zero_add, Rule.interval, add_sub_cancel_left, ← mul_div_assoc,
    div_le_iff₀ count] at bound
  calc
    _ ≤ (length + rule.timeWindow) * rule.maxCount / rule.timeWindow := (le_div_iff₀ window).mpr bound
    _ = _ := by
      field_simp

/-- Two requests a minute. -/
def twoPerMinute : List Rule := [⟨60, 2⟩]

/-- A burst of requests, and one more when there is room for it. -/
def burst : List Request := [⟨"user:7", 0⟩, ⟨"user:7", 1⟩, ⟨"user:8", 1⟩, ⟨"user:7", 2⟩, ⟨"user:7", 35⟩]

open TornadoBackend in
/-- The third request of the burst is rejected. -/
theorem inMemoryLimit_burst :
    (handleRequests needToLimit (fun _ => twoPerMinute) (start Dict.empty) burst).map
        (fun entry => entry.2.map Prod.fst) =
      [some false, some false, some false, some true, some false] ∧
    (acceptedWithin (handleRequests needToLimit (fun _ => twoPerMinute) (start Dict.empty) burst)
      "user:7" 0 (0 + 35) : ℚ) ≤ 2 * (35 / 60 + 1) := by
  have rules : ∀ rule ∈ twoPerMinute, 0 < rule.timeWindow ∧ 0 < rule.maxCount := by decide
  have bound := (inMemoryLimit (fun _ => twoPerMinute) (fun _ => rules) Dict.empty
    (by decide +kernel : burst.Pairwise fun request next => request.time ≤ next.time)).1 "user:7"
      ⟨60, 2⟩ (by decide) 0 35 (by norm_num)
  exact ⟨by decide +kernel, by exact_mod_cast bound⟩

end Zulip.RateLimiter
