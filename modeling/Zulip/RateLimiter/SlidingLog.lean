import Zulip.Foundation.Transition
import Zulip.RateLimiter.RedisBackend

/-!
# The sliding log of the rate limiter

`withinLimits_always_iff` says when the rate limiter keeps its promises: as long as no rule forbids
all requests, and no time is trimmed from the list while the same time stays in it.
-/

namespace Zulip.RateLimiter

open ExpiringKey

/-- The keys of an entity and, newest first, the times of all its accepted requests. -/
structure LimiterState where
  keys : EntityKeys
  accepted : List ℚ
  clock : ℚ

/-- What happens to the keys of an entity, with the times at which it happens. -/
inductive Action where
  | request (checkedAt recordedAt : ℚ)
  | blockAccess (now : ℚ) (seconds : ℤ)
  | unblockAccess (now : ℚ)

namespace LimiterState

/-- The state after an action. -/
def perform (rules : Rules) (state : LimiterState) : Action → LimiterState
  | .request checkedAt recordedAt =>
      let result := state.keys.rateLimitEntity rules.all rules.maxApiCalls rules.maxApiWindow
        checkedAt recordedAt
      if result.1.1 then { state with keys := result.2, clock := checkedAt }
      else ⟨result.2, recordedAt :: state.accepted, recordedAt⟩
  | .blockAccess now seconds =>
      { state with keys := state.keys.blockAccess now seconds, clock := now }
  | .unblockAccess now => { state with keys := state.keys.unblockAccess, clock := now }

/-- Times do not decrease. -/
def Enabled (state : LimiterState) : Action → Prop
  | .request checkedAt recordedAt => state.clock ≤ checkedAt ∧ checkedAt ≤ recordedAt
  | .blockAccess now _ => state.clock ≤ now
  | .unblockAccess now => state.clock ≤ now

instance (state : LimiterState) (action : Action) : Decidable (state.Enabled action) :=
  match action with
  | .request checkedAt recordedAt =>
      inferInstanceAs (Decidable (state.clock ≤ checkedAt ∧ checkedAt ≤ recordedAt))
  | .blockAccess now _ => inferInstanceAs (Decidable (state.clock ≤ now))
  | .unblockAccess now => inferInstanceAs (Decidable (state.clock ≤ now))

/-- One action. -/
def Step (rules : Rules) (state : LimiterState) (action : Action) (next : LimiterState) : Prop :=
  state.Enabled action ∧ next = state.perform rules action

/-- An entity without requests. -/
def fresh (clock : ℚ) : LimiterState := ⟨⟨none, none, none⟩, [], clock⟩

/-- How many requests were accepted in the half-open interval of a window. -/
def acceptedIn (state : LimiterState) (start : ℚ) (timeWindow : ℕ) : ℕ :=
  state.accepted.countP fun time => decide (start ≤ time ∧ time < start + timeWindow)

/-- No window has more requests than its rule allows, and the sorted set holds exactly the times in
the list. -/
structure WithinLimits (rules : Rules) (state : LimiterState) : Prop where
  window : ∀ rule ∈ rules.all, ∀ start, state.acceptedIn start rule.timeWindow ≤ rule.maxCount
  sameTimes : members state.keys.zset state.clock = (elements state.keys.list state.clock).toFinset

/-- The time that a request trims from the list is not that of an element which stays. -/
def TrimsWholeTime (rules : Rules) (keys : EntityKeys) (now : ℚ) : Prop :=
  ∀ last ∈ lindex keys.list now ((rules.maxApiCalls : ℤ) - 1),
    last ∉ (elements keys.list now).take (rules.maxApiCalls - 1)

/-- A request that is accepted under rules each of which allows a request, or has an empty window,
and that trims no time which the list still has. -/
def Allowed (rules : Rules) (state : LimiterState) : Action → Prop
  | .request checkedAt recordedAt =>
      (state.keys.isRatelimited rules.all checkedAt).1 = false →
        (∀ rule ∈ rules.all, rule.maxCount = 0 → rule.timeWindow = 0) ∧
          TrimsWholeTime rules state.keys recordedAt
  | _ => True

instance (rules : Rules) (keys : EntityKeys) (now : ℚ) :
    Decidable (TrimsWholeTime rules keys now) :=
  inferInstanceAs (Decidable (∀ last ∈ lindex keys.list now ((rules.maxApiCalls : ℤ) - 1),
    last ∉ (elements keys.list now).take (rules.maxApiCalls - 1)))

instance (rules : Rules) (state : LimiterState) (action : Action) :
    Decidable (state.Allowed rules action) :=
  match action with
  | .request checkedAt recordedAt =>
      inferInstanceAs (Decidable ((state.keys.isRatelimited rules.all checkedAt).1 = false →
        (∀ rule ∈ rules.all, rule.maxCount = 0 → rule.timeWindow = 0) ∧
          TrimsWholeTime rules state.keys recordedAt))
  | .blockAccess _ _ => .isTrue trivial
  | .unblockAccess _ => .isTrue trivial

/-! ## What the keys hold -/

/-- The two keys hold the newest of some times and expire together, or are absent. -/
inductive Stored (rules : Rules) (keys : EntityKeys) : List ℚ → Prop where
  | absent (list : keys.list = none) (zset : keys.zset = none) : Stored rules keys []
  | present {newest : ℚ} {rest : List ℚ}
      (windowPositive : 0 < rules.maxApiWindow) (callsPositive : 0 < rules.maxApiCalls)
      (list : keys.list =
        some ⟨(newest :: rest).take rules.maxApiCalls, some (newest + rules.maxApiWindow)⟩)
      (zset : keys.zset =
        some ⟨((newest :: rest).take rules.maxApiCalls).toFinset,
          some (newest + rules.maxApiWindow)⟩) :
      Stored rules keys (newest :: rest)

/-- The accepted times are those that the keys were made from, and older ones whose window is
over. -/
structure Recorded (rules : Rules) (state : LimiterState) : Prop where
  newestFirst : state.accepted.Pairwise (· ≥ ·)
  past : ∀ time ∈ state.accepted, time ≤ state.clock
  stored : ∃ recent older, state.accepted = recent ++ older ∧ Stored rules state.keys recent ∧
    ∀ time ∈ older, time + rules.maxApiWindow ≤ state.clock

/-- What commands at some time see of the accepted times. -/
structure Sees (rules : Rules) (keys : EntityKeys) (now : ℚ) (recent older : List ℚ) : Prop where
  list : elements keys.list now = recent.take rules.maxApiCalls
  zset : members keys.zset now = (recent.take rules.maxApiCalls).toFinset
  positive : recent ≠ [] → 0 < rules.maxApiWindow ∧ 0 < rules.maxApiCalls
  outside : ∀ time ∈ older, time + rules.maxApiWindow ≤ now

variable {rules : Rules} {state : LimiterState}

/-- Either the keys are still there, or all accepted times are outside of the last window. -/
theorem Recorded.sees (recorded : state.Recorded rules) {now : ℚ} (later : state.clock ≤ now) :
    ∃ recent older, state.accepted = recent ++ older ∧
      Sees rules state.keys now recent older := by
  obtain ⟨recent, older, isAccepted, stored, outside⟩ := recorded.stored
  have olderOutside : ∀ time ∈ older, time + rules.maxApiWindow ≤ now :=
    fun time member => (outside time member).trans later
  cases stored with
  | absent list zset =>
      refine ⟨[], older, isAccepted, ?_, ?_, by simp, olderOutside⟩
      · rw [list, List.take_nil]
        rfl
      · rw [zset, List.take_nil]
        rfl
  | @present newest rest windowPositive callsPositive list zset =>
      by_cases live : now ≤ newest + rules.maxApiWindow
      · refine ⟨newest :: rest, older, isAccepted, ?_, ?_, fun _ => ⟨windowPositive, callsPositive⟩,
          olderOutside⟩
        · rw [list, elements, visible_some, if_pos live]
          rfl
        · rw [zset, members, visible_some, if_pos live]
          rfl
      · refine ⟨[], state.accepted, rfl, ?_, ?_, by simp, ?_⟩
        · rw [list, elements, visible_some, if_neg live, List.take_nil]
          rfl
        · rw [zset, members, visible_some, if_neg live, List.take_nil]
          rfl
        · intro time member
          have ordered := recorded.newestFirst
          rw [isAccepted] at member ordered
          have notNewer : time ≤ newest := by
            rcases List.mem_cons.mp member with rfl | earlier
            · exact le_refl _
            · exact List.rel_of_pairwise_cons ordered earlier
          linarith

/-- In an accepted request, all times but the newest few are outside of the window of a rule. -/
theorem Recorded.outside_of_accepted (recorded : state.Recorded rules) {checkedAt : ℚ}
    (later : state.clock ≤ checkedAt)
    (accepted : (state.keys.isRatelimited rules.all checkedAt).1 = false) {rule : Rule}
    (member : rule ∈ rules.all) (positive : 0 < rule.maxCount) :
    ∀ time ∈ state.accepted.drop (rule.maxCount - 1), time + rule.timeWindow ≤ checkedAt := by
  obtain ⟨recent, older, isAccepted, sees⟩ := recorded.sees later
  have index : (rule.maxCount : ℤ) - 1 = (rule.maxCount - 1 : ℕ) := by omega
  have inList : rule.maxCount - 1 < rules.maxApiCalls := by
    have := rules.maxCount_le member
    omega
  have windows : (rule.timeWindow : ℚ) ≤ rules.maxApiWindow := by
    exact_mod_cast rules.timeWindow_le member
  intro time isTime
  by_cases short : rule.maxCount - 1 < recent.length
  · -- The rule looks at a time of the list, and the others are not newer.
    have found : lindex state.keys.list checkedAt ((rule.maxCount : ℤ) - 1) =
        some recent[rule.maxCount - 1] := by
      rw [index, lindex_natCast, sees.list, List.getElem?_take_of_lt inList,
        List.getElem?_eq_getElem short]
    have outside := EntityKeys.lt_of_accepted accepted member found
    have ordered := recorded.newestFirst
    rw [isAccepted, List.drop_append_of_le_length short.le] at isTime
    rw [isAccepted] at ordered
    have notNewer : time ≤ recent[rule.maxCount - 1] := by
      have split := List.drop_eq_getElem_cons short
      rw [split, List.cons_append] at isTime
      rcases List.mem_cons.mp isTime with rfl | earlier
      · exact le_refl _
      · have tail := ordered.sublist (List.drop_sublist (rule.maxCount - 1) (recent ++ older))
        rw [List.drop_append_of_le_length short.le, split, List.cons_append] at tail
        exact List.rel_of_pairwise_cons tail earlier
    linarith
  · have inOlder : time ∈ older := by
      rw [isAccepted, List.drop_append, List.drop_eq_nil_of_le (not_lt.mp short),
        List.nil_append] at isTime
      exact List.mem_of_mem_drop isTime
    have outside := sees.outside time inOlder
    linarith

/-- One more time fits in a window when all times but the newest few are outside of it. -/
theorem countP_cons_le {accepted : List ℚ} {now start : ℚ} {timeWindow maxCount : ℕ}
    (positive : 0 < maxCount)
    (before : (accepted.countP fun time => decide (start ≤ time ∧ time < start + timeWindow)) ≤
      maxCount)
    (outside : ∀ time ∈ accepted.drop (maxCount - 1), time + timeWindow ≤ now) :
    ((now :: accepted).countP fun time => decide (start ≤ time ∧ time < start + timeWindow)) ≤
      maxCount := by
  by_cases inside : start ≤ now ∧ now < start + timeWindow
  · have none : (accepted.drop (maxCount - 1)).countP
        (fun time => decide (start ≤ time ∧ time < start + timeWindow)) = 0 := by
      rw [List.countP_eq_zero]
      intro time member isInside
      have notBefore := (of_decide_eq_true isInside).1
      have := outside time member
      linarith [inside.2]
    have few : (accepted.take (maxCount - 1)).countP
        (fun time => decide (start ≤ time ∧ time < start + timeWindow)) ≤ maxCount - 1 :=
      List.countP_le_length.trans (List.length_take_le _ _)
    have split := @List.countP_append _
      (fun time => decide (start ≤ time ∧ time < start + timeWindow))
      (accepted.take (maxCount - 1)) (accepted.drop (maxCount - 1))
    rw [List.take_append_drop] at split
    rw [List.countP_cons_of_pos (by simpa using inside)]
    omega
  · rw [List.countP_cons_of_neg (by simpa using inside)]
    exact before

/-! ## What recording a request does -/

section Record

variable {keys : EntityKeys} {now : ℚ}

/-- The members of the sorted set after a request is recorded. -/
def recordedSet (rules : Rules) (keys : EntityKeys) (now : ℚ) : Finset ℚ :=
  match lindex keys.list now ((rules.maxApiCalls : ℤ) - 1) with
  | some last => (insert now (members keys.zset now)).erase last
  | none => insert now (members keys.zset now)

theorem incrRatelimit_list (windowPositive : 0 < rules.maxApiWindow)
    (callsPositive : 0 < rules.maxApiCalls) :
    (keys.incrRatelimit rules.maxApiCalls rules.maxApiWindow now).list =
      some ⟨now :: (elements keys.list now).take (rules.maxApiCalls - 1),
        some (now + rules.maxApiWindow)⟩ := by
  have index : (rules.maxApiCalls : ℤ) - 1 = (rules.maxApiCalls - 1 : ℕ) := by omega
  have trimmed : elements (ltrim (lpush keys.list now now) now 0 (rules.maxApiCalls - 1 : ℕ)) now =
      now :: (elements keys.list now).take (rules.maxApiCalls - 1) := by
    rw [elements_ltrim_take, lpush, elements_withElements, List.take_succ_cons]
  have kept := trimmed
  rw [ltrim, elements_withElements] at kept
  rw [EntityKeys.incrRatelimit, index]
  simp only [ltrim, kept]
  exact_mod_cast expire_withElements (List.cons_ne_nil _ _) (by exact_mod_cast windowPositive)

theorem incrRatelimit_zset (windowPositive : 0 < rules.maxApiWindow)
    (notEmpty : recordedSet rules keys now ≠ ∅) :
    (keys.incrRatelimit rules.maxApiCalls rules.maxApiWindow now).zset =
      some ⟨recordedSet rules keys now, some (now + rules.maxApiWindow)⟩ := by
  have positive : (0 : ℤ) < rules.maxApiWindow := by exact_mod_cast windowPositive
  rw [recordedSet] at notEmpty ⊢
  rw [EntityKeys.incrRatelimit]
  cases found : lindex keys.list now ((rules.maxApiCalls : ℤ) - 1) with
  | none =>
      rw [found] at notEmpty
      simp only [zadd]
      exact_mod_cast expire_withMembers notEmpty positive
  | some last =>
      rw [found] at notEmpty
      simp only [zrem, zadd, members_withMembers]
      exact_mod_cast expire_withMembers notEmpty positive

theorem members_incrRatelimit (windowPositive : 0 < rules.maxApiWindow) :
    members (keys.incrRatelimit rules.maxApiCalls rules.maxApiWindow now).zset now =
      recordedSet rules keys now := by
  have positive : (0 : ℤ) < rules.maxApiWindow := by exact_mod_cast windowPositive
  rw [EntityKeys.incrRatelimit, recordedSet]
  simp only [members_expire positive]
  cases lindex keys.list now ((rules.maxApiCalls : ℤ) - 1) with
  | none => simp only [zadd, members_withMembers]
  | some last => simp only [zrem, zadd, members_withMembers]

/-- With an empty window, recording a request deletes the keys. -/
theorem incrRatelimit_of_no_window (noWindow : rules.maxApiWindow = 0) :
    (keys.incrRatelimit rules.maxApiCalls rules.maxApiWindow now).list = none ∧
      (keys.incrRatelimit rules.maxApiCalls rules.maxApiWindow now).zset = none := by
  constructor <;> simp [EntityKeys.incrRatelimit, expire_of_not_pos, noWindow]

/-- When the time that is trimmed is gone from the list, the sorted set has the times that stay. -/
theorem recordedSet_eq {recent older : List ℚ} (sees : Sees rules keys now recent older)
    (callsPositive : 0 < rules.maxApiCalls) (whole : TrimsWholeTime rules keys now)
    (notNow : ∀ last ∈ lindex keys.list now ((rules.maxApiCalls : ℤ) - 1), last ≠ now) :
    recordedSet rules keys now = ((now :: recent).take rules.maxApiCalls).toFinset := by
  have index : (rules.maxApiCalls : ℤ) - 1 = (rules.maxApiCalls - 1 : ℕ) := by omega
  have calls : rules.maxApiCalls = rules.maxApiCalls - 1 + 1 := by omega
  rw [calls, List.take_succ_cons, List.toFinset_cons, recordedSet, sees.zset]
  rw [TrimsWholeTime] at whole
  rw [index, lindex_natCast, sees.list, List.getElem?_take_of_lt (by omega)] at whole notNow ⊢
  rw [List.take_take, min_eq_left (by omega)] at whole
  have split : recent.take rules.maxApiCalls =
      recent.take (rules.maxApiCalls - 1) ++ recent[rules.maxApiCalls - 1]?.toList := by
    conv_lhs => rw [calls]
    exact List.take_add_one
  rw [split]
  cases found : recent[rules.maxApiCalls - 1]? with
  | none => simp
  | some last =>
      ext time
      have stays := whole last found
      have notLast := notNow last found
      simp only [Option.toList_some, List.toFinset_append, List.toFinset_cons, List.toFinset_nil,
        Finset.mem_erase, Finset.mem_insert, Finset.mem_union, List.mem_toFinset,
        Finset.notMem_empty, or_false]
      constructor
      · rintro ⟨different, isNow | kept | isLast⟩
        · exact .inl isNow
        · exact .inr kept
        · exact absurd isLast different
      · rintro (isNow | kept)
        · exact ⟨fun isLast => notLast (isLast.symm.trans isNow), .inl isNow⟩
        · exact ⟨fun isLast => stays (isLast ▸ kept), .inr (.inl kept)⟩

end Record

/-! ## Steps -/

@[simp] theorem perform_of_rejected {checkedAt recordedAt : ℚ}
    (rejected : (state.keys.isRatelimited rules.all checkedAt).1 = true) :
    state.perform rules (.request checkedAt recordedAt) = { state with clock := checkedAt } := by
  simp [perform, EntityKeys.rateLimitEntity, rejected]

theorem perform_of_accepted {checkedAt recordedAt : ℚ}
    (accepted : (state.keys.isRatelimited rules.all checkedAt).1 = false) :
    state.perform rules (.request checkedAt recordedAt) =
      ⟨state.keys.incrRatelimit rules.maxApiCalls rules.maxApiWindow recordedAt,
        recordedAt :: state.accepted, recordedAt⟩ := by
  simp [perform, EntityKeys.rateLimitEntity, accepted]

/-- Time passes for the keys. -/
theorem Recorded.later (recorded : state.Recorded rules) {keys : EntityKeys} {now : ℚ}
    (later : state.clock ≤ now) (sameList : keys.list = state.keys.list)
    (sameSet : keys.zset = state.keys.zset) :
    Recorded rules { state with keys, clock := now } where
  newestFirst := recorded.newestFirst
  past time member := (recorded.past time member).trans later
  stored := by
    obtain ⟨recent, older, isAccepted, stored, outside⟩ := recorded.stored
    refine ⟨recent, older, isAccepted, ?_, fun time member => (outside time member).trans later⟩
    cases stored with
    | absent list zset => exact .absent (sameList.trans list) (sameSet.trans zset)
    | present windowPositive callsPositive list zset =>
        exact .present windowPositive callsPositive (sameList.trans list) (sameSet.trans zset)

theorem WithinLimits.later (limits : state.WithinLimits rules) (recorded : state.Recorded rules)
    {keys : EntityKeys} {now : ℚ} (later : state.clock ≤ now)
    (sameList : keys.list = state.keys.list) (sameSet : keys.zset = state.keys.zset) :
    WithinLimits rules { state with keys, clock := now } where
  window := limits.window
  sameTimes := by
    obtain ⟨recent, older, -, sees⟩ := recorded.sees later
    simp only [sameList, sameSet, sees.list, sees.zset]

/-- The window of the last rule is empty when no rule but those with an empty window forbids all
requests, and the last rule does so. -/
theorem no_window_of_no_calls
    (allows : ∀ rule ∈ rules.all, rule.maxCount = 0 → rule.timeWindow = 0)
    (noCalls : rules.maxApiCalls = 0) : rules.maxApiWindow = 0 :=
  allows _ (List.getLast_mem rules.notEmpty) noCalls

/-- The time that a request trims is before the window of the last rule. -/
theorem trimmed_lt {keys : EntityKeys} {checkedAt recordedAt : ℚ}
    (accepted : (keys.isRatelimited rules.all checkedAt).1 = false) (later : checkedAt ≤ recordedAt) :
    ∀ last ∈ lindex keys.list recordedAt ((rules.maxApiCalls : ℤ) - 1), last ≠ recordedAt := by
  intro last isLast
  -- The list is still there when the request is recorded, so it was there for the check.
  have same : elements keys.list checkedAt = elements keys.list recordedAt :=
    elements_eq_of_ne_nil later (elements_ne_nil_of_lindex isLast)
  have found : lindex keys.list checkedAt ((rules.maxApiCalls : ℤ) - 1) = some last := by
    rw [lindex, same]
    exact isLast
  have outside := EntityKeys.lt_of_accepted accepted (List.getLast_mem rules.notEmpty) found
  have : (0 : ℚ) ≤ (rules.all.getLast rules.notEmpty).timeWindow := by positivity
  intro isNow
  linarith

/-- An accepted request leaves the keys with the newest times. -/
theorem Recorded.accept (recorded : state.Recorded rules) {checkedAt recordedAt : ℚ}
    (enabled : state.Enabled (.request checkedAt recordedAt))
    (accepted : (state.keys.isRatelimited rules.all checkedAt).1 = false)
    (allowed : state.Allowed rules (.request checkedAt recordedAt)) :
    (state.perform rules (.request checkedAt recordedAt)).Recorded rules := by
  obtain ⟨allows, whole⟩ := allowed accepted
  have later : state.clock ≤ recordedAt := enabled.1.trans enabled.2
  obtain ⟨recent, older, isAccepted, sees⟩ := recorded.sees later
  rw [perform_of_accepted accepted]
  have past : ∀ time ∈ state.accepted, time ≤ recordedAt :=
    fun time member => (recorded.past time member).trans later
  refine ⟨List.pairwise_cons.mpr ⟨past, recorded.newestFirst⟩, ?_, ?_⟩
  · rw [List.forall_mem_cons]
    exact ⟨le_refl _, past⟩
  · rcases Nat.eq_zero_or_pos rules.maxApiWindow with noWindow | windowPositive
    · obtain ⟨noList, noSet⟩ := @incrRatelimit_of_no_window _ state.keys recordedAt noWindow
      refine ⟨[], recordedAt :: state.accepted, rfl, .absent noList noSet, ?_⟩
      rw [noWindow, List.forall_mem_cons]
      simpa using past
    · have callsPositive : 0 < rules.maxApiCalls := by
        rcases Nat.eq_zero_or_pos rules.maxApiCalls with noCalls | positive
        · have := no_window_of_no_calls allows noCalls
          omega
        · exact positive
      have calls : rules.maxApiCalls = rules.maxApiCalls - 1 + 1 := by omega
      have newSet := recordedSet_eq sees callsPositive whole
        (trimmed_lt accepted enabled.2)
      have newList : recordedAt :: (elements state.keys.list recordedAt).take
          (rules.maxApiCalls - 1) = (recordedAt :: recent).take rules.maxApiCalls := by
        conv_rhs => rw [calls]
        rw [sees.list, List.take_take, min_eq_left (by omega), List.take_succ_cons]
      refine ⟨recordedAt :: recent, older, by rw [isAccepted, List.cons_append],
        .present windowPositive callsPositive ?_ ?_, sees.outside⟩
      · rw [incrRatelimit_list windowPositive callsPositive, newList]
      · rw [incrRatelimit_zset windowPositive, newSet]
        rw [newSet, calls, List.take_succ_cons, List.toFinset_cons]
        exact Finset.insert_ne_empty _ _

/-- An accepted request keeps the promises exactly when it is allowed. -/
theorem accept_withinLimits_iff (recorded : state.Recorded rules) (limits : state.WithinLimits rules)
    {checkedAt recordedAt : ℚ} (enabled : state.Enabled (.request checkedAt recordedAt))
    (accepted : (state.keys.isRatelimited rules.all checkedAt).1 = false) :
    (state.perform rules (.request checkedAt recordedAt)).WithinLimits rules ↔
      state.Allowed rules (.request checkedAt recordedAt) := by
  have later : state.clock ≤ recordedAt := enabled.1.trans enabled.2
  constructor
  · rw [perform_of_accepted accepted]
    intro nextLimits _
    constructor
    · intro rule member noCalls
      by_contra window
      have positive : (0 : ℚ) < rule.timeWindow := by exact_mod_cast Nat.pos_of_ne_zero window
      have counted := nextLimits.window rule member recordedAt
      rw [acceptedIn, List.countP_cons_of_pos (by simpa using positive)] at counted
      omega
    · intro last isLast kept
      obtain ⟨recent, older, -, sees⟩ := recorded.sees later
      have notEmpty : recent ≠ [] := by
        rintro rfl
        rw [sees.list, List.take_nil, List.take_nil] at kept
        cases kept
      obtain ⟨windowPositive, callsPositive⟩ := sees.positive notEmpty
      have same := nextLimits.sameTimes
      have positive : (recordedAt : ℚ) ≤ recordedAt + rules.maxApiWindow := by
        have : (0 : ℚ) ≤ rules.maxApiWindow := by positivity
        linarith
      rw [members_incrRatelimit windowPositive, recordedSet, Option.mem_def.mp isLast,
        incrRatelimit_list windowPositive callsPositive, elements, visible_some,
        if_pos positive] at same
      have inList : last ∈ (recordedAt :: (elements state.keys.list recordedAt).take
          (rules.maxApiCalls - 1)).toFinset := by
        simpa using Or.inr kept
      have inSet := same.symm ▸ inList
      exact Finset.notMem_erase _ _ inSet
  · intro allowed
    refine ⟨?_, ?_⟩
    · intro rule member start
      rw [perform_of_accepted accepted]
      rcases Nat.eq_zero_or_pos rule.maxCount with noCalls | positive
      · have noWindow := (allowed accepted).1 rule member noCalls
        have none : ∀ time : ℚ, ¬ (start ≤ time ∧ time < start + rule.timeWindow) := by
          intro time inside
          rw [noWindow] at inside
          have := inside.1.trans_lt inside.2
          simp at this
        rw [acceptedIn, List.countP_eq_zero.mpr fun time _ inside =>
          none time (of_decide_eq_true inside)]
        exact Nat.zero_le _
      · refine countP_cons_le positive (limits.window rule member start) ?_
        intro time isTime
        exact (recorded.outside_of_accepted enabled.1 accepted member positive time isTime).trans
          enabled.2
    · obtain ⟨recent, older, -, sees⟩ :=
        (recorded.accept enabled accepted allowed).sees (le_refl _)
      rw [sees.list, sees.zset]

/-- An action keeps the promises exactly when it is allowed. -/
theorem perform_withinLimits_iff (recorded : state.Recorded rules)
    (limits : state.WithinLimits rules) {action : Action} (enabled : state.Enabled action) :
    (state.perform rules action).WithinLimits rules ↔ state.Allowed rules action := by
  cases action with
  | request checkedAt recordedAt =>
      cases accepted : (state.keys.isRatelimited rules.all checkedAt).1 with
      | true =>
          rw [perform_of_rejected accepted]
          exact iff_of_true (limits.later recorded enabled.1 rfl rfl) fun rejected => by
            rw [accepted] at rejected
            cases rejected
      | false => exact accept_withinLimits_iff recorded limits enabled accepted
  | blockAccess now seconds => exact iff_of_true (limits.later recorded enabled rfl rfl) trivial
  | unblockAccess now => exact iff_of_true (limits.later recorded enabled rfl rfl) trivial

/-- An allowed action keeps what the keys hold. -/
theorem Recorded.perform (recorded : state.Recorded rules) {action : Action}
    (enabled : state.Enabled action) (allowed : state.Allowed rules action) :
    (state.perform rules action).Recorded rules := by
  cases action with
  | request checkedAt recordedAt =>
      cases accepted : (state.keys.isRatelimited rules.all checkedAt).1 with
      | true =>
          rw [perform_of_rejected accepted]
          exact recorded.later enabled.1 rfl rfl
      | false => exact recorded.accept enabled accepted allowed
  | blockAccess now seconds => exact recorded.later enabled rfl rfl
  | unblockAccess now => exact recorded.later enabled rfl rfl

theorem fresh_recorded (rules : Rules) (clock : ℚ) : (fresh clock).Recorded rules where
  newestFirst := List.Pairwise.nil
  past time member := by cases member
  stored := ⟨[], [], rfl, .absent rfl rfl, by simp⟩

theorem fresh_withinLimits (rules : Rules) (clock : ℚ) : (fresh clock).WithinLimits rules where
  window rule _ start := by simp [fresh, acceptedIn]
  sameTimes := rfl

end LimiterState

open LimiterState in
/-- In every run, all windows are within their limits and the sorted set has the times of the list,
exactly as long as every accepted request is allowed. -/
theorem withinLimits_always_iff (rules : Rules) {clock : ℚ} {final : LimiterState}
    {trace : List (LimiterState × Action)} (run : Run (Step rules) (fresh clock) trace final) :
    Run.Always (WithinLimits rules) trace final ↔
      ∀ visit ∈ trace, Allowed rules visit.1 visit.2 := by
  have preserved : ∀ {state : LimiterState} {action : Action} {next : LimiterState},
      state.Recorded rules → state.WithinLimits rules → Step rules state action next →
        state.Allowed rules action → next.Recorded rules := by
    rintro state action next recorded - ⟨enabled, rfl⟩ allowed
    exact recorded.perform enabled allowed
  have stepIff : ∀ {state : LimiterState} {action : Action} {next : LimiterState},
      state.Recorded rules → state.WithinLimits rules → Step rules state action next →
        (next.WithinLimits rules ↔ state.Allowed rules action) := by
    rintro state action next recorded limits ⟨enabled, rfl⟩
    exact perform_withinLimits_iff recorded limits enabled
  exact @Run.always_iff _ _ _ (Recorded rules) _ _ _ _ _ run (fresh_recorded rules clock)
    (fresh_withinLimits rules clock) preserved stepIff

/-- Three requests in ten seconds. -/
def threeInTen : Rules where
  all := [⟨10, 3⟩]
  notEmpty := by decide
  windowsNondecreasing := by decide
  countsNondecreasing := by decide

/-- The states of an entity to which requests come at some times. -/
def afterRequests (rules : Rules) (times : List ℚ) : LimiterState :=
  times.foldl (fun state time => state.perform rules (.request time time)) (LimiterState.fresh 0)

open LimiterState in
/-- Four requests at different times, the last of them after the first one's window. -/
theorem withinLimits_always_iff_four :
    Run.Always (WithinLimits threeInTen)
      [(afterRequests threeInTen [], Action.request 0 0),
        (afterRequests threeInTen [0], Action.request 1 1),
        (afterRequests threeInTen [0, 1], Action.request 5 5),
        (afterRequests threeInTen [0, 1, 5], Action.request 11 11)]
      (afterRequests threeInTen [0, 1, 5, 11]) := by
  have run : Run (Step threeInTen) (fresh 0)
      [(afterRequests threeInTen [], .request 0 0), (afterRequests threeInTen [0], .request 1 1),
        (afterRequests threeInTen [0, 1], .request 5 5),
        (afterRequests threeInTen [0, 1, 5], .request 11 11)]
      (afterRequests threeInTen [0, 1, 5, 11]) :=
    .step (.step (.step (.step .refl ⟨by decide +kernel, rfl⟩) ⟨by decide +kernel, rfl⟩)
      ⟨by decide +kernel, rfl⟩) ⟨by decide +kernel, rfl⟩
  exact (withinLimits_always_iff threeInTen run).mpr (by decide +kernel)

open LimiterState in
/-- Two requests at one time: when the first one is trimmed, the sorted set loses the time of the
second one, which is still in the list. -/
theorem equalTimes_lost :
    ∃ (trace : List (LimiterState × Action)) (final : LimiterState),
      Run (Step threeInTen) (fresh 0) trace final ∧
        ¬ Run.Always (WithinLimits threeInTen) trace final := by
  have run : Run (Step threeInTen) (fresh 0)
      [(afterRequests threeInTen [], .request 0 0), (afterRequests threeInTen [0], .request 0 0),
        (afterRequests threeInTen [0, 0], .request 5 5),
        (afterRequests threeInTen [0, 0, 5], .request 11 11)]
      (afterRequests threeInTen [0, 0, 5, 11]) :=
    .step (.step (.step (.step .refl ⟨by decide +kernel, rfl⟩) ⟨by decide +kernel, rfl⟩)
      ⟨by decide +kernel, rfl⟩) ⟨by decide +kernel, rfl⟩
  refine ⟨_, _, run, ?_⟩
  rintro ⟨-, limits⟩
  exact absurd limits.sameTimes (by decide +kernel)

end Zulip.RateLimiter
