import Mathlib.Data.Finset.Basic

/-!
# Flags of a `UserMessage`

The bits of `AbstractUserMessage.flags`, as a set of flags. A test with a bit mask asks whether
any flag of the mask is set.
-/

namespace Zulip.Messages

/-- `AbstractUserMessage.ALL_FLAGS`. -/
inductive Flag where
  | read
  | starred
  | collapsed
  | mentioned
  | streamWildcardMentioned
  | topicWildcardMentioned
  | groupMentioned
  | forceExpand
  | forceCollapse
  | hasAlertWord
  | historical
  | isPrivate
  | activeMobilePushNotification
deriving DecidableEq, Repr

/-- The value of a `flags` column. -/
abbrev Flags := Finset Flag

/-- `flags & mask != 0`. -/
def Flags.test (flags mask : Flags) : Bool := decide (¬Disjoint flags mask)

theorem Flags.test_iff {flags mask : Flags} : flags.test mask ↔ ∃ flag ∈ mask, flag ∈ flags := by
  rw [Flags.test, decide_eq_true_eq, Finset.not_disjoint_iff]
  exact exists_congr fun flag => and_comm

@[simp] theorem Flags.test_singleton {flags : Flags} {flag : Flag} :
    flags.test {flag} ↔ flag ∈ flags := by
  simp [Flags.test_iff]

/-- `DEFAULT_HISTORICAL_FLAGS`. -/
def defaultHistoricalFlags : Flags := {.historical, .read}

/-- `AbstractUserMessage.NON_API_FLAGS`. -/
def nonApiFlags : Flags := {.isPrivate, .activeMobilePushNotification}

/-- The name of a flag. -/
def Flag.name : Flag → String
  | .read => "read"
  | .starred => "starred"
  | .collapsed => "collapsed"
  | .mentioned => "mentioned"
  | .streamWildcardMentioned => "stream_wildcard_mentioned"
  | .topicWildcardMentioned => "topic_wildcard_mentioned"
  | .groupMentioned => "group_mentioned"
  | .forceExpand => "force_expand"
  | .forceCollapse => "force_collapse"
  | .hasAlertWord => "has_alert_word"
  | .historical => "historical"
  | .isPrivate => "is_private"
  | .activeMobilePushNotification => "active_mobile_push_notification"

theorem Flag.name_injective : Function.Injective Flag.name := by
  intro left right sameName
  cases left <;> cases right <;> first | rfl | exact absurd sameName (by decide)

/-- The flags in the order of `ALL_FLAGS`. -/
def allFlags : List Flag :=
  [.read, .starred, .collapsed, .mentioned, .streamWildcardMentioned, .topicWildcardMentioned,
    .groupMentioned, .forceExpand, .forceCollapse, .hasAlertWord, .historical, .isPrivate,
    .activeMobilePushNotification]

theorem mem_allFlags (flag : Flag) : flag ∈ allFlags := by cases flag <;> decide

/-- `AbstractUserMessage.flags_list`. -/
def Flags.flagsList (flags : Flags) : List String :=
  (allFlags.filter fun flag => flag ∈ flags ∧ flag ∉ nonApiFlags).map Flag.name

/-- The names that `flags_list` gives. -/
theorem Flags.name_mem_flagsList {flags : Flags} {flag : Flag} :
    flag.name ∈ flags.flagsList ↔ flag ∈ flags ∧ flag ∉ nonApiFlags := by
  rw [flagsList, List.mem_map_of_injective Flag.name_injective, List.mem_filter, decide_eq_true_eq]
  exact and_iff_right (mem_allFlags flag)

end Zulip.Messages
