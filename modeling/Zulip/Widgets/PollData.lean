import Mathlib.Data.Rat.Defs
import Mathlib.Order.Basic
import Mathlib.Algebra.Order.Ring.Rat
import Zulip.Foundation.Dict

/-!
# Polls

The data of one poll widget, and the events that change it. Options live under keys that are made of
the sender and of an index that the sending device chose.
-/

namespace Zulip.Widgets

/-- What `JSON.parse` returns. -/
inductive JsonValue where
  | null
  | bool (value : Bool)
  | number (value : ℚ)
  | string (value : String)
  | array (items : List JsonValue)
  | object (fields : List (String × JsonValue))

namespace JsonValue

/-- A property of an object. -/
def property (data : JsonValue) (name : String) : Option JsonValue :=
  match data with
  | .object fields => fields.lookup name
  | _ => none

/-- A property that `z.number()` accepts. -/
def numberProperty (data : JsonValue) (name : String) : Option ℚ :=
  match data.property name with
  | some (.number value) => some value
  | _ => none

/-- A property that `z.string()` accepts. -/
def stringProperty (data : JsonValue) (name : String) : Option String :=
  match data.property name with
  | some (.string value) => some value
  | _ => none

end JsonValue

/-- The sender of an event; the options of the `/poll` command are `"canned"`. -/
inductive Sender where
  | canned
  | user (userId : Nat)
deriving DecidableEq, Repr

/-- The text of a sender in a key. -/
def Sender.text : Sender → String
  | .canned => "canned"
  | .user userId => toString userId

/-- `PollOption`. -/
structure PollOption where
  option : String
  userId : Sender
  votes : Dict Nat Int
deriving DecidableEq

/-- An event that the widget sends: `NewOptionOutboundData`, `QuestionOutboundData` or
`VoteOutboundData`. -/
inductive OutboundData where
  | newOption (idx : ℚ) (option : String)
  | question (question : String)
  | vote (key : String) (vote : Int)
deriving DecidableEq

/-- The event as the other clients receive it. -/
def OutboundData.toJson : OutboundData → JsonValue
  | .newOption idx option =>
      .object [("type", .string "new_option"), ("idx", .number idx), ("option", .string option)]
  | .question text => .object [("type", .string "question"), ("question", .string text)]
  | .vote key count =>
      .object [("type", .string "vote"), ("key", .string key), ("vote", .number count)]

/-- What a handler throws. -/
inductive PollError where
  /-- A failing `assert`. -/
  | assertion (message : String)
  /-- A schema that does not match. -/
  | zod
deriving DecidableEq, Repr

/-- `MAX_IDX`. -/
def maxIdx : ℚ := 1000

/-- What the widget calls. -/
structure PollEnvironment where
  /-- The decimal text of a number. -/
  numberToString : ℚ → String
  /-- `comma_separated_names`. -/
  commaSeparatedNames : List Nat → String

/-- `PollData`. -/
structure PollData where
  keyToOption : Dict String PollOption
  myIdx : ℚ
  messageSenderId : Nat
  me : Nat
  isMyPoll : Bool
  pollQuestion : String
  inputMode : Bool

/-- A handler that ends normally: the data, and what went to `report_error_function`. -/
structure Handled where
  data : PollData
  report : Option String := none

/-- `PollOptionData`. -/
structure PollOptionData where
  option : String
  names : String
  count : Nat
  key : String
  currentUserVote : Bool
deriving DecidableEq

namespace PollData

variable (env : PollEnvironment)

/-- `set_question`. -/
def setQuestion (poll : PollData) (newQuestion : String) : PollData :=
  { poll with inputMode := false, pollQuestion := newQuestion }

/-- The options of `get_widget_data`. -/
def widgetOptions (poll : PollData) : List PollOptionData :=
  poll.keyToOption.entries.map fun entry =>
    let voters := entry.2.votes.keys
    { option := entry.2.option
      names := env.commaSeparatedNames voters
      count := voters.length
      key := entry.1
      currentUserVote := voters.contains poll.me }

/-- `is_option_present`. -/
def isOptionPresent (data : List PollOptionData) (latestOption : String) : Bool :=
  data.any fun shown => shown.option = latestOption

/-- The key of an option. -/
def optionKey (sender : Sender) (idx : ℚ) : String := sender.text ++ "," ++ env.numberToString idx

/-- `handle.new_option.outbound`. -/
def newOptionOutbound (poll : PollData) (option : String) : OutboundData × PollData :=
  (.newOption poll.myIdx option, { poll with myIdx := poll.myIdx + 1 })

/-- `handle.new_option.inbound`, once its data is parsed. -/
def addOption (poll : PollData) (sender : Sender) (idx : ℚ) (option : String) : Handled :=
  -- The `/poll` command does not prevent duplicates, so they are suppressed here.
  if isOptionPresent (poll.widgetOptions env) option then { data := poll }
  else if idx < 0 ∨ idx > maxIdx then
    { data := poll, report := some "poll widget: idx out of bound" }
  else
    { data :=
        { poll with
          keyToOption := poll.keyToOption.set (optionKey env sender idx)
            { option, userId := sender, votes := Dict.empty }
          -- I may have added a poll option from another device.
          myIdx := if sender = .user poll.me ∧ poll.myIdx ≤ idx then idx + 1 else poll.myIdx } }

/-- `handle.new_option.inbound`. -/
def newOptionInbound (poll : PollData) (sender : Sender) (data : JsonValue) :
    Except PollError Handled :=
  match data.numberProperty "idx", data.stringProperty "option" with
  | some idx, some option => .ok (poll.addOption env sender idx option)
  | _, _ => .error .zod

/-- `handle.question.outbound`. -/
def questionOutbound (poll : PollData) (question : String) : Option OutboundData :=
  if poll.isMyPoll then some (.question question) else none

/-- `handle.question.inbound`. -/
def questionInbound (poll : PollData) (sender : Nat) (data : JsonValue) :
    Except PollError Handled :=
  match data.stringProperty "question" with
  | some question =>
      -- Only the message author can edit questions.
      if sender ≠ poll.messageSenderId then
        .ok
          { data := poll
            report := some ("user " ++ toString sender ++ " is not allowed to edit the question") }
      else .ok { data := poll.setQuestion question }
  | none => .error .zod

/-- `handle.vote.outbound`. -/
def voteOutbound (poll : PollData) (key : String) : Except PollError OutboundData :=
  match poll.keyToOption.get? key with
  | none => .error (.assertion ("option key not found: " ++ key))
  | some option =>
      -- toggle
      .ok (.vote key (if (option.votes.get? poll.me).any (· ≠ 0) then -1 else 1))

/-- `handle.vote.inbound`. -/
def voteInbound (poll : PollData) (sender : Nat) (data : JsonValue) : Except PollError Handled :=
  match data.stringProperty "key", data.numberProperty "vote" with
  | some key, some vote =>
      if ¬(vote = 1 ∨ vote = -1) then
        .ok { data := poll, report := some "poll widget: bad value for inbound vote count" }
      else
        match poll.keyToOption.get? key with
        | none => .ok { data := poll, report := some ("unknown key for poll: " ++ key) }
        | some option =>
            let votes :=
              if vote = 1 then option.votes.set sender 1 else option.votes.erase sender
            .ok
              { data :=
                  { poll with keyToOption := poll.keyToOption.set key { option with votes } } }
  | _, _ => .error .zod

/-- `handle_event`. -/
def handleEvent (poll : PollData) (sender : Nat) (data : JsonValue) : Except PollError Handled :=
  match data.stringProperty "type" with
  | none => .error (.assertion "")
  | some type =>
      if type = "new_option" then poll.newOptionInbound env (.user sender) data
      else if type = "question" then poll.questionInbound sender data
      else if type = "vote" then poll.voteInbound sender data
      else
        .ok { data := poll, report := some ("poll widget: unknown inbound type: " ++ type) }

end PollData

/-- The arguments of the constructor that all clients share. -/
structure PollConfig where
  messageSenderId : Nat
  question : String
  options : List String

/-- The constructor of `PollData`, for the client of a user. -/
def newPollData (env : PollEnvironment) (config : PollConfig) (me : Nat) : PollData :=
  let poll : PollData :=
    { keyToOption := Dict.empty
      myIdx := 1
      messageSenderId := config.messageSenderId
      me
      isMyPoll := decide (config.messageSenderId = me)
      pollQuestion := config.question
      inputMode := decide (config.messageSenderId = me) }
  let poll := if config.question ≠ "" then poll.setQuestion config.question else poll
  config.options.zipIdx.foldl
    (fun poll entry => (poll.addOption env .canned entry.2 entry.1).data) poll

/-! ## Events of all clients -/

namespace PollData

section Shared

variable {env : PollEnvironment} {poll left right : PollData}

/-- The data after an event; a handler throws before it changes anything. -/
def afterEvent (env : PollEnvironment) (poll : PollData) (sender : Nat) (data : JsonValue) :
    PollData :=
  match poll.handleEvent env sender data with
  | .ok handled => handled.data
  | .error _ => poll

/-- The data after a sequence of events with their senders. -/
def afterEvents (env : PollEnvironment) (poll : PollData) (events : List (Nat × JsonValue)) :
    PollData :=
  events.foldl (fun poll event => poll.afterEvent env event.1 event.2) poll

/-- The parts that do not depend on who looks at the poll. -/
structure Shared (left right : PollData) : Prop where
  question : left.pollQuestion = right.pollQuestion
  options : left.keyToOption = right.keyToOption
  author : left.messageSenderId = right.messageSenderId

theorem Shared.refl (poll : PollData) : Shared poll poll := ⟨rfl, rfl, rfl⟩

theorem Shared.symm (shared : Shared left right) : Shared right left :=
  ⟨shared.question.symm, shared.options.symm, shared.author.symm⟩

theorem Shared.trans (first : Shared left poll) (second : Shared poll right) : Shared left right :=
  ⟨first.question.trans second.question, first.options.trans second.options,
    first.author.trans second.author⟩

/-- An option with this text is shown. -/
def Shows (poll : PollData) (text : String) : Prop :=
  ∃ key option, poll.keyToOption.get? key = some option ∧ option.option = text

theorem isOptionPresent_iff {text : String} :
    isOptionPresent (poll.widgetOptions env) text = true ↔ poll.Shows text := by
  simp only [isOptionPresent, widgetOptions, List.any_map, List.any_eq_true, Function.comp_apply,
    decide_eq_true_eq, Shows, Dict.get?_eq_some_iff]
  constructor
  · rintro ⟨entry, member, sameText⟩
    exact ⟨entry.1, entry.2, member, sameText⟩
  · rintro ⟨key, option, member, sameText⟩
    exact ⟨(key, option), member, sameText⟩

theorem Shared.shows_iff (shared : Shared left right) {text : String} :
    left.Shows text ↔ right.Shows text := by
  rw [Shows, Shows, shared.options]

/-- A new option that is taken: its text is not shown yet and its index is in bounds. -/
def Accepts (poll : PollData) (idx : ℚ) (option : String) : Prop :=
  ¬poll.Shows option ∧ 0 ≤ idx ∧ idx ≤ maxIdx

theorem addOption_of_not_accepts {sender : Sender} {idx : ℚ} {option : String}
    (refused : ¬poll.Accepts idx option) : (poll.addOption env sender idx option).data = poll := by
  unfold addOption
  split
  · rfl
  · rename_i notPresent
    rw [isOptionPresent_iff] at notPresent
    rw [if_pos]
    by_contra inBounds
    rw [not_or, not_lt, not_lt] at inBounds
    exact refused ⟨notPresent, inBounds⟩

theorem addOption_of_accepts {sender : Sender} {idx : ℚ} {option : String}
    (accepted : poll.Accepts idx option) :
    (poll.addOption env sender idx option).data =
      { poll with
        keyToOption := poll.keyToOption.set (optionKey env sender idx)
          { option, userId := sender, votes := Dict.empty }
        myIdx := if sender = .user poll.me ∧ poll.myIdx ≤ idx then idx + 1 else poll.myIdx } := by
  obtain ⟨notShown, low, high⟩ := accepted
  unfold addOption
  rw [if_neg (fun present => notShown (isOptionPresent_iff.mp present)),
    if_neg (not_or.mpr ⟨not_lt.mpr low, not_lt.mpr high⟩)]

theorem Shared.addOption (shared : Shared left right) (sender : Sender) (idx : ℚ)
    (option : String) :
    Shared (left.addOption env sender idx option).data
      (right.addOption env sender idx option).data := by
  have sameAccepts : left.Accepts idx option ↔ right.Accepts idx option := by
    rw [Accepts, Accepts, shared.shows_iff]
  by_cases accepted : left.Accepts idx option
  · rw [addOption_of_accepts accepted, addOption_of_accepts (sameAccepts.mp accepted)]
    exact ⟨shared.question, by simp [shared.options], shared.author⟩
  · rw [addOption_of_not_accepts accepted,
      addOption_of_not_accepts (fun other => accepted (sameAccepts.mpr other))]
    exact shared

/-- What an event does to the data. -/
inductive EventCase (env : PollEnvironment) (poll : PollData) (sender : Nat) (data : JsonValue) :
    PollData → Prop where
  | unchanged : EventCase env poll sender data poll
  | newOption (idx : ℚ) (option : String) (isType : data.stringProperty "type" = some "new_option")
      (isIdx : data.numberProperty "idx" = some idx)
      (isOption : data.stringProperty "option" = some option) :
      EventCase env poll sender data (poll.addOption env (.user sender) idx option).data
  | question (question : String) (isType : data.stringProperty "type" = some "question")
      (isQuestion : data.stringProperty "question" = some question)
      (byAuthor : sender = poll.messageSenderId) :
      EventCase env poll sender data (poll.setQuestion question)
  | vote (key : String) (option : PollOption) (votes : Dict Nat Int)
      (isType : data.stringProperty "type" = some "vote")
      (isKey : data.stringProperty "key" = some key)
      (isOption : poll.keyToOption.get? key = some option) :
      EventCase env poll sender data
        { poll with keyToOption := poll.keyToOption.set key { option with votes } }

theorem afterEvent_case (sender : Nat) (data : JsonValue) :
    EventCase env poll sender data (poll.afterEvent env sender data) := by
  unfold afterEvent handleEvent
  cases isType : data.stringProperty "type" with
  | none => exact .unchanged
  | some type =>
      dsimp only
      by_cases isNewOption : type = "new_option"
      · subst isNewOption
        rw [if_pos rfl, newOptionInbound]
        cases isIdx : data.numberProperty "idx" with
        | none => exact .unchanged
        | some idx =>
            cases isOption : data.stringProperty "option" with
            | none => exact .unchanged
            | some option => exact .newOption idx option isType isIdx isOption
      rw [if_neg isNewOption]
      by_cases isQuestion : type = "question"
      · subst isQuestion
        rw [if_pos rfl, questionInbound]
        cases isText : data.stringProperty "question" with
        | none => exact .unchanged
        | some question =>
            dsimp only
            by_cases byOther : sender ≠ poll.messageSenderId
            · rw [if_pos byOther]
              exact .unchanged
            · rw [if_neg byOther]
              exact .question question isType isText (not_not.mp byOther)
      rw [if_neg isQuestion]
      by_cases isVote : type = "vote"
      · subst isVote
        rw [if_pos rfl, voteInbound]
        cases isKey : data.stringProperty "key" with
        | none => exact .unchanged
        | some key =>
            cases data.numberProperty "vote" with
            | none => exact .unchanged
            | some vote =>
                dsimp only
                by_cases isBad : ¬(vote = 1 ∨ vote = -1)
                · rw [if_pos isBad]
                  exact .unchanged
                rw [if_neg isBad]
                cases isOption : poll.keyToOption.get? key with
                | none => exact .unchanged
                | some option => exact .vote key option _ isType isKey isOption
      · rw [if_neg isVote]
        exact .unchanged

theorem Shared.afterEvent (shared : Shared left right) (sender : Nat) (data : JsonValue) :
    Shared (left.afterEvent env sender data) (right.afterEvent env sender data) := by
  unfold PollData.afterEvent handleEvent
  cases data.stringProperty "type" with
  | none => exact shared
  | some type =>
      dsimp only
      by_cases isNewOption : type = "new_option"
      · rw [if_pos isNewOption, if_pos isNewOption, newOptionInbound, newOptionInbound]
        cases data.numberProperty "idx" with
        | none => exact shared
        | some idx =>
            cases data.stringProperty "option" with
            | none => exact shared
            | some option => exact shared.addOption (.user sender) idx option
      rw [if_neg isNewOption, if_neg isNewOption]
      by_cases isQuestion : type = "question"
      · rw [if_pos isQuestion, if_pos isQuestion, questionInbound, questionInbound, shared.author]
        cases data.stringProperty "question" with
        | none => exact shared
        | some question =>
            dsimp only
            by_cases byOther : sender ≠ right.messageSenderId
            · rw [if_pos byOther, if_pos byOther]
              exact shared
            · rw [if_neg byOther, if_neg byOther]
              exact ⟨rfl, shared.options, shared.author⟩
      rw [if_neg isQuestion, if_neg isQuestion]
      by_cases isVote : type = "vote"
      · rw [if_pos isVote, if_pos isVote, voteInbound, voteInbound, shared.options]
        cases data.stringProperty "key" with
        | none => exact shared
        | some key =>
            cases data.numberProperty "vote" with
            | none => exact shared
            | some vote =>
                dsimp only
                by_cases isBad : ¬(vote = 1 ∨ vote = -1)
                · rw [if_pos isBad, if_pos isBad]
                  exact shared
                rw [if_neg isBad, if_neg isBad]
                cases right.keyToOption.get? key with
                | none => exact shared
                | some option => exact ⟨shared.question, rfl, shared.author⟩
      · rw [if_neg isVote, if_neg isVote]
        exact shared

theorem Shared.afterEvents (shared : Shared left right) (events : List (Nat × JsonValue)) :
    Shared (left.afterEvents env events) (right.afterEvents env events) := by
  induction events generalizing left right with
  | nil => exact shared
  | cons event rest inductionHypothesis =>
      exact inductionHypothesis (shared.afterEvent event.1 event.2)

/-- Clients start with the same poll. -/
theorem newPollData_shared (config : PollConfig) (me other : Nat) :
    Shared (newPollData env config me) (newPollData env config other) := by
  have fold : ∀ (entries : List (String × Nat)) {left right : PollData}, Shared left right →
      Shared
        (entries.foldl (fun poll entry => (poll.addOption env .canned entry.2 entry.1).data) left)
        (entries.foldl (fun poll entry => (poll.addOption env .canned entry.2 entry.1).data)
          right) := by
    intro entries
    induction entries with
    | nil => exact fun shared => shared
    | cons entry rest inductionHypothesis =>
        exact fun shared => inductionHypothesis (shared.addOption .canned entry.2 entry.1)
  refine fold _ ?_
  split
  · exact ⟨rfl, rfl, rfl⟩
  · exact ⟨rfl, rfl, rfl⟩

/-! ## What an event keeps -/

/-- Different options have different texts. -/
def DistinctTexts (poll : PollData) : Prop :=
  ∀ firstKey first, poll.keyToOption.get? firstKey = some first →
    ∀ secondKey second, poll.keyToOption.get? secondKey = some second →
      first.option = second.option → firstKey = secondKey

/-- Every option that is shown stays shown. -/
def KeepsShown (before after : PollData) : Prop := ∀ text, before.Shows text → after.Shows text

/-- The event is a new option that is taken although its key is another option's. -/
def Overwrites (env : PollEnvironment) (poll : PollData) (sender : Nat) (data : JsonValue) : Prop :=
  ∃ idx option, data.stringProperty "type" = some "new_option" ∧
    data.numberProperty "idx" = some idx ∧ data.stringProperty "option" = some option ∧
    poll.Accepts idx option ∧ optionKey env (.user sender) idx ∈ poll.keyToOption.keys

/-- The event is a vote for the option under the key. -/
def VotesFor (data : JsonValue) (key : String) : Prop :=
  data.stringProperty "type" = some "vote" ∧ data.stringProperty "key" = some key

/-- The voters of an option that is still shown change by votes for it only. -/
def KeepsVoters (before after : PollData) (data : JsonValue) : Prop :=
  ∀ key option, before.keyToOption.get? key = some option →
    ∀ laterKey later, after.keyToOption.get? laterKey = some later → later.option = option.option →
      later.votes ≠ option.votes → VotesFor data key

theorem afterEvent_newOption {sender : Nat} {data : JsonValue} {idx : ℚ} {option : String}
    (isType : data.stringProperty "type" = some "new_option")
    (isIdx : data.numberProperty "idx" = some idx)
    (isOption : data.stringProperty "option" = some option) :
    poll.afterEvent env sender data = (poll.addOption env (.user sender) idx option).data := by
  simp [afterEvent, handleEvent, newOptionInbound, isType, isIdx, isOption]

/-- An option that is taken does not have the text of another. -/
theorem Accepts.ne_text {idx : ℚ} {text key : String} {option : PollOption}
    (accepted : poll.Accepts idx text) (isOption : poll.keyToOption.get? key = some option) :
    option.option ≠ text := fun sameText => accepted.1 ⟨key, option, isOption, sameText⟩

theorem DistinctTexts.addOption (distinct : poll.DistinctTexts) (sender : Sender) (idx : ℚ)
    (text : String) : (poll.addOption env sender idx text).data.DistinctTexts := by
  by_cases accepted : poll.Accepts idx text
  · rw [addOption_of_accepts accepted]
    intro firstKey first isFirst secondKey second isSecond sameText
    dsimp only at isFirst isSecond
    rw [Dict.get?_set] at isFirst isSecond
    split at isFirst
    · rename_i firstNew
      split at isSecond
      · rename_i secondNew
        rw [firstNew, secondNew]
      · cases isFirst
        exact absurd sameText.symm (accepted.ne_text isSecond)
    · split at isSecond
      · cases isSecond
        exact absurd sameText (accepted.ne_text isFirst)
      · exact distinct firstKey first isFirst secondKey second isSecond sameText
  · rwa [addOption_of_not_accepts accepted]

theorem DistinctTexts.afterEvent (distinct : poll.DistinctTexts) (sender : Nat) (data : JsonValue) :
    (poll.afterEvent env sender data).DistinctTexts := by
  have eventCase : EventCase env poll sender data (poll.afterEvent env sender data) :=
    afterEvent_case sender data
  generalize poll.afterEvent env sender data = after at eventCase ⊢
  cases eventCase with
  | unchanged => exact distinct
  | newOption => exact distinct.addOption _ _ _
  | question => exact distinct
  | vote key option votes _ _ isOption =>
      have sameTexts : ∀ other found,
          (poll.keyToOption.set key { option with votes }).get? other = some found →
            ∃ before, poll.keyToOption.get? other = some before ∧ before.option = found.option := by
        intro other found isFound
        rw [Dict.get?_set] at isFound
        split at isFound
        · rename_i same
          cases isFound
          exact ⟨option, same ▸ isOption, rfl⟩
        · exact ⟨found, isFound, rfl⟩
      intro firstKey first isFirst secondKey second isSecond sameText
      obtain ⟨firstBefore, isFirst, firstText⟩ := sameTexts _ _ isFirst
      obtain ⟨secondBefore, isSecond, secondText⟩ := sameTexts _ _ isSecond
      exact distinct _ _ isFirst _ _ isSecond (by rw [firstText, secondText, sameText])

/-- An event takes an option away exactly when it overwrites one. -/
theorem keepsShown_afterEvent_iff (distinct : poll.DistinctTexts) (sender : Nat)
    (data : JsonValue) :
    poll.KeepsShown (poll.afterEvent env sender data) ↔ ¬poll.Overwrites env sender data := by
  constructor
  · rintro keeps ⟨idx, text, isType, isIdx, isOption, accepted, taken⟩
    obtain ⟨old, isOld⟩ := Dict.mem_keys_iff.mp taken
    obtain ⟨key, found, isFound, sameText⟩ := keeps old.option ⟨_, old, isOld, rfl⟩
    rw [afterEvent_newOption isType isIdx isOption, addOption_of_accepts accepted] at isFound
    dsimp only at isFound
    rw [Dict.get?_set] at isFound
    split at isFound
    · cases isFound
      exact accepted.ne_text isOld sameText.symm
    · rename_i otherKey
      exact otherKey (distinct _ _ isFound _ _ isOld sameText)
  · intro notOverwrites
    have eventCase : EventCase env poll sender data (poll.afterEvent env sender data) :=
      afterEvent_case sender data
    generalize poll.afterEvent env sender data = after at eventCase ⊢
    rintro text ⟨key, option, isOption, rfl⟩
    cases eventCase with
    | unchanged => exact ⟨key, option, isOption, rfl⟩
    | newOption idx newText isType isIdx isText =>
        by_cases accepted : poll.Accepts idx newText
        · rw [addOption_of_accepts accepted]
          refine ⟨key, option, ?_, rfl⟩
          dsimp only
          rw [Dict.get?_set_ne _ _ fun same => ?_]
          · exact isOption
          · exact notOverwrites ⟨idx, newText, isType, isIdx, isText, accepted,
              same ▸ Dict.mem_keys_of_get? isOption⟩
        · rw [addOption_of_not_accepts accepted]
          exact ⟨key, option, isOption, rfl⟩
    | question => exact ⟨key, option, isOption, rfl⟩
    | vote voteKey voted votes _ _ isVoted =>
        by_cases same : key = voteKey
        · subst same
          rw [isVoted] at isOption
          cases isOption
          exact ⟨key, _, Dict.get?_set_self .., rfl⟩
        · exact ⟨key, option, (Dict.get?_set_ne _ _ same).trans isOption, rfl⟩

/-- Voters change by votes only. -/
theorem keepsVoters_afterEvent (distinct : poll.DistinctTexts) (sender : Nat) (data : JsonValue) :
    poll.KeepsVoters (poll.afterEvent env sender data) data := by
  have eventCase : EventCase env poll sender data (poll.afterEvent env sender data) :=
    afterEvent_case sender data
  generalize poll.afterEvent env sender data = after at eventCase ⊢
  intro key option isOption laterKey later isLater sameText differ
  have unchanged : poll.keyToOption.get? laterKey ≠ some later := by
    intro isBefore
    obtain rfl := distinct _ _ isBefore _ _ isOption sameText
    rw [isOption] at isBefore
    cases isBefore
    exact differ rfl
  cases eventCase with
  | unchanged => exact absurd isLater unchanged
  | newOption idx text =>
      by_cases accepted : poll.Accepts idx text
      · rw [addOption_of_accepts accepted] at isLater
        dsimp only at isLater
        rw [Dict.get?_set] at isLater
        split at isLater
        · cases isLater
          exact absurd sameText.symm (accepted.ne_text isOption)
        · exact absurd isLater unchanged
      · rw [addOption_of_not_accepts accepted] at isLater
        exact absurd isLater unchanged
  | question => exact absurd isLater unchanged
  | vote voteKey voted votes isType isKey isVoted =>
      dsimp only at isLater
      rw [Dict.get?_set] at isLater
      split at isLater
      · cases isLater
        obtain rfl := distinct _ _ isVoted _ _ isOption sameText
        exact ⟨isType, isKey⟩
      · exact absurd isLater unchanged

/-- A new poll has distinct texts. -/
theorem newPollData_distinct (config : PollConfig) (me : Nat) :
    (newPollData env config me).DistinctTexts := by
  have fold : ∀ (entries : List (String × Nat)) {start : PollData}, start.DistinctTexts →
      (entries.foldl (fun poll entry => (poll.addOption env .canned entry.2 entry.1).data)
        start).DistinctTexts := by
    intro entries
    induction entries with
    | nil => exact fun distinct => distinct
    | cons entry rest inductionHypothesis =>
        exact fun distinct => inductionHypothesis (distinct.addOption .canned entry.2 entry.1)
  refine fold _ ?_
  intro key option isOption
  split at isOption
  · cases isOption
  · cases isOption

end Shared

end PollData

end Zulip.Widgets
