import Mathlib.Data.Rat.Defs
import Mathlib.Algebra.Order.Ring.Rat
import Zulip.Foundation.Brackets
import Zulip.Foundation.Transition

/-!
# Typing notices

The client tells the server when a user starts and stops typing. A state of the module holds the
recipient, the time before which no other start is sent, and a timer that stops the notices of a
user who is idle. The timers of the browser are part of the world: any live timer may fire.
-/

namespace Zulip.Client.Typing

inductive Recipient where
  | direct (ids : List Int)
  | stream (streamId : Int) (topic : String)
deriving DecidableEq

abbrev TimerId := Nat

/-- `TypingStatusState` -/
structure State where
  currentRecipient : Recipient
  nextSendStartTime : ℚ
  idleTimer : TimerId
deriving DecidableEq

/-- A call of `setTimeout` that has not fired and is not cleared. -/
structure Timer where
  id : TimerId
  delay : ℚ
deriving DecidableEq

/-- The state of the module, the timers of the browser and the notices of the server. -/
structure World where
  state : Option State
  timers : List Timer
  nextTimer : TimerId
  notices : List (Notice Recipient ℚ)
deriving DecidableEq

inductive AssertionError where
  | stateIsNull
deriving DecidableEq

/-- The arguments that all calls share. -/
structure Settings where
  /-- `String.prototype.toLowerCase` -/
  toLowerCase : String → String
  typingStartedWaitPeriod : ℚ
  typingStoppedWaitPeriod : ℚ

section Recipients

variable (toLowerCase : String → String)

def lowerSame (a b : String) : Bool := toLowerCase a = toLowerCase b

/-- `same_stream_and_topic`, `same_recipient` -/
def sameRecipient : Option Recipient → Option Recipient → Bool
  | some (.direct ids), some (.direct others) => ids = others
  | some (.stream streamId topic), some (.stream otherId otherTopic) =>
      streamId = otherId && lowerSame toLowerCase topic otherTopic
  | _, _ => false

/-- Recipients between which the module does not tell a difference. -/
def Same (first second : Recipient) : Prop :=
  sameRecipient toLowerCase (some first) (some second) = true

end Recipients

namespace World

def clearTimeout (world : World) (timer : TimerId) : World :=
  { world with timers := world.timers.filter fun live => live.id ≠ timer }

def setTimeout (world : World) (delay : ℚ) : TimerId × World :=
  (world.nextTimer,
    { world with
      timers := world.timers ++ [⟨world.nextTimer, delay⟩]
      nextTimer := world.nextTimer + 1 })

def notifyServerStart (world : World) (recipient : Recipient) (currentTime : ℚ) : World :=
  { world with notices := world.notices ++ [.start recipient currentTime] }

def notifyServerStop (world : World) (recipient : Recipient) : World :=
  { world with notices := world.notices ++ [.stop recipient] }

def stopLastNotification (world : World) : Except AssertionError World :=
  match world.state with
  | none => .error .stateIsNull
  | some state =>
      .ok { (world.clearTimeout state.idleTimer).notifyServerStop state.currentRecipient with
        state := none }

def startOrExtendIdleTimer (world : World) (typingStoppedWaitPeriod : ℚ) : TimerId × World :=
  let world := match world.state with
    | some state => world.clearTimeout state.idleTimer
    | none => world
  world.setTimeout typingStoppedWaitPeriod

def setNextStartTime (world : World) (currentTime typingStartedWaitPeriod : ℚ) :
    Except AssertionError World :=
  match world.state with
  | none => .error .stateIsNull
  | some state =>
      .ok { world with
        state := some { state with nextSendStartTime := currentTime + typingStartedWaitPeriod } }

def actuallyPingServer (world : World) (recipient : Recipient)
    (currentTime typingStartedWaitPeriod : ℚ) : Except AssertionError World :=
  (world.notifyServerStart recipient currentTime).setNextStartTime currentTime
    typingStartedWaitPeriod

def maybePingServer (world : World) (recipient : Recipient)
    (currentTime typingStartedWaitPeriod : ℚ) : Except AssertionError World :=
  match world.state with
  | none => .error .stateIsNull
  | some state =>
      if currentTime > state.nextSendStartTime then
        world.actuallyPingServer recipient currentTime typingStartedWaitPeriod
      else .ok world

/-- The end of `update`, where the old notification is stopped. -/
def startNotification (world : World) (settings : Settings) (newRecipient : Option Recipient)
    (currentTime : ℚ) : Except AssertionError World :=
  match newRecipient with
  | none => .ok world
  | some recipient =>
      let (idleTimer, world) := world.startOrExtendIdleTimer settings.typingStoppedWaitPeriod
      let world :=
        { world with state := some ⟨recipient, 0, idleTimer⟩ }
      world.actuallyPingServer recipient currentTime settings.typingStartedWaitPeriod

def update (world : World) (settings : Settings) (newRecipient : Option Recipient)
    (currentTime : ℚ) : Except AssertionError World := do
  match world.state, newRecipient with
  | none, _ => world.startNotification settings newRecipient currentTime
  | some state, some recipient =>
      if sameRecipient settings.toLowerCase newRecipient (some state.currentRecipient) then
        let world ← world.maybePingServer recipient currentTime settings.typingStartedWaitPeriod
        let (idleTimer, world) := world.startOrExtendIdleTimer settings.typingStoppedWaitPeriod
        .ok { world with state := world.state.map fun state => { state with idleTimer } }
      else
        let world ← world.stopLastNotification
        world.startNotification settings newRecipient currentTime
  | some _, none =>
      -- No recipient is the same as none.
      let world ← world.stopLastNotification
      world.startNotification settings none currentTime

end World

/-- What can happen: the user types or stops, or the browser calls back. -/
inductive Action where
  | update (newRecipient : Option Recipient) (currentTime : ℚ)
  | fire (timer : TimerId)

namespace World

/-- Only a live timer fires. -/
def Enabled (world : World) : Action → Prop
  | .update _ _ => True
  | .fire timer => ∃ live ∈ world.timers, live.id = timer

/-- A timer that fires is not live any more, and its callback is `on_idle_timeout`. -/
def perform (world : World) (settings : Settings) : Action → Except AssertionError World
  | .update newRecipient currentTime => world.update settings newRecipient currentTime
  | .fire timer => (world.clearTimeout timer).stopLastNotification

def initial : World := ⟨none, [], 1, []⟩

end World

/-- An action that can happen, and does not fail. -/
def Step (settings : Settings) (world : World) (action : Action) (next : World) : Prop :=
  world.Enabled action ∧ world.perform settings action = .ok next

/-! ## The state, the timer and the notices agree -/

section Agreement

variable {settings : Settings} {world next : World} {state : State} {timers : List Timer}
  {nextTimer : TimerId} {notices : List (Notice Recipient ℚ)} {recipient : Recipient} {time : ℚ}

theorem Same.refl (toLowerCase : String → String) (recipient : Recipient) :
    Same toLowerCase recipient recipient := by
  cases recipient with
  | direct ids => simp [Same, sameRecipient]
  | stream streamId topic => simp [Same, sameRecipient, lowerSame]

theorem Same.symm {toLowerCase : String → String} {first second : Recipient}
    (same : Same toLowerCase first second) : Same toLowerCase second first := by
  cases first with
  | direct ids =>
      cases second with
      | direct others =>
          have isEqual : ids = others := by simpa [Same, sameRecipient] using same
          simp [Same, sameRecipient, isEqual]
      | stream otherId otherTopic => cases same
  | stream streamId topic =>
      cases second with
      | direct others => cases same
      | stream otherId otherTopic =>
          obtain ⟨rfl, sameTopic⟩ : streamId = otherId ∧ toLowerCase topic = toLowerCase otherTopic :=
            by simpa [Same, sameRecipient, lowerSame] using same
          simp [Same, sameRecipient, lowerSame, sameTopic]

theorem Same.trans {toLowerCase : String → String} {first second third : Recipient}
    (same : Same toLowerCase first second) (sameNext : Same toLowerCase second third) :
    Same toLowerCase first third := by
  cases second with
  | direct ids =>
      cases first with
      | direct others =>
          have isEqual : others = ids := by simpa [Same, sameRecipient] using same
          rwa [isEqual]
      | stream otherId otherTopic => cases same
  | stream streamId topic =>
      cases first with
      | direct others => cases same
      | stream otherId otherTopic =>
          obtain ⟨rfl, sameTopic⟩ : otherId = streamId ∧ toLowerCase otherTopic = toLowerCase topic :=
            by simpa [Same, sameRecipient, lowerSame] using same
          cases third with
          | direct others => cases sameNext
          | stream thirdId thirdTopic =>
              simpa [Same, sameRecipient, lowerSame, sameTopic] using sameNext

/-- Without a state there is no timer and nothing goes on. With one there is its timer only, its
recipient goes on, and no start is sent before the time it keeps. -/
inductive Agrees (settings : Settings) : World → Prop where
  | idle {nextTimer : TimerId} {notices : List (Notice Recipient ℚ)}
      (bracketed : Bracketed (Same settings.toLowerCase) settings.typingStartedWaitPeriod notices)
      (closed : goesOn notices = none) : Agrees settings ⟨none, [], nextTimer, notices⟩
  | typing {state : State} {delay : ℚ} {nextTimer : TimerId} {notices : List (Notice Recipient ℚ)}
      {recipient : Recipient} {time : ℚ}
      (bracketed : Bracketed (Same settings.toLowerCase) settings.typingStartedWaitPeriod notices)
      (isOpen : goesOn notices = some (recipient, time))
      (same : Same settings.toLowerCase recipient state.currentRecipient)
      (throttled : state.nextSendStartTime = time + settings.typingStartedWaitPeriod) :
      Agrees settings ⟨some state, [⟨state.idleTimer, delay⟩], nextTimer, notices⟩

theorem initial_agrees (settings : Settings) : Agrees settings World.initial :=
  .idle .empty rfl

/-- Stopping clears the timer, also when it has fired. -/
theorem stopLastNotification_agrees
    (bracketed : Bracketed (Same settings.toLowerCase) settings.typingStartedWaitPeriod notices)
    (isOpen : goesOn notices = some (recipient, time))
    (same : Same settings.toLowerCase recipient state.currentRecipient)
    (onlyTimer : ∀ live ∈ timers, live.id = state.idleTimer) :
    ∃ nextNotices, (World.mk (some state) timers nextTimer notices).stopLastNotification =
        .ok ⟨none, [], nextTimer, nextNotices⟩ ∧
      Agrees settings ⟨none, [], nextTimer, nextNotices⟩ := by
  have cleared : (timers.filter fun live => live.id ≠ state.idleTimer) = [] :=
    List.filter_eq_nil_iff.mpr fun live isLive => by simp [onlyTimer live isLive]
  refine ⟨notices ++ [.stop state.currentRecipient], ?_,
    .idle (bracketed.append_of_follows isOpen (.close same)) (goesOn_append_stop _ _)⟩
  simp only [World.stopLastNotification, World.clearTimeout, World.notifyServerStop, cleared]

/-- A new recipient opens a bracket, with a timer of its own. -/
theorem startNotification_agrees (newRecipient : Option Recipient) (currentTime : ℚ)
    (agrees : Agrees settings ⟨none, [], nextTimer, notices⟩) :
    ∃ next, (World.mk none [] nextTimer notices).startNotification settings newRecipient
        currentTime = .ok next ∧ Agrees settings next := by
  cases newRecipient with
  | none => exact ⟨_, rfl, agrees⟩
  | some recipient =>
      cases agrees with
      | idle bracketed closed =>
          exact ⟨_, rfl, .typing (bracketed.append_start closed) (goesOn_append_start _ _ _)
            (Same.refl _ _) rfl⟩

/-- The same recipient may be started again, and gets a new timer. -/
theorem update_same_agrees {delay : ℚ} (currentTime : ℚ) {newRecipient : Recipient}
    (bracketed : Bracketed (Same settings.toLowerCase) settings.typingStartedWaitPeriod notices)
    (isOpen : goesOn notices = some (recipient, time))
    (same : Same settings.toLowerCase recipient state.currentRecipient)
    (throttled : state.nextSendStartTime = time + settings.typingStartedWaitPeriod)
    (sameNew : Same settings.toLowerCase newRecipient state.currentRecipient) :
    ∃ next, (World.mk (some state) [⟨state.idleTimer, delay⟩] nextTimer notices).update settings
        (some newRecipient) currentTime = .ok next ∧ Agrees settings next := by
  by_cases late : currentTime > state.nextSendStartTime
  · refine ⟨⟨some ⟨state.currentRecipient, currentTime + settings.typingStartedWaitPeriod,
      nextTimer⟩, [⟨nextTimer, settings.typingStoppedWaitPeriod⟩], nextTimer + 1,
      notices ++ [.start newRecipient currentTime]⟩, ?_, ?_⟩
    · have isSame : sameRecipient settings.toLowerCase (some newRecipient)
        (some state.currentRecipient) = true := sameNew
      simp [World.update, isSame, World.maybePingServer, late, World.actuallyPingServer,
        World.notifyServerStart, World.setNextStartTime, World.startOrExtendIdleTimer,
        World.clearTimeout, World.setTimeout, bind, Except.bind]
    · have apart : time + settings.typingStartedWaitPeriod < currentTime := throttled ▸ late
      exact .typing
        (bracketed.append_of_follows isOpen (.restart (same.trans sameNew.symm) apart))
        (goesOn_append_start _ _ _) sameNew rfl
  · refine ⟨⟨some { state with idleTimer := nextTimer },
      [⟨nextTimer, settings.typingStoppedWaitPeriod⟩], nextTimer + 1, notices⟩, ?_, ?_⟩
    · have isSame : sameRecipient settings.toLowerCase (some newRecipient)
        (some state.currentRecipient) = true := sameNew
      simp [World.update, isSame, World.maybePingServer, late, World.startOrExtendIdleTimer,
        World.clearTimeout, World.setTimeout, bind, Except.bind]
    · exact .typing bracketed isOpen same throttled

/-- Whatever can happen succeeds, and keeps the agreement. -/
theorem perform_agrees {action : Action} (agrees : Agrees settings world)
    (enabled : world.Enabled action) :
    ∃ next, world.perform settings action = .ok next ∧ Agrees settings next := by
  cases agrees with
  | idle bracketed closed =>
      cases action with
      | update newRecipient currentTime =>
          exact startNotification_agrees newRecipient currentTime (.idle bracketed closed)
      | fire timer =>
          obtain ⟨live, isLive, -⟩ := enabled
          cases isLive
  | @typing state delay nextTimer notices recipient time bracketed isOpen same throttled =>
      have onlyTimer : ∀ live ∈ [Timer.mk state.idleTimer delay], live.id = state.idleTimer := by
        simp
      cases action with
      | fire timer =>
          obtain ⟨nextNotices, stops, agrees⟩ :=
            @stopLastNotification_agrees _ _ ([Timer.mk state.idleTimer delay].filter
              fun live => live.id ≠ timer) nextTimer _ _ _ bracketed isOpen same
              fun live isLive => onlyTimer live (List.mem_of_mem_filter isLive)
          exact ⟨_, stops, agrees⟩
      | update newRecipient currentTime =>
          obtain ⟨nextNotices, stops, agrees⟩ :=
            @stopLastNotification_agrees _ _ _ nextTimer _ _ _ bracketed isOpen same onlyTimer
          obtain ⟨next, starts, nextAgrees⟩ :=
            startNotification_agrees newRecipient currentTime agrees
          cases newRecipient with
          | none =>
              refine ⟨next, ?_, nextAgrees⟩
              simp only [World.perform, World.update, stops, bind, Except.bind, starts]
          | some newRecipient =>
              by_cases sameNew : Same settings.toLowerCase newRecipient state.currentRecipient
              · exact update_same_agrees currentTime bracketed isOpen same throttled sameNew
              · refine ⟨next, ?_, nextAgrees⟩
                have notSame : sameRecipient settings.toLowerCase (some newRecipient)
                    (some state.currentRecipient) = false := by simpa [Same] using sameNew
                simp only [World.perform, World.update, notSame, stops, bind, Except.bind, starts,
                  Bool.false_eq_true, if_false]

end Agreement

/-! ## Every run -/

/-- There is one live timer, that of the state, or there is none. -/
def World.OneTimer (world : World) : Prop :=
  (world.state = none ∧ world.timers = []) ∨
    ∃ state timer, world.state = some state ∧ world.timers = [timer] ∧ timer.id = state.idleTimer

theorem agrees_of_run {settings : Settings} {trace : List (World × Action)} {world : World}
    (run : Run (Step settings) World.initial trace world) : Agrees settings world :=
  run.invariant (initial_agrees settings) fun agrees step => by
    obtain ⟨next, performs, nextAgrees⟩ := perform_agrees agrees step.1
    rw [step.2] at performs
    cases performs
    exact nextAgrees

/-- The notices of every run are well bracketed, the state has the only live timer, and nothing
that can happen fails. -/
theorem typingNotices_wellBracketed (settings : Settings) (trace : List (World × Action))
    (world : World) (run : Run (Step settings) World.initial trace world) :
    WellBracketed (Same settings.toLowerCase) settings.typingStartedWaitPeriod world.notices ∧
      world.OneTimer ∧
      ∀ action, world.Enabled action → ∃ next, world.perform settings action = .ok next := by
  have agrees := agrees_of_run run
  refine ⟨?_, ?_, fun action enabled => ?_⟩
  · cases agrees with
    | idle bracketed closed => exact bracketed.wellBracketed fun _ _ _ => Same.trans
    | typing bracketed isOpen same throttled =>
        exact bracketed.wellBracketed fun _ _ _ => Same.trans
  · cases agrees with
    | idle bracketed closed => exact .inl ⟨rfl, rfl⟩
    | typing bracketed isOpen same throttled => exact .inr ⟨_, _, rfl, rfl, rfl⟩
  · obtain ⟨next, performs, -⟩ := perform_agrees agrees enabled
    exact ⟨next, performs⟩

/-! A user types, goes on after ten seconds with the topic in small letters, and is idle. -/

def exampleSettings : Settings := ⟨String.toLower, 10000, 5000⟩

def idleWorld : World :=
  ⟨none, [], 3,
    [.start (.stream 3 "Lunch") 1000, .start (.stream 3 "lunch") 12000,
      .stop (.stream 3 "Lunch")]⟩

def firstWorld : World :=
  ⟨some ⟨.stream 3 "Lunch", 11000, 1⟩, [⟨1, 5000⟩], 2, [.start (.stream 3 "Lunch") 1000]⟩

def secondWorld : World :=
  ⟨some ⟨.stream 3 "Lunch", 22000, 2⟩, [⟨2, 5000⟩], 3,
    [.start (.stream 3 "Lunch") 1000, .start (.stream 3 "lunch") 12000]⟩

theorem run_idleWorld : Run (Step exampleSettings) World.initial
    [(World.initial, .update (some (.stream 3 "Lunch")) 1000),
      (firstWorld, .update (some (.stream 3 "lunch")) 12000), (secondWorld, .fire 2)]
    idleWorld := by
  have starts : Step exampleSettings World.initial (.update (some (.stream 3 "Lunch")) 1000)
      firstWorld := ⟨trivial, by decide +kernel⟩
  have goesOn : Step exampleSettings firstWorld (.update (some (.stream 3 "lunch")) 12000)
      secondWorld := ⟨trivial, by decide +kernel⟩
  have fires : Step exampleSettings secondWorld (.fire 2) idleWorld :=
    ⟨⟨⟨2, 5000⟩, List.mem_singleton_self _, rfl⟩, by decide +kernel⟩
  exact .step (.step (.step .refl starts) goesOn) fires

theorem typingNotices_wellBracketed_idle :
    WellBracketed (Same exampleSettings.toLowerCase) exampleSettings.typingStartedWaitPeriod
        idleWorld.notices ∧
      idleWorld.OneTimer ∧
      ∀ action, idleWorld.Enabled action →
        ∃ next, idleWorld.perform exampleSettings action = .ok next :=
  typingNotices_wellBracketed exampleSettings _ idleWorld run_idleWorld

end Zulip.Client.Typing
