import Mathlib.Logic.Function.Basic
import Zulip.Foundation.Transition
import Zulip.Widgets.PollData

/-!
# A poll on several devices

Devices send events to the server, which puts them in one order, and every device handles them in
that order, each at its own pace. Two devices of one user may choose the same key before either has
seen the option of the other.

A device on which the question is edited shows it at once (`submit_question` of the widget), and the
other devices when its event comes. Such a question on its way is left out: a device here changes
its poll only by the events that it handles.
-/

namespace Zulip.Widgets

/-- A client, and how many of the events it has handled. -/
structure Device where
  poll : PollData
  position : Nat

/-- The devices, the requests on their way, and the events in the order of the server. -/
structure PollSystem (Devices : Type) where
  log : List (Nat × JsonValue)
  inFlight : List (Nat × JsonValue)
  device : Devices → Device

/-- What may happen next. -/
inductive PollAction (Devices : Type) where
  /-- `submit_option`. -/
  | submitOption (device : Devices) (option : String)
  | submitQuestion (device : Devices) (question : String)
  | submitVote (device : Devices) (key : String)
  /-- A request reaches the server, not necessarily in order. -/
  | arrive (index : Nat)
  /-- A request fails. -/
  | drop (index : Nat)
  /-- Any other event, valid or not. -/
  | post (sender : Nat) (data : JsonValue)
  /-- A device handles its next event. -/
  | deliver (device : Devices)

section System

variable {Devices : Type} [DecidableEq Devices]

namespace PollSystem

/-- A device sends an event. -/
def send (system : PollSystem Devices) (device : Devices) (event : OutboundData) (poll : PollData) :
    PollSystem Devices :=
  { system with
    inFlight := system.inFlight ++ [(poll.me, event.toJson)]
    device := Function.update system.device device { system.device device with poll } }

/-- The system after an action, if the action is possible. -/
def perform (env : PollEnvironment) (system : PollSystem Devices) :
    PollAction Devices → Option (PollSystem Devices)
  | .submitOption device option =>
      let poll := (system.device device).poll
      if PollData.isOptionPresent (poll.widgetOptions env) option ∨ option = "" then none
      else
        let sent := poll.newOptionOutbound option
        some (system.send device sent.1 sent.2)
  | .submitQuestion device question =>
      let poll := (system.device device).poll
      (poll.questionOutbound question).map fun event => system.send device event poll
  | .submitVote device key =>
      let poll := (system.device device).poll
      (poll.voteOutbound key).toOption.map fun event => system.send device event poll
  | .arrive index =>
      system.inFlight[index]?.map fun event =>
        { system with log := system.log ++ [event], inFlight := system.inFlight.eraseIdx index }
  | .drop index => some { system with inFlight := system.inFlight.eraseIdx index }
  | .post sender data => some { system with log := system.log ++ [(sender, data)] }
  | .deliver device =>
      let client := system.device device
      system.log[client.position]?.map fun event =>
        { system with
          device := Function.update system.device device
            { poll := client.poll.afterEvent env event.1 event.2, position := client.position + 1 } }

/-- The devices open the poll. -/
def start (env : PollEnvironment) (config : PollConfig) (me : Devices → Nat) : PollSystem Devices where
  log := []
  inFlight := []
  device device := { poll := newPollData env config (me device), position := 0 }

/-- One action. -/
def Step (env : PollEnvironment) (system : PollSystem Devices) (action : PollAction Devices)
    (next : PollSystem Devices) : Prop :=
  system.perform env action = some next

/-- The delivered event takes a new option whose key is another option's. -/
def Overwrites (env : PollEnvironment) (system : PollSystem Devices) :
    PollAction Devices → Prop
  | .deliver device =>
      ∃ event, system.log[(system.device device).position]? = some event ∧
        (system.device device).poll.Overwrites env event.1 event.2
  | _ => False

/-- No device takes an option away. -/
def KeepsShown (earlier later : PollSystem Devices) : Prop :=
  ∀ device, (earlier.device device).poll.KeepsShown (later.device device).poll

/-- Voters change by the delivery of votes for their option only. -/
def KeepsVoters (env : PollEnvironment) (system : PollSystem Devices) (action : PollAction Devices) :
    Prop :=
  ∀ next, Step env system action next → ∀ device key option,
    (system.device device).poll.keyToOption.get? key = some option →
      ∀ laterKey later, (next.device device).poll.keyToOption.get? laterKey = some later →
        later.option = option.option → later.votes ≠ option.votes →
          action = .deliver device ∧ ∃ event,
            system.log[(system.device device).position]? = some event ∧
              PollData.VotesFor event.2 key

/-- Every device has handled a first part of the log. -/
structure Invariant (env : PollEnvironment) (config : PollConfig) (me : Devices → Nat)
    (system : PollSystem Devices) : Prop where
  handled : ∀ device, PollData.Shared (system.device device).poll
    ((newPollData env config (me device)).afterEvents env
      (system.log.take (system.device device).position))
  distinct : ∀ device, (system.device device).poll.DistinctTexts
  within : ∀ device, (system.device device).position ≤ system.log.length

/-- What an action does to the log and to the devices. -/
inductive Effect (env : PollEnvironment) (system : PollSystem Devices) (next : PollSystem Devices) :
    PollAction Devices → Prop where
  | delivers (device : Devices) (event : Nat × JsonValue)
      (isNext : system.log[(system.device device).position]? = some event)
      (sameLog : next.log = system.log)
      (devices : next.device = Function.update system.device device
        { poll := (system.device device).poll.afterEvent env event.1 event.2
          position := (system.device device).position + 1 }) :
      Effect env system next (.deliver device)
  | sends (action : PollAction Devices) (suffix : List (Nat × JsonValue))
      (notDeliver : ∀ device, action ≠ .deliver device)
      (grows : next.log = system.log ++ suffix)
      (positions : ∀ device, (next.device device).position = (system.device device).position)
      (shared : ∀ device, PollData.Shared (next.device device).poll (system.device device).poll) :
      Effect env system next action

theorem Effect.of_send {env : PollEnvironment} {system : PollSystem Devices}
    {action : PollAction Devices} (notDeliver : ∀ device, action ≠ .deliver device) (device : Devices)
    (event : OutboundData) {poll : PollData}
    (shared : PollData.Shared poll (system.device device).poll) :
    Effect env system (system.send device event poll) action := by
  refine .sends action [] notDeliver (List.append_nil _).symm ?_ ?_
  · intro other
    by_cases same : other = device
    · subst same
      simp [send]
    · simp [send, same]
  · intro other
    by_cases same : other = device
    · subst same
      simpa [send] using shared
    · simpa [send, same] using PollData.Shared.refl _

theorem Step.effect {env : PollEnvironment} {system next : PollSystem Devices}
    {action : PollAction Devices} (step : Step env system action next) :
    Effect env system next action := by
  unfold Step perform at step
  cases action with
  | submitOption device option =>
      dsimp only at step
      split at step
      · cases step
      · cases step
        exact .of_send (by simp) device _ ⟨rfl, rfl, rfl⟩
  | submitQuestion device question =>
      obtain ⟨event, -, rfl⟩ := Option.map_eq_some_iff.mp step
      exact .of_send (by simp) device event (.refl _)
  | submitVote device key =>
      obtain ⟨event, -, rfl⟩ := Option.map_eq_some_iff.mp step
      exact .of_send (by simp) device event (.refl _)
  | arrive index =>
      obtain ⟨event, -, rfl⟩ := Option.map_eq_some_iff.mp step
      exact .sends _ [event] (by simp) rfl (fun _ => rfl) fun _ => .refl _
  | drop index =>
      cases step
      exact .sends _ [] (by simp) (List.append_nil _).symm (fun _ => rfl) fun _ => .refl _
  | post sender data =>
      cases step
      exact .sends _ [(sender, data)] (by simp) rfl (fun _ => rfl) fun _ => .refl _
  | deliver device =>
      obtain ⟨event, isNext, rfl⟩ := Option.map_eq_some_iff.mp step
      exact .delivers device event isNext rfl rfl

section Runs

variable {env : PollEnvironment} {config : PollConfig} {me : Devices → Nat}
  {system next : PollSystem Devices} {action : PollAction Devices}

omit [DecidableEq Devices] in
theorem start_invariant : Invariant env config me (start env config me) where
  handled _ := .refl _
  distinct device := PollData.newPollData_distinct config (me device)
  within _ := Nat.zero_le _

theorem Invariant.step (invariant : Invariant env config me system)
    (step : Step env system action next) : Invariant env config me next := by
  cases step.effect with
  | delivers device event isNext sameLog devices =>
      refine ⟨fun other => ?_, fun other => ?_, fun other => ?_⟩
      all_goals
        rw [devices]
        by_cases same : other = device
      · subst same
        have handled : PollData.Shared
            ((system.device other).poll.afterEvent env event.1 event.2) _ :=
          (invariant.handled other).afterEvent event.1 event.2
        rw [Function.update_self, sameLog]
        dsimp only
        rw [List.take_add_one, isNext, Option.toList_some, PollData.afterEvents, List.foldl_append]
        exact handled
      · rw [Function.update_of_ne same, sameLog]
        exact invariant.handled other
      · subst same
        rw [Function.update_self]
        exact (invariant.distinct other).afterEvent event.1 event.2
      · rw [Function.update_of_ne same]
        exact invariant.distinct other
      · subst same
        rw [Function.update_self, sameLog]
        exact (List.getElem?_eq_some_iff.mp isNext).1
      · rw [Function.update_of_ne same, sameLog]
        exact invariant.within other
  | sends action suffix notDeliver grows positions shared =>
      refine ⟨fun device => ?_, fun device => ?_, fun device => ?_⟩
      · rw [grows, positions, List.take_append_of_le_length (invariant.within device)]
        exact (shared device).trans (invariant.handled device)
      · have distinct := invariant.distinct device
        unfold PollData.DistinctTexts at distinct ⊢
        rwa [(shared device).options]
      · rw [grows, positions, List.length_append]
        exact Nat.le_add_right_of_le (invariant.within device)

/-- A step takes an option away exactly when its event overwrites one. -/
theorem Invariant.keepsShown_iff (invariant : Invariant env config me system)
    (step : Step env system action next) :
    KeepsShown system next ↔ ¬Overwrites env system action := by
  cases step.effect with
  | delivers device event isNext sameLog devices =>
      have deliveredIff : (system.device device).poll.KeepsShown
          ((system.device device).poll.afterEvent env event.1 event.2) ↔
            ¬(system.device device).poll.Overwrites env event.1 event.2 :=
        PollData.keepsShown_afterEvent_iff (invariant.distinct device) event.1 event.2
      have overwrites : Overwrites env system (.deliver device) ↔
          (system.device device).poll.Overwrites env event.1 event.2 := by
        simp only [Overwrites, isNext, Option.some.injEq, exists_eq_left']
      rw [overwrites, ← deliveredIff]
      constructor
      · intro keeps
        simpa [devices] using keeps device
      · intro keeps other
        by_cases same : other = device
        · subst same
          simpa [devices] using keeps
        · rw [devices, Function.update_of_ne same]
          exact fun _ shown => shown
  | sends action suffix notDeliver grows positions shared =>
      have notOverwrites : ¬Overwrites env system action := by
        cases action with
        | deliver device => exact absurd rfl (notDeliver device)
        | _ => exact not_false
      exact iff_of_true (fun device text => (shared device).shows_iff.mpr) notOverwrites

/-- No step changes voters but for the delivery of a vote. -/
theorem Invariant.keepsVoters (invariant : Invariant env config me system) :
    KeepsVoters env system action := by
  intro next step device key option isOption laterKey later isLater sameText differ
  have unchanged : (system.device device).poll.keyToOption.get? laterKey ≠ some later := by
    intro isBefore
    obtain rfl := invariant.distinct device _ _ isBefore _ _ isOption sameText
    rw [isOption] at isBefore
    cases isBefore
    exact differ rfl
  cases step.effect with
  | delivers other event isNext sameLog devices =>
      by_cases same : device = other
      · subst same
        rw [devices, Function.update_self] at isLater
        exact ⟨rfl, event, isNext, PollData.keepsVoters_afterEvent (invariant.distinct device) _ _
          key option isOption laterKey later isLater sameText differ⟩
      · rw [devices, Function.update_of_ne same] at isLater
        exact absurd isLater unchanged
  | sends action suffix notDeliver grows positions shared =>
      rw [(shared device).options] at isLater
      exact absurd isLater unchanged

end Runs

/-- What a poll should be on all devices. -/
structure Correct (env : PollEnvironment) (config : PollConfig)
    (trace : List (PollSystem Devices × PollAction Devices)) (final : PollSystem Devices) : Prop where
  /-- Clients that handle the same events have the same poll, whoever they are. -/
  agree : ∀ (events : List (Nat × JsonValue)) (one other : Nat),
    PollData.Shared ((newPollData env config one).afterEvents env events)
      ((newPollData env config other).afterEvents env events)
  /-- In every state of the run, devices that have handled as many events have the same poll, but for
  a question of their own that is still on its way. -/
  agreeDevices : Run.Always (fun system => ∀ first second,
    (system.device first).position = (system.device second).position →
      PollData.Shared (system.device first).poll (system.device second).poll) trace final
  /-- An option that is shown stays shown for the rest of the run. -/
  keepsShown : (trace.map Prod.fst ++ [final]).Pairwise KeepsShown
  /-- Its voters change by votes only. -/
  keepsVoters : ∀ visit ∈ trace, KeepsVoters env visit.1 visit.2

end PollSystem

open PollSystem in
/-- A run keeps the options on all devices exactly when no event that is delivered takes a new option
whose key is another option's; the devices agree in any case. -/
theorem poll_correct_iff (env : PollEnvironment) (config : PollConfig) (me : Devices → Nat)
    {trace : List (PollSystem Devices × PollAction Devices)} {final : PollSystem Devices}
    (run : Run (Step env) (start env config me) trace final) :
    Correct env config trace final ↔ ∀ visit ∈ trace, ¬Overwrites env visit.1 visit.2 := by
  have initial : Invariant env config me (start env config me) := start_invariant
  have shownIff : (trace.map Prod.fst ++ [final]).Pairwise KeepsShown ↔
      ∀ visit ∈ trace, ¬Overwrites env visit.1 visit.2 :=
    run.pairwise_iff initial (fun invariant step => invariant.step step)
      (fun first second device text shown => second device text (first device text shown))
      fun invariant step => invariant.keepsShown_iff step
  have visited := run.visited initial fun invariant step => invariant.step step
  have agree : ∀ (events : List (Nat × JsonValue)) (one other : Nat),
      PollData.Shared ((newPollData env config one).afterEvents env events)
        ((newPollData env config other).afterEvents env events) :=
    fun events one other => (PollData.newPollData_shared config one other).afterEvents events
  have agreeAt : ∀ system, Invariant env config me system → ∀ first second,
      (system.device first).position = (system.device second).position →
        PollData.Shared (system.device first).poll (system.device second).poll := by
    intro system invariant first second samePosition
    have ofSecond := (invariant.handled second).symm
    rw [← samePosition] at ofSecond
    exact ((invariant.handled first).trans (agree _ _ _)).trans ofSecond
  constructor
  · exact fun correct => shownIff.mp correct.keepsShown
  · intro noneOverwrites
    exact {
      agree
      agreeDevices :=
        ⟨fun visit member => agreeAt _ (visited _ (by simp [List.mem_map_of_mem member])),
          agreeAt _ (visited _ (by simp))⟩
      keepsShown := shownIff.mpr noneOverwrites
      keepsVoters := fun visit member =>
        (visited _ (by simp [List.mem_map_of_mem member])).keepsVoters }

end System

/-- Decimal texts of whole numbers, and names that nobody reads. -/
def plainPolls : PollEnvironment where
  numberToString value := toString value.num
  commaSeparatedNames _ := ""

/-- A poll of user 5. -/
def lunchPoll : PollConfig where
  messageSenderId := 5
  question := "Lunch?"
  options := []

/-- Two devices of user 5 add an option each, and the first one handles both. -/
def concurrentOptions : List (PollAction Bool) :=
  [.submitOption false "pizza", .submitOption true "sushi", .arrive 0, .arrive 0, .deliver false,
    .deliver false]

/-- The system after some of these actions. -/
def lunchAfter (count : Nat) : PollSystem Bool :=
  (concurrentOptions.take count).foldl
    (fun system action => (system.perform plainPolls action).getD system)
    (.start plainPolls lunchPoll fun _ => 5)

/-- The run after some of these actions. -/
def lunchTrace (count : Nat) : List (PollSystem Bool × PollAction Bool) :=
  (concurrentOptions.take count).mapIdx fun index action => (lunchAfter index, action)

theorem lunchRun_five : Run (PollSystem.Step plainPolls)
    (.start plainPolls lunchPoll fun _ => 5) (lunchTrace 5) (lunchAfter 5) :=
  .step (.step (.step (.step (.step .refl rfl) rfl) rfl) rfl) rfl

theorem lunchRun_six : Run (PollSystem.Step plainPolls)
    (.start plainPolls lunchPoll fun _ => 5) (lunchTrace 6) (lunchAfter 6) :=
  .step lunchRun_five rfl

/-- As long as only the first option is delivered, nothing is lost. -/
theorem poll_correct_iff_pizza :
    PollSystem.Correct plainPolls lunchPoll (lunchTrace 5) (lunchAfter 5) := by
  refine (poll_correct_iff plainPolls lunchPoll (fun _ => 5) lunchRun_five).mpr ?_
  have noKeys : ((lunchAfter 4).device false).poll.keyToOption.keys = [] := by decide +kernel
  intro visit member overwrites
  have visits : visit ∈ [(lunchAfter 0, .submitOption false "pizza"),
      (lunchAfter 1, .submitOption true "sushi"), (lunchAfter 2, .arrive 0),
      (lunchAfter 3, .arrive 0), (lunchAfter 4, .deliver false)] := member
  simp only [List.mem_cons, List.not_mem_nil, or_false] at visits
  rcases visits with rfl | rfl | rfl | rfl | rfl
  · exact overwrites
  · exact overwrites
  · exact overwrites
  · exact overwrites
  · obtain ⟨event, -, idx, option, -, -, -, -, taken⟩ := overwrites
    rw [noKeys] at taken
    cases taken

/-- Both devices choose the same key, so that the second option replaces the first. -/
theorem concurrentOptions_lost :
    ¬∀ trace final, Run (PollSystem.Step plainPolls) (.start plainPolls lunchPoll fun _ : Bool => 5)
        trace final → PollSystem.Correct plainPolls lunchPoll trace final := by
  intro correct
  obtain ⟨-, -, across⟩ := List.pairwise_append.mp (correct _ _ lunchRun_six).keepsShown
  have keeps := across (lunchAfter 5) (by simp [lunchTrace, concurrentOptions]) (lunchAfter 6)
    (List.mem_singleton_self _)
  have shown : PollData.isOptionPresent
      (((lunchAfter 5).device false).poll.widgetOptions plainPolls) "pizza" = true := by
    decide +kernel
  have lost : ¬PollData.isOptionPresent
      (((lunchAfter 6).device false).poll.widgetOptions plainPolls) "pizza" = true := by
    decide +kernel
  exact lost (PollData.isOptionPresent_iff.mpr
    (keeps false "pizza" (PollData.isOptionPresent_iff.mp shown)))

end Zulip.Widgets
