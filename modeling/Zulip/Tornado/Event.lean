import Mathlib.Data.List.Basic
import Zulip.Tornado.MessageDict
import Zulip.Tornado.NotificationData

/-!
# Events of an event queue

An event is a dictionary with a `type`. `EventBody` is the event as callers pass
it to `push`; `Event` is the stored copy with the `id` that the queue gave it.
The fields that the server reads are typed; the others travel as `JsonFields`.
-/

namespace Zulip.Tornado

/-- Python's `text.startswith(start)`. -/
def startswith (text start : String) : Bool := start.toList.isPrefixOf text.toList

theorem startswith_iff {text start : String} :
    startswith text start = true ↔ start.toList <+: text.toList :=
  List.isPrefixOf_iff_prefix

theorem startswith_append_self (start rest : String) :
    startswith (start ++ rest) start = true := by
  rw [startswith_iff, String.toList_append]
  exact List.prefix_append _ _

theorem startswith_append_append (start middle rest : String) :
    startswith (start ++ rest) (start ++ middle) = startswith rest middle := by
  rw [Bool.eq_iff_iff, startswith_iff, startswith_iff, String.toList_append, String.toList_append]
  exact List.prefix_append_right_inj _

/-- The `operation` of an `update_message_flags` event. -/
inductive FlagOperation where
  | add
  | remove
deriving DecidableEq, Repr

namespace FlagOperation

/-- The value of the `operation` key. -/
def name : FlagOperation → String
  | .add => "add"
  | .remove => "remove"

end FlagOperation

/-- The payload of an `update_message_flags` event. -/
structure FlagsUpdate where
  operation : FlagOperation
  flag : String
  all : Bool
  messages : List Int
  /-- The JSON text of the `timestamp`, when the key is present. -/
  timestamp : Option String := none
  /-- The other keys, `message_details` among them. -/
  rest : JsonFields := []
deriving DecidableEq, Repr

/-- The payload of a `message` event. -/
structure MessageEvent where
  message : MessagePayload
  flags : List String
  internalData : Option InternalData := none
  localMessageId : Option String := none
deriving DecidableEq, Repr

/-- An event type other than the two above. None of the server's type names can
be taken for the full type of a flag update. -/
structure PlainType where
  name : String
  notUpdateMessageFlags : name ≠ "update_message_flags"
  notMessage : name ≠ "message"
  notFlags : startswith name "flags/" = false
deriving DecidableEq, Repr

/-- Any other event. -/
structure PlainEvent where
  type : PlainType
  /-- The `stream_id` key, which `accepts_event` looks for in typing events. -/
  streamId : Option Int := none
  rest : JsonFields := []
deriving DecidableEq, Repr

/-- An event as it is passed to `EventQueue.push`. -/
inductive EventBody where
  | updateMessageFlags (update : FlagsUpdate)
  | message (event : MessageEvent)
  | plain (event : PlainEvent)
deriving DecidableEq, Repr

namespace EventBody

/-- The value of the `type` key. -/
def type : EventBody → String
  | .updateMessageFlags _ => "update_message_flags"
  | .message _ => "message"
  | .plain event => event.type.name

/-- The part of `prune_internal_data` that concerns one event. -/
def pruneInternalData : EventBody → EventBody
  | .message event => .message { event with internalData := none }
  | body => body

/-- `"timestamp" in event`, and its value. -/
def timestamp? : EventBody → Option String
  | .updateMessageFlags update => update.timestamp
  | _ => none

end EventBody

/-- A stored event: the pushed keys and the `id` that the queue added. -/
structure Event where
  id : Int
  body : EventBody
deriving DecidableEq, Repr

/-- `prune_internal_data`. -/
def pruneInternalData (events : List Event) : List Event :=
  events.map fun event => { event with body := event.body.pruneInternalData }

@[simp] theorem mem_pruneInternalData {events : List Event} {event : Event} :
    event ∈ pruneInternalData events ↔
      ∃ stored ∈ events, event = ⟨stored.id, stored.body.pruneInternalData⟩ := by
  simp [pruneInternalData, eq_comm]

/-- `compute_full_event_type`. -/
def computeFullEventType : EventBody → String
  | .updateMessageFlags update =>
      -- Put the "all" case in its own category.
      if update.all then "all_flags/" ++ update.flag ++ "/" ++ update.operation.name
      else "flags/" ++ update.operation.name ++ "/" ++ update.flag
  | body => body.type

/-- The test by which `push` selects the events that it compresses. -/
def isVirtual (fullEventType : String) : Bool :=
  startswith fullEventType "flags/" && !startswith fullEventType "flags/remove/read"

/-- `push` compresses this event. -/
def EventBody.compressible (body : EventBody) : Bool := isVirtual (computeFullEventType body)

/-- Internal data does not matter to compression. -/
@[simp] theorem compressible_pruneInternalData (body : EventBody) :
    body.pruneInternalData.compressible = body.compressible := by
  cases body <;> rfl

theorem filter_pruneInternalData (events : List Event) :
    ((pruneInternalData events).filter fun event => !event.body.compressible) =
      pruneInternalData (events.filter fun event => !event.body.compressible) := by
  simp [pruneInternalData, List.filter_map, Function.comp_def]

/-- The full type of a flag update for listed messages. -/
def flagsType (operation : FlagOperation) (flag : String) : String :=
  "flags/" ++ operation.name ++ "/" ++ flag

@[simp] theorem computeFullEventType_updateMessageFlags {update : FlagsUpdate}
    (listed : update.all = false) :
    computeFullEventType (.updateMessageFlags update) = flagsType update.operation update.flag := by
  simp [computeFullEventType, flagsType, listed]

theorem isVirtual_flagsType_add (flag : String) : isVirtual (flagsType .add flag) = true := by
  have flags : startswith (flagsType .add flag) "flags/" = true := by
    rw [flagsType, String.append_assoc, String.append_assoc]
    exact startswith_append_self _ _
  have notRemove : startswith (flagsType .add flag) "flags/remove/read" = false := by
    have split : flagsType .add flag = "flags/add/" ++ flag := rfl
    rw [split, Bool.eq_false_iff, ne_eq, startswith_iff, String.toList_append]
    rintro ⟨rest, same⟩
    simp at same
  simp [isVirtual, flags, notRemove]

theorem isVirtual_flagsType_remove (flag : String) :
    isVirtual (flagsType .remove flag) = !startswith flag "read" := by
  have flags : startswith (flagsType .remove flag) "flags/" = true := by
    rw [flagsType, String.append_assoc, String.append_assoc]
    exact startswith_append_self _ _
  have read : startswith (flagsType .remove flag) "flags/remove/read" = startswith flag "read" :=
    startswith_append_append "flags/remove/" "read" flag
  simp [isVirtual, flags, read]

/-- `push` compresses exactly the flag updates for listed messages, other than
removals of a flag whose name starts with `read`. -/
theorem compressible_iff {body : EventBody} :
    body.compressible = true ↔ ∃ update, body = .updateMessageFlags update ∧ update.all = false ∧
      (update.operation = .remove → startswith update.flag "read" = false) := by
  cases body with
  | updateMessageFlags update =>
      cases listed : update.all with
      | true =>
          have notFlags : startswith (computeFullEventType (.updateMessageFlags update)) "flags/" =
              false := by
            simp [computeFullEventType, listed, startswith, List.isPrefixOf]
          simp [EventBody.compressible, isVirtual, notFlags, listed]
      | false =>
          rw [EventBody.compressible, computeFullEventType_updateMessageFlags listed]
          cases operation : update.operation with
          | add => simp [isVirtual_flagsType_add, listed, operation]
          | remove => simp [isVirtual_flagsType_remove, listed, operation]
  | message event =>
      simp [EventBody.compressible, isVirtual, computeFullEventType, EventBody.type, startswith]
  | plain event =>
      have notFlags := event.type.notFlags
      simp [EventBody.compressible, isVirtual, computeFullEventType, EventBody.type, notFlags]

end Zulip.Tornado
