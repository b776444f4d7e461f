import Zulip.Foundation.Link
import Zulip.Foundation.Transition
import Zulip.Tornado.Registry

/-!
# Long-polling handlers

A handler id is stored twice: in the descriptor that waits with it and, in
`descriptors_by_handler_id`, with a reference to that descriptor. `Bookkeeping` says
that the two agree; `bookkeeping_iff` says which calls keep it so.
-/

namespace Zulip.Tornado

open Program

/-- The calls that touch handlers. -/
inductive HandlerAction where
  | allocateHandlerId
  | connectHandler (ref : Ref) (handlerId : Nat) (clientName : String) (now : Rat)
  | addEvent (ref : Ref) (event : EventBody)
  | finishCurrentHandler (ref : Ref)
  | disconnectHandler (ref : Ref)
  | onConnectionClose (handlerId : Nat)

/-- What a call runs. -/
def HandlerAction.program : HandlerAction → Server Unit
  | .allocateHandlerId => do let _ ← Server.allocateHandlerId
  | .connectHandler ref handlerId clientName now =>
      Server.connectHandler ref handlerId clientName now
  | .addEvent ref event => Server.addEvent ref event
  | .finishCurrentHandler ref => do let _ ← Server.finishCurrentHandler ref
  | .disconnectHandler ref => Server.disconnectHandler ref
  | .onConnectionClose handlerId => Server.onConnectionClose handlerId

/-- One call, whatever it raises. -/
def HandlerStep (state : TornadoState) (action : HandlerAction) (next : TornadoState) : Prop :=
  next = (action.program state).2

theorem HandlerStep.perform (state : TornadoState) (action : HandlerAction) :
    HandlerStep state action (action.program state).2 :=
  rfl

/-- The handler id of each object. -/
def TornadoState.handlerOf (state : TornadoState) (ref : Ref) : Option Nat :=
  (state.heap ref).currentHandlerId

/-- `descriptors_by_handler_id[h]` is an object exactly when `h` is its current handler. -/
def Bookkeeping (state : TornadoState) : Prop :=
  Linked state.descriptorsByHandlerId state.handlerOf

/-- Closing this connection changes the handler of no object that waits with another. -/
def CloseKeepsOthers (state : TornadoState) (handlerId : Nat) : Prop :=
  ∀ ref, state.handlerOf ref ≠ some handlerId →
    (Server.onConnectionClose handlerId state).2.handlerOf ref = state.handlerOf ref

/-- The condition on a call: it disconnects no object that waits with handler 0, and it
connects a handler only to an object that waits with no other and only when no other
object waits with that handler. -/
def HandlerAction.Careful (state : TornadoState) : HandlerAction → Prop
  | .allocateHandlerId => True
  | .connectHandler ref handlerId _ _ =>
      (state.handlerOf ref = none ∨ state.handlerOf ref = some handlerId) ∧
        ∀ other, state.handlerOf other = some handlerId → other = ref
  | .addEvent ref _ | .finishCurrentHandler ref | .disconnectHandler ref =>
      state.handlerOf ref ≠ some 0
  | .onConnectionClose handlerId =>
      ∀ ref, state.descriptorsByHandlerId.get? handlerId = some ref → state.handlerOf ref ≠ some 0

namespace TornadoState

theorem handlerOf_updateClient (state : TornadoState) (ref : Ref)
    (change : ClientDescriptor → ClientDescriptor) :
    (state.updateClient ref change).handlerOf =
      Function.update state.handlerOf ref (change (state.heap ref)).currentHandlerId := by
  funext other
  by_cases isRef : other = ref
  · subst isRef
    simp [handlerOf, updateClient]
  · simp [handlerOf, updateClient, isRef]

/-- A change that keeps the object's handler keeps all handlers. -/
theorem handlerOf_updateClient_of_eq {state : TornadoState} {ref : Ref}
    {change : ClientDescriptor → ClientDescriptor}
    (keeps : (change (state.heap ref)).currentHandlerId = (state.heap ref).currentHandlerId) :
    (state.updateClient ref change).handlerOf = state.handlerOf := by
  rw [handlerOf_updateClient, keeps]
  exact Function.update_eq_self ref state.handlerOf

end TornadoState

namespace Bookkeeping

variable {state : TornadoState}

/-- A change that keeps the object's handler keeps the bookkeeping. -/
theorem updateClient (books : Bookkeeping state) {ref : Ref}
    {change : ClientDescriptor → ClientDescriptor}
    (keeps : (change (state.heap ref)).currentHandlerId = (state.heap ref).currentHandlerId) :
    Bookkeeping (state.updateClient ref change) := by
  unfold Bookkeeping
  rw [TornadoState.handlerOf_updateClient_of_eq keeps]
  exact books

/-- What disconnecting does to the two sides. -/
theorem disconnectHandler_result (books : Bookkeeping state) (ref : Ref) :
    (Server.disconnectHandler ref state).2.handlerOf =
        Function.update state.handlerOf ref none ∧
      (Server.disconnectHandler ref state).2.descriptorsByHandlerId =
        match state.handlerOf ref with
        | none | some 0 => state.descriptorsByHandlerId
        | some handlerId => state.descriptorsByHandlerId.erase handlerId := by
  have handlers := TornadoState.handlerOf_updateClient state ref ClientDescriptor.disconnectHandler
  cases connected : (state.heap ref).currentHandlerId with
  | none =>
      simp only [Server.disconnectHandler, Server.getClient, run_read_bind, connected,
        Server.updateClient, run_modify, TornadoState.handlerOf]
      exact ⟨handlers, rfl⟩
  | some handlerId =>
      cases handlerId with
      | zero =>
          simp only [Server.disconnectHandler, Server.getClient, run_read_bind, connected, if_true,
            Server.updateClient, run_modify, TornadoState.handlerOf]
          exact ⟨handlers, rfl⟩
      | succ handlerId =>
          have found := (books (handlerId + 1) ref).mpr connected
          simp only [Server.disconnectHandler, Server.getClient, run_read_bind, connected,
            Nat.succ_ne_zero, if_false]
          rw [run_bind_of_ok (Server.run_clearDescriptorByHandlerId found)]
          simp only [TornadoState.handlerOf, connected]
          exact ⟨handlers, rfl⟩

/-- Disconnecting keeps the bookkeeping unless the object waits with handler 0. -/
theorem disconnectHandler_iff (books : Bookkeeping state) (ref : Ref) :
    Bookkeeping (Server.disconnectHandler ref state).2 ↔ state.handlerOf ref ≠ some 0 := by
  obtain ⟨handlers, dictionary⟩ := books.disconnectHandler_result ref
  unfold Bookkeeping
  rw [handlers, dictionary]
  cases connected : state.handlerOf ref with
  | none =>
      have unchanged : Function.update state.handlerOf ref none = state.handlerOf := by
        rw [← connected, Function.update_eq_self]
      rw [unchanged]
      exact iff_of_true books nofun
  | some handlerId =>
      cases handlerId with
      | zero => simpa using Linked.not_forget books connected
      | succ handlerId => simpa using Linked.release books connected

/-- Connecting ties the handler to the object. -/
theorem connectHandler_iff (books : Bookkeeping state) (ref : Ref) (handlerId : Nat)
    (clientName : String) (now : Rat) :
    Bookkeeping (Server.connectHandler ref handlerId clientName now state).2 ↔
      (state.handlerOf ref = none ∨ state.handlerOf ref = some handlerId) ∧
        ∀ other, state.handlerOf other = some handlerId → other = ref := by
  rw [← Linked.tie_iff books]
  have handlers := TornadoState.handlerOf_updateClient state ref
    fun client => client.connectHandler handlerId clientName now
  show Linked (state.descriptorsByHandlerId.set handlerId ref) (state.updateClient ref
    fun client => client.connectHandler handlerId clientName now).handlerOf ↔ _
  rw [handlers]
  rfl

/-- Finishing keeps the bookkeeping unless the object waits with handler 0. -/
theorem finishCurrentHandler_iff (books : Bookkeeping state) (ref : Ref) :
    Bookkeeping (Server.finishCurrentHandler ref state).2 ↔ state.handlerOf ref ≠ some 0 := by
  cases connected : (state.heap ref).currentHandlerId with
  | none =>
      have idle : state.handlerOf ref = none := connected
      simp only [Server.finishCurrentHandler, Server.getClient, run_read_bind, connected]
      exact iff_of_true books (by simp [idle])
  | some handlerId =>
      simp only [Server.finishCurrentHandler, Server.getClient, run_read_bind, connected,
        Server.updateClient, run_modify_bind, snd_bind_pure]
      have read : Bookkeeping (state.updateClient ref fun client =>
          { client with eventQueue := client.eventQueue.contents.1 }) := books.updateClient rfl
      rw [read.disconnectHandler_iff ref, TornadoState.handlerOf_updateClient_of_eq rfl]

/-- An event finishes the handler. -/
theorem addEvent_iff (books : Bookkeeping state) (ref : Ref) (event : EventBody) :
    Bookkeeping (Server.addEvent ref event state).2 ↔ state.handlerOf ref ≠ some 0 := by
  have pushed : Bookkeeping (state.updateClient ref fun client => client.push event) :=
    books.updateClient rfl
  simp only [Server.addEvent, Server.updateClient, run_modify_bind, snd_bind_pure]
  rw [pushed.finishCurrentHandler_iff ref, TornadoState.handlerOf_updateClient_of_eq rfl]

/-- The close of a connection disconnects the object found under its handler. -/
theorem onConnectionClose_iff (books : Bookkeeping state) (handlerId : Nat) :
    Bookkeeping (Server.onConnectionClose handlerId state).2 ↔
      ∀ ref, state.descriptorsByHandlerId.get? handlerId = some ref →
        state.handlerOf ref ≠ some 0 := by
  simp only [Server.onConnectionClose, Server.clearHandlerById, run_modify_bind, run_read_bind]
  cases found : state.descriptorsByHandlerId.get? handlerId with
  | none => exact iff_of_true books (by simp)
  | some ref =>
      have cleared : Bookkeeping { state with handlers := state.handlers.erase handlerId } := books
      refine (cleared.disconnectHandler_iff ref).trans ⟨fun nonzero other isRef => ?_,
        fun nonzero => nonzero ref rfl⟩
      rw [← Option.some.inj isRef]
      exact nonzero

/-- While the books agree, the close of a connection reaches no other one. -/
theorem closeKeepsOthers (books : Bookkeeping state) (handlerId : Nat) :
    CloseKeepsOthers state handlerId := by
  intro ref other
  simp only [Server.onConnectionClose, Server.clearHandlerById, run_modify_bind, run_read_bind]
  cases found : state.descriptorsByHandlerId.get? handlerId with
  | none => rfl
  | some closed =>
      have cleared : Bookkeeping { state with handlers := state.handlers.erase handlerId } := books
      have different : ref ≠ closed := by
        rintro rfl
        exact other ((books handlerId ref).mp found)
      show (Server.disconnectHandler closed _).2.handlerOf ref = _
      rw [(cleared.disconnectHandler_result closed).1, Function.update_of_ne different]
      rfl

/-- One call keeps the bookkeeping exactly when it is careful. -/
theorem step_iff {action : HandlerAction} {next : TornadoState} (books : Bookkeeping state)
    (step : HandlerStep state action next) : Bookkeeping next ↔ action.Careful state := by
  subst step
  cases action with
  | allocateHandlerId => exact ⟨fun _ => trivial, fun _ => books⟩
  | connectHandler ref handlerId clientName now =>
      exact books.connectHandler_iff ref handlerId clientName now
  | addEvent ref event => exact books.addEvent_iff ref event
  | finishCurrentHandler ref =>
      simp only [HandlerAction.program, snd_bind_pure]
      exact books.finishCurrentHandler_iff ref
  | disconnectHandler ref => exact books.disconnectHandler_iff ref
  | onConnectionClose handlerId => exact books.onConnectionClose_iff handlerId

end Bookkeeping

/-- In a run from a process that waits with no handler, the books agree in every state,
so that the close of one connection never disconnects another, exactly when every call
is careful. -/
theorem bookkeeping_iff {start final : TornadoState} {trace : List (TornadoState × HandlerAction)}
    (idle : ∀ ref, start.handlerOf ref = none) (unused : start.descriptorsByHandlerId = .empty)
    (run : Run HandlerStep start trace final) :
    Run.Always (fun state => Bookkeeping state ∧ ∀ handlerId, CloseKeepsOthers state handlerId)
        trace final ↔
      ∀ visit ∈ trace, visit.2.Careful visit.1 := by
  have initial : Bookkeeping start := by
    unfold Bookkeeping
    rw [unused]
    exact Linked.empty idle
  refine run.always_iff trivial ⟨initial, initial.closeKeepsOthers⟩
    (fun _ _ _ _ => trivial) fun _ books step => ?_
  rw [← books.1.step_iff step]
  exact ⟨fun both => both.1, fun kept => ⟨kept, kept.closeKeepsOthers⟩⟩

/-- The second connection of a process waits and is closed. -/
theorem bookkeeping_iff_secondHandler :
    ∃ trace final, Run HandlerStep TornadoState.start trace final ∧ trace.length = 4 ∧
      Run.Always (fun state => Bookkeeping state ∧ ∀ handlerId, CloseKeepsOthers state handlerId)
        trace final := by
  have first := Run.refl.step (HandlerStep.perform TornadoState.start .allocateHandlerId)
  have second := first.step (HandlerStep.perform _ .allocateHandlerId)
  have third := second.step (HandlerStep.perform _ (.connectHandler 0 1 "website" 5))
  have fourth := third.step (HandlerStep.perform _ (.onConnectionClose 1))
  refine ⟨_, _, fourth, rfl, (bookkeeping_iff (fun _ => rfl) rfl fourth).mpr fun visit member => ?_⟩
  simp only [List.nil_append, List.cons_append, List.mem_cons, List.not_mem_nil, or_false] at member
  rcases member with rfl | rfl | rfl | rfl
  · trivial
  · trivial
  · refine ⟨Or.inl rfl, fun _ waits => ?_⟩
    cases waits
  · intro ref found
    cases found
    decide

/-- The id of the first connection is 0, which `disconnect_handler` does not clear: an
event answers the connection, and its later close disconnects the connection that the
client waits with by then. -/
theorem bookkeeping_firstHandler :
    ∃ trace final, Run HandlerStep TornadoState.start trace final ∧
      ¬ Bookkeeping final ∧ ¬ CloseKeepsOthers final 0 := by
  have first := Run.refl.step (HandlerStep.perform TornadoState.start .allocateHandlerId)
  have second := first.step (HandlerStep.perform _ (.connectHandler 0 0 "website" 5))
  have third := second.step (HandlerStep.perform _
    (.addEvent 0 (Server.webReloadClientEvent true)))
  have fourth := third.step (HandlerStep.perform _ .allocateHandlerId)
  have fifth := fourth.step (HandlerStep.perform _ (.connectHandler 0 1 "website" 6))
  refine ⟨_, _, fifth, fun books => ?_, fun keeps => ?_⟩
  · have remembered := (books 0 0).mp (by decide)
    exact absurd remembered (by decide)
  · have waits := keeps 0 (by decide)
    exact absurd waits (by decide)

end Zulip.Tornado
