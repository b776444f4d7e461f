import Mathlib.Data.List.Chain

/-!
# Traces of starts and stops

A subject is started, perhaps started again while it goes on, and stopped. A trace is well bracketed
when no other subject is started in between, and restarts keep a distance in time. It is built by
three rules, one for each notice that may come next.
-/

namespace Zulip

universe u v

inductive Notice (Subject : Type u) (Time : Type v) where
  | start (subject : Subject) (time : Time)
  | stop (subject : Subject)
deriving DecidableEq

variable {Subject : Type u} {Time : Type v}

/-- What may come after what. -/
inductive Notice.Follows [Add Time] [LT Time] (Same : Subject → Subject → Prop) (distance : Time) :
    Notice Subject Time → Notice Subject Time → Prop where
  | restart {first second : Subject} {earlier later : Time} (same : Same first second)
      (apart : earlier + distance < later) :
      Follows Same distance (.start first earlier) (.start second later)
  | close {first second : Subject} {time : Time} (same : Same first second) :
      Follows Same distance (.start first time) (.stop second)
  | reopen {first second : Subject} {time : Time} :
      Follows Same distance (.stop first) (.start second time)

/-- A trace in which every stop is for the subject that was started last, and every other subject is
started after the stop. -/
structure WellBracketed [Add Time] [LT Time] (Same : Subject → Subject → Prop) (distance : Time)
    (trace : List (Notice Subject Time)) : Prop where
  stop_of_start : ∀ before subject after, trace = before ++ .stop subject :: after →
    ∃ earlier started time, before = earlier ++ [.start started time] ∧ Same started subject
  same_until_stop : ∀ before first earlier between second later after,
    trace = before ++ .start first earlier :: (between ++ .start second later :: after) →
      (∀ subject, .stop subject ∉ between) → Same first second
  restarts_apart : ∀ before first earlier second later after,
    trace = before ++ .start first earlier :: .start second later :: after →
      Same first second ∧ earlier + distance < later

/-- The same, as it is built notice by notice. -/
structure Bracketed [Add Time] [LT Time] (Same : Subject → Subject → Prop) (distance : Time)
    (trace : List (Notice Subject Time)) : Prop where
  first_start : ∀ subject, trace.head? ≠ some (.stop subject)
  chain : trace.IsChain (Notice.Follows Same distance)

/-- What a start opens, with its time. -/
def Notice.opened : Notice Subject Time → Option (Subject × Time)
  | .start subject time => some (subject, time)
  | .stop _ => none

/-- The subject that goes on, with the time of its last start. -/
def goesOn (trace : List (Notice Subject Time)) : Option (Subject × Time) :=
  trace.getLast?.bind Notice.opened

@[simp] theorem goesOn_append_start (trace : List (Notice Subject Time)) (subject : Subject)
    (time : Time) : goesOn (trace ++ [.start subject time]) = some (subject, time) := by
  simp [goesOn, Notice.opened]

@[simp] theorem goesOn_append_stop (trace : List (Notice Subject Time)) (subject : Subject) :
    goesOn (trace ++ [.stop subject]) = none := by
  simp [goesOn, Notice.opened]

/-- What goes on is what the last notice has started. -/
theorem getLast?_of_goesOn_eq_some {trace : List (Notice Subject Time)} {subject : Subject}
    {time : Time} (isOpen : goesOn trace = some (subject, time)) :
    trace.getLast? = some (.start subject time) := by
  obtain ⟨last, isLast, isOpened⟩ := Option.bind_eq_some_iff.mp isOpen
  cases last with
  | start other otherTime =>
      cases isOpened
      exact isLast
  | stop other => cases isOpened

/-- When nothing goes on, the last notice is a stop. -/
theorem exists_of_goesOn_eq_none {trace : List (Notice Subject Time)}
    (closed : goesOn trace = none) {notice : Notice Subject Time}
    (isLast : notice ∈ trace.getLast?) : ∃ subject, notice = .stop subject := by
  have notOpened := Option.bind_eq_none_iff.mp closed notice isLast
  cases notice with
  | start other otherTime => cases notOpened
  | stop other => exact ⟨other, rfl⟩

namespace Bracketed

variable [Add Time] [LT Time] {Same : Subject → Subject → Prop} {distance : Time}
  {trace : List (Notice Subject Time)} {subject started : Subject} {time : Time}

theorem empty : Bracketed Same distance [] := ⟨nofun, .nil⟩

theorem head?_append_ne {notice : Notice Subject Time} (bracketed : Bracketed Same distance trace)
    (nonempty : trace ≠ []) : ∀ subject, (trace ++ [notice]).head? ≠ some (.stop subject) := by
  intro subject
  rw [List.head?_append_of_ne_nil _ nonempty]
  exact bracketed.first_start subject

/-- Nothing goes on, and any subject may start. -/
theorem append_start (bracketed : Bracketed Same distance trace) (closed : goesOn trace = none) :
    Bracketed Same distance (trace ++ [.start subject time]) := by
  refine ⟨?_, List.isChain_append.mpr ⟨bracketed.chain, List.isChain_singleton _, ?_⟩⟩
  · cases trace with
    | nil => nofun
    | cons first rest => exact bracketed.head?_append_ne (List.cons_ne_nil _ _)
  · intro last isLast next isNext
    obtain ⟨other, rfl⟩ := exists_of_goesOn_eq_none closed isLast
    cases isNext
    exact .reopen

/-- While a subject goes on, a notice that may follow its start. -/
theorem append_of_follows {notice : Notice Subject Time} (bracketed : Bracketed Same distance trace)
    (isOpen : goesOn trace = some (started, time))
    (follows : Notice.Follows Same distance (.start started time) notice) :
    Bracketed Same distance (trace ++ [notice]) := by
  refine ⟨bracketed.head?_append_ne ?_,
    List.isChain_append.mpr ⟨bracketed.chain, List.isChain_singleton _, ?_⟩⟩
  · rintro rfl
    cases isOpen
  · intro last isLast next isNext
    rw [getLast?_of_goesOn_eq_some isOpen] at isLast
    cases isLast
    cases isNext
    exact follows

/-- Starts without a stop in between are all of the same subject. -/
theorem same_of_chain (transitive : ∀ first second third, Same first second →
      Same second third → Same first third)
    {first second : Subject} {earlier later : Time} {between after : List (Notice Subject Time)}
    (chain : (.start first earlier :: (between ++ .start second later :: after)).IsChain
      (Notice.Follows Same distance))
    (noStop : ∀ subject, .stop subject ∉ between) : Same first second := by
  induction between generalizing first earlier with
  | nil =>
      cases (List.isChain_cons_cons.mp chain).1
      assumption
  | cons notice rest inductionHypothesis =>
      obtain ⟨follows, chain⟩ := List.isChain_cons_cons.mp chain
      cases follows with
      | restart same _ =>
          exact transitive _ _ _ same (inductionHypothesis chain
            fun subject isMember => noStop subject (List.mem_cons_of_mem _ isMember))
      | close same => exact absurd List.mem_cons_self (noStop _)

/-- A trace that is built by the rules is well bracketed. -/
theorem wellBracketed (bracketed : Bracketed Same distance trace)
    (transitive : ∀ first second third, Same first second → Same second third →
      Same first third) : WellBracketed Same distance trace where
  stop_of_start before subject after isTrace := by
    induction before using List.reverseRecOn with
    | nil =>
        refine absurd ?_ (bracketed.first_start subject)
        rw [isTrace]
        rfl
    | append_singleton earlier last _ =>
        have chain := bracketed.chain
        rw [isTrace, List.append_assoc, List.singleton_append] at chain
        cases (List.isChain_append_cons_cons.mp chain).2.1 with
        | close same => exact ⟨earlier, _, _, rfl, same⟩
  same_until_stop before first earlier between second later after isTrace noStop := by
    have chain := bracketed.chain
    rw [isTrace] at chain
    exact same_of_chain transitive (List.isChain_split.mp chain).2 noStop
  restarts_apart before first earlier second later after isTrace := by
    have chain := bracketed.chain
    rw [isTrace] at chain
    cases (List.isChain_append_cons_cons.mp chain).2.1 with
    | restart same apart => exact ⟨same, apart⟩

end Bracketed

end Zulip
