import Mathlib.Data.List.Basic
import Overlay.Journal

/-!
# Values and events of journaled computations

A journal never influences the value beside it, so the value of a computation can be
read off without its events and log lines.  The events of a computation are those of its
parts, one part after the other; log lines are none of them.  A sink takes the events of a
computation part by part as well.
-/

namespace Overlay

namespace Journaled

variable {α β : Type}

@[simp] theorem value_bind (first : Journaled α) (next : α → Journaled β) :
    (first >>= next).value = (next first.value).value := rfl

@[simp] theorem events_bind (first : Journaled α) (next : α → Journaled β) :
    (first >>= next).events = first.events ++ (next first.value).events :=
  List.filterMap_append

@[simp] theorem events_pure (value : α) : (pure value : Journaled α).events = [] := rfl

@[simp] theorem events_log (level : Level) (text : String) : (log level text).events = [] := rfl

@[simp] theorem events_emit (event : Event) : (emit event).events = [event] := rfl

@[simp] theorem events_emitIf (condition : Bool) (event : Event) :
    (emitIf condition event).events = if condition then [event] else [] := by
  cases condition <;> rfl

/-- A loop reports what its rounds report. -/
theorem events_forIn (items : List α) (round : α → Journaled PUnit) :
    (forIn items PUnit.unit fun item _ => do
      round item
      pure (ForInStep.yield PUnit.unit)).events =
      items.flatMap fun item => (round item).events := by
  induction items with
  | nil => rfl
  | cons item rest ih =>
      rw [List.forIn_cons, events_bind, events_bind, events_pure, List.append_nil,
        List.flatMap_cons]
      exact congrArg _ ih

end Journaled

namespace Sink

variable {α β : Type}

/-- A sink that keeps events changes nothing. -/
@[simp] theorem deliver_recording (run : Journaled α) : recording.deliver run = run := by
  have kept : recording.deliverEntry = some := by
    funext entry
    cases entry with
    | event found => rfl
    | log level text => rfl
  rw [deliver, kept, List.filterMap_some]

theorem deliver_bind (sink : Sink) (first : Journaled α) (next : α → Journaled β) :
    sink.deliver (first >>= next) =
      sink.deliver first >>= fun value => sink.deliver (next value) :=
  congrArg (Journaled.mk _) List.filterMap_append

/-- Without events there is nothing to deliver. -/
theorem deliver_of_events_eq_nil (sink : Sink) {run : Journaled α} (quiet : run.events = []) :
    sink.deliver run = run := by
  have kept : run.journal.filterMap sink.deliverEntry = run.journal.filterMap some := by
    apply List.filterMap_congr
    intro entry member
    cases entry with
    | event found => cases List.filterMap_eq_nil_iff.mp quiet _ member
    | log level text => cases sink <;> rfl
  rw [deliver, kept, List.filterMap_some]

end Sink

end Overlay
