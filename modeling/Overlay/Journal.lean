/-!
# Journals

Resolution reports what it does in two ways: as events, which a program may
observe one by one, and as log lines.  Both go into one journal, because the
order between them shows when events are delivered to the log.  A computation
that writes a journal is a value together with the entries written, so that
nothing about it depends on who listens.
-/

namespace Overlay

/-- Something that happened to a module during resolution. -/
inductive Event where
  | accepted (module provider : String)
  | skippedDuplicate (module provider retained : String)
  | overrideApplied (module provider overrides : String)
  | ignoredOverride (module target : String)
  | deprecated (module : String) (description : Option String)
  | validationFailed (message : String)
  deriving DecidableEq, Inhabited

/-- How much a log line matters, from least to most. -/
inductive Level where
  | trace
  | debug
  | info
  | warn
  deriving DecidableEq, Inhabited

namespace Event

/-- The event as told to a reader. -/
def message : Event → String
  | .accepted module provider => s!"Loading module '{module}' provided by '{provider}'"
  | .skippedDuplicate module provider retained =>
      s!"Skipping module '{module}' provided by '{provider}' (already provided by '{retained}')..."
  | .overrideApplied module provider overrides =>
      s!"Loading module '{module}' provided by '{provider}', overrides '{overrides}'"
  | .ignoredOverride module target =>
      s!"Module '{module}' overrides '{target}' which is not loaded, ignoring"
  | .deprecated module (some description) =>
      s!"** Deprecation alert - {module}: {description}"
  | .deprecated module none => s!"** Deprecation alert - {module}."
  | .validationFailed message => message

/-- Whether the event tells of a contribution dropped as a duplicate. -/
def isDuplicateWarning : Event → Bool
  | .skippedDuplicate .. => true
  | _ => false

/-- Whether the event is a deprecation alert. -/
def isDeprecation : Event → Bool
  | .deprecated .. => true
  | _ => false

/-- The level at which the event goes to the log. -/
def level : Event → Level
  | .accepted .. | .overrideApplied .. => .trace
  | .skippedDuplicate .. | .ignoredOverride .. => .debug
  | .deprecated .. | .validationFailed .. => .warn

end Event

/-- One entry of a journal. -/
inductive Entry where
  | event (event : Event)
  | log (level : Level) (text : String)
  deriving DecidableEq, Inhabited

namespace Entry

/-- The event of the entry, if it is one. -/
def event? : Entry → Option Event
  | .event found => some found
  | .log .. => none

/-- The log line of the entry, if it is one. -/
def log? : Entry → Option (Level × String)
  | .event _ => none
  | .log level text => some (level, text)

end Entry

/-- A value and the journal written while it was computed. -/
structure Journaled (α : Type) where
  value : α
  journal : List Entry
  deriving Inhabited

namespace Journaled

variable {α β : Type}

instance : Monad Journaled where
  pure value := ⟨value, []⟩
  bind first next :=
    let second := next first.value
    ⟨second.value, first.journal ++ second.journal⟩

/-- Reports an event. -/
def emit (event : Event) : Journaled Unit := ⟨(), [.event event]⟩

/-- Writes a log line. -/
def log (level : Level) (text : String) : Journaled Unit := ⟨(), [.log level text]⟩

/-- Reports nothing when `condition` fails. -/
def emitIf (condition : Bool) (event : Event) : Journaled Unit :=
  if condition then emit event else pure ()

/-- The events of the journal, in order. -/
def events (run : Journaled α) : List Event := run.journal.filterMap Entry.event?

/-- The log lines of the journal, in order. -/
def logs (run : Journaled α) : List (Level × String) := run.journal.filterMap Entry.log?

end Journaled

/-- Where events go. -/
inductive Sink where
  /-- Events are dropped. -/
  | silent
  /-- Events are kept for a program to look at. -/
  | recording
  /-- Events become log lines. -/
  | logging
  deriving DecidableEq, Inhabited

namespace Sink

/-- What becomes of one entry.  Log lines are not events and always stay. -/
def deliverEntry : Sink → Entry → Option Entry
  | .silent, .event _ => none
  | .recording, .event found => some (.event found)
  | .logging, .event found => some (.log found.level found.message)
  | _, .log level text => some (.log level text)

/-- The journal as it stands after the sink has taken its events. -/
def deliver (sink : Sink) {α : Type} (run : Journaled α) : Journaled α :=
  { run with journal := run.journal.filterMap sink.deliverEntry }

end Sink

end Overlay
