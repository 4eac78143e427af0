import Overlay.Discovery
import Overlay.Provider
import Overlay.Resolution
import Overlay.Settings.Basic

/-!
# Assemblies

An assembly gathers contributions and resolves them.  Contributions have one of
three origins: they are registered explicitly, declared to override a module, or
discovered.  Only the order within an origin matters.  Discovery is attempted
before anything is resolved, so its failure shows before any other.
-/

namespace Overlay

/-- Where a contribution comes from. -/
inductive Origin where
  | explicit
  | overriding
  | discovered
  deriving DecidableEq, Inhabited

/-- The provider of contributions that name none. -/
def Origin.label : Origin → String
  | .explicit => "explicit"
  | .overriding => "override"
  | .discovered => "auto-load"

/-- Puts the contributions of the three origins in order and labels those that name
no provider. -/
def collect (explicit overriding discovered : List Contribution) : List Contribution :=
  let labelled (origin : Origin) (contributions : List Contribution) :=
    contributions.map fun contribution => contribution.orProvider origin.label
  labelled .explicit explicit ++ labelled .overriding overriding ++
    labelled .discovered discovered

/-- Contributions gathered so far, and the source of further ones. -/
structure Collector where
  explicit : Expansion
  overriding : List Contribution
  discovery : Option Discovery
  deriving Inhabited

namespace Collector

open Journaled

/-- The collector that has gathered nothing. -/
def empty : Collector := ⟨⟨[], []⟩, [], none⟩

/-- Registers a contribution. -/
def addExplicit (collector : Collector) (contribution : Contribution) : Collector :=
  { collector with
    explicit :=
      { collector.explicit with
        contributions := collector.explicit.contributions ++ [contribution] } }

/-- Registers a contribution as declared to override a module. -/
def addOverriding (collector : Collector) (contribution : Contribution) : Collector :=
  { collector with overriding := collector.overriding ++ [contribution] }

/-- Registers what a provider expands to. -/
def addProvider {σ : Type} (collector : Collector) (family : ProviderFamily σ)
    (name : String) (supply : σ) : Journaled (Collector × σ) := do
  let (expansion, left) ← Expansion.add family name supply collector.explicit
  pure ({ collector with explicit := expansion }, left)

/-- Names the source of further contributions, in place of an earlier one. -/
def setDiscovery (collector : Collector) (discovery : Discovery) : Collector :=
  { collector with discovery := some discovery }

/-- Everything gathered, and what the source finds. -/
def collected (collector : Collector) (files : FileSystem) :
    Journaled (Except Fault (List Contribution)) := do
  match collector.discovery with
  | none => pure (.ok (collect collector.explicit.contributions collector.overriding []))
  | some discovery =>
      match ← discovery.run files with
      | .error fault => pure (.error (.discovery fault))
      | .ok found => do
          log .debug s!"Auto-discovery found {found.length} modules"
          pure (.ok (collect collector.explicit.contributions collector.overriding found))

end Collector

/-- A program's modules in the making. -/
structure Assembly where
  collector : Collector
  sources : List Discovery
  sink : Sink
  reportDeprecated : Bool
  deriving Inhabited

namespace Assembly

open Journaled

/-- The assembly without modules, which tells its events to the log. -/
def empty : Assembly := ⟨.empty, [], .logging, true⟩

/-- Registers a contribution. -/
def contribute (assembly : Assembly) (contribution : Contribution) : Assembly :=
  { assembly with collector := assembly.collector.addExplicit contribution }

/-- Registers what a provider expands to. -/
def provide {σ : Type} (assembly : Assembly) (family : ProviderFamily σ) (name : String)
    (supply : σ) : Journaled (Assembly × σ) := do
  let (collector, left) ← assembly.collector.addProvider family name supply
  pure ({ assembly with collector }, left)

/-- Registers a contribution as overriding a module. -/
def override (assembly : Assembly) (target : Identity) (contribution : Contribution) :
    Assembly :=
  { assembly with
    collector := assembly.collector.addOverriding (contribution.overriding target) }

/-- Adds a source of contributions after those there are. -/
def discover (assembly : Assembly) (source : Discovery) : Assembly :=
  { assembly with sources := assembly.sources ++ [source] }

/-- Directs events elsewhere. -/
def toSink (assembly : Assembly) (sink : Sink) : Assembly := { assembly with sink }

/-- An assembly as settings describe it.  Loading modules by themselves means those
registered with the program first, then those below the modules directory. -/
def ofSettings (registrations : List Registration) (settings : Settings) : Assembly :=
  let started := { empty with reportDeprecated := settings.modules.reportDeprecated }
  if settings.modules.autoLoad then
    (started.discover (.registered registrations)).discover
      (.directory settings.modules.directory)
  else started

/-- Everything that the assembly gathers. -/
def collected (assembly : Assembly) (files : FileSystem) :
    Journaled (Except Fault (List Contribution)) :=
  let collector :=
    if assembly.sources.isEmpty then assembly.collector
    else assembly.collector.setDiscovery (.chained assembly.sources)
  collector.collected files

/-- Whether an entry reaches the sink. -/
def isReported (assembly : Assembly) (entry : Entry) : Bool :=
  match entry.event? with
  | some event => assembly.reportDeprecated || !event.isDeprecation
  | none => true

/-- Resolves contributions, with events going to the sink. -/
def resolveCollected (assembly : Assembly) (contributions : List Contribution) :
    Journaled (Except Fault (List EffectiveModule)) :=
  let run := resolve contributions
  assembly.sink.deliver { run with journal := run.journal.filter assembly.isReported }

/-- The effective modules of the assembly. -/
def resolved (assembly : Assembly) (files : FileSystem) :
    Journaled (Except Fault (List EffectiveModule)) := do
  match ← assembly.collected files with
  | .error fault => pure (.error fault)
  | .ok contributions => do
      log .debug s!"Collected {contributions.length} module contributions"
      assembly.resolveCollected contributions

/-- Configures modules in order. -/
def configureAll (modules : List EffectiveModule) : Binder :=
  modules.foldl (fun binder module => module.configure binder) OrderedMap.empty

/-- What the effective modules of the assembly bind. -/
def bindings (assembly : Assembly) (files : FileSystem) :
    Journaled (Except Fault Binder) := do
  match ← assembly.resolved files with
  | .error fault => pure (.error fault)
  | .ok effective => do
      let binder := configureAll effective
      log .info
        s!"Configured {effective.length} effective modules into {binder.size} bindings"
      pure (.ok binder)

end Assembly

end Overlay
