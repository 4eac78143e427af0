import Overlay.Contribution
import Overlay.Fault
import Overlay.Toml.Document

/-!
# Manifests

A manifest describes a module in a file: what it is called, which modules it
overrides by name, which settings it reads and what it binds.  What it binds has to
be turned into bound values before the module can be contributed.
-/

namespace Overlay

/-- A module described in a file. -/
structure Manifest where
  name : String
  description : Option String
  deprecated : Bool
  overrides : List String
  configs : OrderedMap String String
  bindings : OrderedMap String Toml.Value
  deriving Inhabited

/-- Why a text is no manifest. -/
inductive ManifestFault where
  | unreadable (fault : ReadFault)
  /-- The text is no document of the format, or its entries do not fit. -/
  | malformed
  | unnamed
  deriving DecidableEq, Inhabited

/-- The fault in words. -/
def ManifestFault.message : ManifestFault → String
  | .unreadable fault => "Failed to read manifest file: " ++ fault.message
  | .malformed => "Failed to parse manifest TOML: not a manifest"
  | .unnamed => "Module name cannot be empty"

/-- A binding of a manifest that cannot be bound. -/
structure BindingFault where
  key : String
  manifest : String
  reason : DatumFault
  deriving DecidableEq, Inhabited

/-- The fault in words. -/
def BindingFault.message (fault : BindingFault) : String :=
  s!"Binding '{fault.key}' of module {fault.manifest} is not representable: "
    ++ fault.reason.message

namespace Manifest

/-- The value of an entry. -/
def valueOf? (name : String) (entries : List (String × Toml.Value)) : Option Toml.Value :=
  OrderedMap.find? name entries

/-- Reads an entry that may be absent.  The outer option tells whether the entry
fits, the inner one whether it is there. -/
def optional {α : Type} (name : String) (read : Toml.Value → Option α)
    (entries : List (String × Toml.Value)) : Option (Option α) :=
  match valueOf? name entries with
  | some value => (read value).map some
  | none => some none

/-- Reads a table of labels. -/
def readLabels (value : Toml.Value) : Option (OrderedMap String String) := do
  let entries ← value.entries?
  let labels ← entries.mapM fun (path, label) => label.text?.map (path, ·)
  some (.ofList labels)

/-- Reads a table of values. -/
def readBindings (value : Toml.Value) : Option (OrderedMap String Toml.Value) := do
  let entries ← value.entries?
  let bindings ← entries.mapM fun (key, bound) => bound.settle.map (key, ·)
  some (.ofList bindings)

/-- Reads a list of names. -/
def readNames (value : Toml.Value) : Option (List String) := do
  let items ← value.items?
  items.mapM Toml.Value.text?

/-- The manifest with the given entries; entries that it does not know do not
matter. -/
def ofEntries? (entries : List (String × Toml.Value)) : Option Manifest := do
  let name ← (← valueOf? "name" entries).text?
  let description ← optional "description" Toml.Value.text? entries
  let deprecated ← optional "deprecated" Toml.Value.boolean? entries
  let overrides ← optional "overrides" readNames entries
  let configs ← optional "configs" readLabels entries
  let bindings ← optional "bindings" readBindings entries
  some {
    name
    description
    deprecated := deprecated.getD false
    overrides := overrides.getD []
    configs := configs.getD .empty
    bindings := bindings.getD .empty }

/-- The manifest that a text spells.  It has to have a name. -/
def parse (text : String) : Except ManifestFault Manifest :=
  match (Toml.parse? text).bind ofEntries? with
  | none => .error .malformed
  | some manifest => if manifest.name.isEmpty then .error .unnamed else .ok manifest

/-- The module's unit: it binds what the manifest binds. -/
def unit (manifest : Manifest) : ModuleUnit where
  bindings := manifest.bindings.entries.map fun (key, value) => (key, value.bound)
  deprecated := false

/-- The contribution of a unit as the module that a manifest describes.  The name
identifies it. -/
def contributing (manifest : Manifest) (unit : ModuleUnit) : Contribution :=
  let draft := (Draft.identified (.named manifest.name) unit).applyAll
    [.name manifest.name, .deprecated manifest.deprecated,
      .overridesAll (manifest.overrides.map .named)]
  let described :=
    match manifest.description with
    | some text => draft.apply (.description text)
    | none => draft
  (described.applyAll
    (manifest.configs.entries.map fun (path, label) => .config path label)).build

/-- The contribution that a manifest describes. -/
def toContribution (manifest : Manifest) : Contribution :=
  manifest.contributing manifest.unit

/-- An entry of the bindings with its bound value. -/
def bindEntry (manifest : Manifest) (entry : String × Toml.Value) :
    Except BindingFault (String × Value) :=
  match entry.2.datum.bound with
  | .ok value => .ok (entry.1, value)
  | .error reason => .error ⟨entry.1, manifest.name, reason⟩

/-- The contribution that a manifest describes, found by way of plain data. -/
def contribute (manifest : Manifest) : Except BindingFault Contribution := do
  let bindings ← manifest.bindings.entries.mapM manifest.bindEntry
  .ok (manifest.contributing ⟨(OrderedMap.ofList bindings).entries, false⟩)

end Manifest

end Overlay
