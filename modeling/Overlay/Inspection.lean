import Overlay.Effective

/-!
# Inspection texts

One-line views of contributions and modules for a developer to look at.  They show
what decides about a module, not everything that belongs to it.
-/

namespace Overlay

/-- An identity with its kind. -/
def Identity.inspect : Identity → String
  | .typed tag name =>
      "Type \x7b id: " ++ tag ++ ", name: " ++ Text.quoted name ++ " \x7d"
  | .named name => "Named(" ++ Text.quoted name ++ ")"
  | .synthetic uuid => "Synthetic(" ++ uuid.hyphenated ++ ")"

/-- Declared overrides between braces. -/
def inspectOverrides (overrides : IdentitySet) : String :=
  "\x7b" ++ ", ".intercalate (overrides.elements.map Identity.inspect) ++ "\x7d"

/-- A kind with named fields, of which more exist than are shown. -/
def inspectFields (kind : String) (fields : List (String × String)) : String :=
  kind ++ " \x7b " ++ String.join (fields.map fun (name, shown) => name ++ ": " ++ shown ++ ", ")
    ++ ".. \x7d"

/-- A contribution in one line. -/
def Contribution.inspect (contribution : Contribution) : String :=
  inspectFields "ModuleCrate" [
    ("id", contribution.id.inspect),
    ("name", Text.quoted contribution.moduleName),
    ("provider_name", Text.quotedOption contribution.provider),
    ("deprecated", toString contribution.deprecated),
    ("overrides", inspectOverrides contribution.overrides)]

/-- A descriptor in one line. -/
def Descriptor.inspect (descriptor : Descriptor) : String :=
  inspectFields "ModuleDescriptor" [
    ("id", descriptor.id.inspect),
    ("name", Text.quoted descriptor.name),
    ("provider_name", Text.quoted descriptor.provider),
    ("deprecated", toString descriptor.deprecated),
    ("overrides", inspectOverrides descriptor.overrides)]

/-- An effective module in one line. -/
def EffectiveModule.inspect (module : EffectiveModule) : String :=
  inspectFields "EffectiveModule" [
    ("name", Text.quoted module.name),
    ("provider_name", Text.quoted module.provider),
    ("deprecated", toString module.deprecated),
    ("composition", module.composition.describe)]

end Overlay
