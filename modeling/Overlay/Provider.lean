import Overlay.Contribution
import Overlay.Journal

/-!
# Providers and their expansion

A provider builds a contribution and names other providers that its module needs.
Expansion goes depth first and builds every provider it comes by, but a key that
it has met before adds nothing.  Building may draw on a supply, such as one of
fresh identifiers, which is handed from one provider to the next.
-/

namespace Overlay

/-- A provider that builds its contribution from a supply of type `σ`. -/
structure Provider (σ : Type) where
  /-- What recognises the provider when its module has no lasting identity. -/
  label : String
  build : σ → Contribution × σ
  /-- The names of the providers that the module needs, in order. -/
  dependencies : List String

/-- Providers by name. -/
abbrev ProviderFamily (σ : Type) := OrderedMap String (Provider σ)

/-- What expansion remembers of a provider it has met. -/
inductive ProviderKey where
  | module (id : Identity.Key)
  | provider (label : String)
  deriving DecidableEq

/-- The key of a provider that built a contribution: its module's identity, unless
the identity lasts for this contribution only. -/
def ProviderKey.of (label : String) (contribution : Contribution) : ProviderKey :=
  if contribution.id.isSynthetic then .provider label else .module contribution.id.key

/-- The contributions that expansion has found and the keys it has met. -/
structure Expansion where
  contributions : List Contribution
  keys : List ProviderKey
  deriving Inhabited

namespace Expansion

/-- Expands the providers with the given names, each with what it needs before the
next one.  `budget` bounds the number of contributions added: a member adds at most
one under its label and one under the lasting identity of its module. -/
def run {σ : Type} (family : ProviderFamily σ) (budget : Nat) (names : List String)
    (supply : σ) (expansion : Expansion) : Journaled (Expansion × σ) :=
  match names with
  | [] => pure (expansion, supply)
  | name :: rest =>
      match family.get? name with
      | none => run family budget rest supply expansion
      | some provider =>
          let (contribution, left) := provider.build supply
          let key := ProviderKey.of provider.label contribution
          if key ∈ expansion.keys then do
            Journaled.log .debug
              s!"Provider dependency '{contribution.moduleName}' already expanded, skipping"
            run family budget rest left expansion
          else
            match budget with
            | 0 => pure (expansion, left)
            | budget + 1 =>
                run family budget (provider.dependencies ++ rest) left
                  { contributions := expansion.contributions ++ [contribution]
                    keys := key :: expansion.keys }
termination_by (budget, names.length)

/-- Expands one provider. -/
def add {σ : Type} (family : ProviderFamily σ) (name : String) (supply : σ)
    (expansion : Expansion) : Journaled (Expansion × σ) :=
  run family (2 * family.size) [name] supply expansion

end Expansion

end Overlay
