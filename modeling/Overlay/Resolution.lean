import Overlay.Effective
import Overlay.Graph.LoadOrder
import Overlay.Graph.SingleOverride

/-!
# Resolution

From contributions to effective modules: retain one contribution for each
identity, relate the retained modules by their overrides, refuse double overrides
and cycles in this order, and fold what is left from the bottom up.
-/

namespace Overlay

open Journaled

/-- Reports a fault and hands it on. -/
def failResolution {α : Type} (fault : Fault) : Journaled (Except Fault α) := do
  log .debug ("Module resolution failed: " ++ fault.message)
  emit (.validationFailed fault.message)
  pure (.error fault)

/-- The effective modules of a list of contributions. -/
def resolve (contributions : List Contribution) :
    Journaled (Except Fault (List EffectiveModule)) := do
  let roster ← Roster.ofContributions contributions
  let graph ← OverrideGraph.build roster
  match ← graph.checkSingleOverride with
  | .error fault => failResolution (.doubleOverride fault)
  | .ok () =>
      match ← graph.loadOrder with
      | .error fault => failResolution (.cycle fault)
      | .ok order => do
          let effective := graph.fold order
          log .info
            (s!"Resolved {contributions.length} module contributions into " ++
              s!"{effective.length} effective modules")
          pure (.ok effective)

end Overlay
