import Overlay.Inspection
import Overlay.Main
import Overlay.Proofs.EncounterOrder
import Overlay.Proofs.Bindings
import Overlay.Proofs.Contested
import Overlay.Proofs.SharedBases
import Overlay.Proofs.AnyOrder
import Overlay.Proofs.Trace
import Overlay.Proofs.Inert
import Overlay.Proofs.Groups
import Overlay.Proofs.Precedence
import Overlay.Proofs.Expansion
import Overlay.Proofs.Labels
import Overlay.Proofs.Calls
import Overlay.Proofs.JsonText
import Overlay.Proofs.ByteOrder
import Overlay.Proofs.Manifests
import Overlay.Proofs.Configs
import Overlay.Proofs.Enumeration
import Overlay.Proofs.Tool
import Overlay.Proofs.Rules
import Overlay.Proofs.FileTree
import Overlay.Proofs.SettingsText
import Overlay.Proofs.SettingsLayers
import Overlay.Proofs.ManifestCycles
import Overlay.Proofs.Conversion
import Overlay.Proofs.Graph.Tables
import Overlay.Proofs.Graph.Moments
import Overlay.Proofs.Visits
import Overlay.Proofs.Histories
import Overlay.Proofs.Drafts
