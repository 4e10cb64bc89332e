import FieldGraft.Build
import FieldGraft.Expansion
import FieldGraft.Main
import FieldGraft.Proofs.NodeCompletion
import FieldGraft.Proofs.ContextReadings
import FieldGraft.Proofs.TargetEntries
import FieldGraft.Proofs.PlacementIndependence
import FieldGraft.Proofs.EmissionReruns
import FieldGraft.Proofs.ModuleEnclosure
import FieldGraft.Proofs.BuildReruns
import FieldGraft.Proofs.TargetPaths
import FieldGraft.Proofs.ArenaLinks
import FieldGraft.Proofs.SessionRounds
import FieldGraft.Proofs.ConstructorForms
import FieldGraft.Proofs.ImportedNames
import FieldGraft.Proofs.EmittedWords
import FieldGraft.Proofs.ExpandedDiagnostics
import FieldGraft.Proofs.CollectedSources
import FieldGraft.Proofs.BuildVerdicts
import FieldGraft.Proofs.AnnotationProperties
import FieldGraft.Proofs.ConfigDiscovery
import FieldGraft.Proofs.CapabilitySearch
