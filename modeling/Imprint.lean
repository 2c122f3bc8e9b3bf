import Imprint.Main
import Imprint.Proofs.Children
import Imprint.Proofs.WalkSteps
import Imprint.Proofs.Instances
import Imprint.Proofs.ChainSpelling
import Imprint.Proofs.Patterns
import Imprint.Proofs.SessionRuns
import Imprint.Proofs.ChangingFiles
import Imprint.Proofs.Precedence
import Imprint.Proofs.RemainingNames
import Imprint.Proofs.NumberTexts
import Imprint.Proofs.JsonDocuments
import Imprint.Proofs.NodeFields
import Imprint.Proofs.NodeTexts
import Imprint.Proofs.Reports
import Imprint.Proofs.SecondRuns
import Imprint.Proofs.TextPieces
import Imprint.Proofs.LocationPaths
import Imprint.Proofs.PackageLookups
import Imprint.Proofs.Relocation
import Imprint.Proofs.ProjectFiles
import Imprint.Proofs.RelocatedRuns
import Imprint.Proofs.UnusedDefines
import Imprint.Proofs.DependencyCalls
import Imprint.Proofs.DottedDefines
import Imprint.Proofs.CallArguments
import Imprint.Proofs.LiteralValues
import Imprint.Proofs.HomeDirectories
import Imprint.Proofs.NearestManifests
import Imprint.Proofs.OwnPackages
import Imprint.Proofs.PathSpellings
import Imprint.Proofs.TemplatePieces
import Imprint.Proofs.SourceSpans
import Imprint.Proofs.Composition
import Imprint.Proofs.BareKeys
import Imprint.Proofs.RearrangedMembers
import Imprint.Proofs.DistinctNumbers
