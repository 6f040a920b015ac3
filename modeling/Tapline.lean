import Tapline.Catalog
import Tapline.Main
import Tapline.Proofs.BuiltTrees
import Tapline.Proofs.BusNames
import Tapline.Proofs.Canonical
import Tapline.Proofs.Composition
import Tapline.Proofs.Consumption
import Tapline.Proofs.Cutting
import Tapline.Proofs.Display
import Tapline.Proofs.EndOfInput
import Tapline.Proofs.Excerpts
import Tapline.Proofs.Files.Outcomes
import Tapline.Proofs.LexicalProblems
import Tapline.Proofs.Lookups
import Tapline.Proofs.Meaning
import Tapline.Proofs.Naming
import Tapline.Proofs.Parallel
import Tapline.Proofs.Parts
import Tapline.Proofs.Pointing
import Tapline.Proofs.Positions
import Tapline.Proofs.Quoting
import Tapline.Proofs.Reading
import Tapline.Proofs.Recognition
import Tapline.Proofs.Registry.History
import Tapline.Proofs.Registry.Integrity
import Tapline.Proofs.Registry.Operations
import Tapline.Proofs.Registry.Rearrangement
import Tapline.Proofs.Registry.Removal
import Tapline.Proofs.Registry.Replay
import Tapline.Proofs.Registry.Reports
import Tapline.Proofs.Registry.Reresolution
import Tapline.Proofs.Resolution
import Tapline.Proofs.Resolution.Finality
import Tapline.Proofs.Resolution.Meaning
import Tapline.Proofs.Resolution.Outcomes
import Tapline.Proofs.RoundTrip
import Tapline.Proofs.SavedFiles
import Tapline.Proofs.Separation
import Tapline.Proofs.Spacing
import Tapline.Proofs.Tiling
import Tapline.Proofs.UnnamedTexts
import Tapline.Proofs.Catalog
