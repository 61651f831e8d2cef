import CallAtlas.Main
import CallAtlas.Proofs.CallTree.Closed
import CallAtlas.Proofs.CallTree.Visit
import CallAtlas.Proofs.CallTree.Bounded
import CallAtlas.Proofs.CallTree.CallSites
import CallAtlas.Proofs.CallTree.Layout
import CallAtlas.Proofs.CallTree.Cut
import CallAtlas.Proofs.Import.History
import CallAtlas.Proofs.Import.Rounds
import CallAtlas.Proofs.Import.Relative
import CallAtlas.Proofs.Import.Candidates
import CallAtlas.Proofs.Import.Composition
import CallAtlas.Proofs.Import.Retrieval
import CallAtlas.Proofs.Analysis.Seeds
import CallAtlas.Proofs.AppendOnly
import CallAtlas.Proofs.Repository
import CallAtlas.Proofs.Consistency
import CallAtlas.Proofs.Interface.Matching
import CallAtlas.Proofs.Interface.Soundness
import CallAtlas.Proofs.Interface.Offline
import CallAtlas.Proofs.Interface.Lookups
import CallAtlas.Proofs.Interface.Once
import CallAtlas.Proofs.CallTree.Late
import CallAtlas.Proofs.Labels
import CallAtlas.Proofs.Import.Permutation
import CallAtlas.Proofs.Indexes
import CallAtlas.Proofs.Interface.Choice
import CallAtlas.Proofs.Text
import CallAtlas.Proofs.Analysis.StartFunction
import CallAtlas.Proofs.Interface.Candidates
import CallAtlas.Proofs.Interface.Merging
import CallAtlas.Proofs.Interface.CallTexts
import CallAtlas.Proofs.Interface.Comments
import CallAtlas.Proofs.Interface.Handles
import CallAtlas.Proofs.Interface.Backing
import CallAtlas.Proofs.Interface.LibraryFiles
import CallAtlas.Proofs.Definitions
import CallAtlas.Proofs.CallTree.Reported
import CallAtlas.Proofs.CallTree.Slice
import CallAtlas.Proofs.CallTree.Quotient
import CallAtlas.Proofs.CallTree.DotText
import CallAtlas.Proofs.Location.Url
import CallAtlas.Proofs.Signature.Overloads
import CallAtlas.Proofs.Signature.Spacing
import CallAtlas.Proofs.Source.Uncommented
import CallAtlas.Proofs.Preorder
import CallAtlas.Proofs.Source.CallOrder
import CallAtlas.Proofs.CallTree.Depths
import CallAtlas.Proofs.Files
import CallAtlas.Proofs.Settings.Distinct
import CallAtlas.Proofs.Settings.Merged
import CallAtlas.Proofs.Settings.Saving
