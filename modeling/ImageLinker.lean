import ImageLinker.Proofs.ReadBack
import ImageLinker.Proofs.References
import ImageLinker.Proofs.RoundTrip
import ImageLinker.Workspace
import ImageLinker.Proofs.Canonicity
import ImageLinker.Proofs.Registration
import ImageLinker.Proofs.Tiling
import ImageLinker.Proofs.Safety
import ImageLinker.Proofs.ListedBytes
import ImageLinker.Proofs.BlockRequests
import ImageLinker.Proofs.Boundaries
import ImageLinker.Proofs.Handles
import ImageLinker.Proofs.Renaming
import ImageLinker.Proofs.NamedSymbols
import ImageLinker.Proofs.HandledBlocks
import ImageLinker.Proofs.LinkFrame
import ImageLinker.Proofs.ImageLog
import ImageLinker.Proofs.LinkAnswers
import ImageLinker.Proofs.Verdicts
import ImageLinker.Proofs.Walks
import ImageLinker.Proofs.Refusals
import ImageLinker.Proofs.Labels
import ImageLinker.EntryPoint
import ImageLinker.Proofs.Appended
import ImageLinker.Proofs.AssemblyText
import ImageLinker.Proofs.Lookups
import ImageLinker.Proofs.EntryPoints
import ImageLinker.Proofs.Patching
import ImageLinker.Proofs.OpenBlocks
import ImageLinker.Proofs.AssignedBlocks
