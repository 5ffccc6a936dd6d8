import DepthStencil.Call
import DepthStencil.TrackedImage.Text
import DepthStencil.Proofs.Masks
import DepthStencil.Proofs.Settling
import DepthStencil.Proofs.Actions
import DepthStencil.Proofs.Beliefs
import DepthStencil.Proofs.Origins
import DepthStencil.Proofs.Hazards
import DepthStencil.Proofs.Rectangles
import DepthStencil.Proofs.Contents
import DepthStencil.Proofs.PhysicalLayout
import DepthStencil.Proofs.Replay
import DepthStencil.Proofs.WriteHistories
import DepthStencil.Proofs.SteadyHistories
import DepthStencil.Proofs.CommandLog
import DepthStencil.Proofs.Flushes
import DepthStencil.Proofs.Commitments
import DepthStencil.Proofs.Passes
import DepthStencil.Proofs.Counters
import DepthStencil.Proofs.PassLog
import DepthStencil.Proofs.PassSteps
import DepthStencil.Proofs.SingleImage
import DepthStencil.Proofs.Independence
import DepthStencil.Proofs.Rejections
import DepthStencil.Proofs.Outlines
import DepthStencil.Proofs.Schemes
import DepthStencil.Proofs.Interleaving
import DepthStencil.Proofs.BarrierChains
import DepthStencil.Proofs.Identifiers
import DepthStencil.Proofs.AbsentAspects
import DepthStencil.Proofs.Promotion
import DepthStencil.Proofs.Statistics
import DepthStencil.Proofs.Clipping
import DepthStencil.Proofs.VisibleParts
import DepthStencil.Proofs.RepeatedClears
import DepthStencil.Proofs.Transparency
import DepthStencil.Proofs.ReadStages
import DepthStencil.Proofs.Readiness
import DepthStencil.Proofs.Finishing
import DepthStencil.Proofs.AtRest
import DepthStencil.Proofs.ReadBarriers
import DepthStencil.Proofs.SlotNumbers
import DepthStencil.Proofs.Transitions
import DepthStencil.Proofs.SubresourceNumbers
