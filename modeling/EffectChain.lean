import EffectChain.Main
import EffectChain.Proofs.BoxFilter
import EffectChain.Proofs.Coherence
import EffectChain.Proofs.Configuration
import EffectChain.Proofs.Deduplication
import EffectChain.Proofs.Depth.Accounting
import EffectChain.Proofs.Depth.Clears
import EffectChain.Proofs.Device.Injection
import EffectChain.Proofs.Durations
import EffectChain.Proofs.Frame.DepthSlots
import EffectChain.Proofs.Frame.Footprint
import EffectChain.Proofs.Frame.Hazards
import EffectChain.Proofs.Frame.Liveness
import EffectChain.Proofs.Frame.ManualDepth
import EffectChain.Proofs.Frame.SceneCopy
import EffectChain.Proofs.Frame.SceneDepth
import EffectChain.Proofs.Frame.Stencil
import EffectChain.Proofs.Isolation
import EffectChain.Proofs.PixelUploads
import EffectChain.Proofs.Records.Slots
import EffectChain.Proofs.Recovery.Session
import EffectChain.Proofs.Reports
import EffectChain.Proofs.TargetRequests
import EffectChain.Proofs.Timing.Wrapping
import EffectChain.Proofs.UniformData
import EffectChain.Proofs.Validity
