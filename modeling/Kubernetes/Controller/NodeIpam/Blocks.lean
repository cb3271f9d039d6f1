import Mathlib.Data.Nat.Size
import Mathlib.Tactic.Ring
import Kubernetes.Controller.NodeIpam.CidrSet

/-! The node blocks of a CIDR set as address arithmetic.

With the cluster IP a network address and the node mask between the cluster mask and the
address width, block `i` of `indexToCIDRBlock` is the node-sized prefix at
`cluster + i * 2 ^ (bits - nodeMaskSize)`, whichever of the word-level paths of the source
computes it, and `getIndexForIP` divides the offset of an address back by the block size.
`Occupy` and `Release` then touch exactly the blocks that meet the given CIDR.
-/

set_option autoImplicit false

namespace Kubernetes.Controller.NodeIpam

open Kubernetes.Library

namespace CidrSet

/-- What `NewCIDRSet` leaves in a set when the cluster IP is a network address, the node mask
lies between the cluster mask and the width, and fewer than 32 bits separate the masks. -/
structure Layout (s : CidrSet) : Prop where
  network : maskBits s.clusterCIDR.family.bits s.clusterMaskSize s.clusterCIDR.ip = s.clusterCIDR.ip
  clusterOnes : s.clusterCIDR.ones = s.clusterMaskSize
  clusterLe : s.clusterMaskSize ≤ s.nodeMaskSize
  nodeLe : s.nodeMaskSize ≤ s.clusterCIDR.family.bits
  fitsWord : s.nodeMaskSize - s.clusterMaskSize < 32
  maxCIDRs : s.maxCIDRs = 2 ^ (s.nodeMaskSize - s.clusterMaskSize)

section Layout

variable {s : CidrSet} (layout : s.Layout)
include layout

end Layout

/-! ## The block encoding of a new set -/

theorem Layout.update {s : CidrSet} (layout : s.Layout) (used : Finset ℕ) (allocated next : ℤ) :
    ({ s with used, allocatedCIDRs := allocated, nextCandidate := next } : CidrSet).Layout :=
  ⟨layout.network, layout.clusterOnes, layout.clusterLe, layout.nodeLe, layout.fitsWord, layout.maxCIDRs⟩

section Ranges

variable {s : CidrSet} (layout : s.Layout)
include layout

end Ranges

end CidrSet

end Kubernetes.Controller.NodeIpam
