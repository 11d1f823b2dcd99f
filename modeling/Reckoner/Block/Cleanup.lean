import Reckoner.Block.Folding
import Reckoner.Block.Pruning

/-!
# Cleaning up a block

Cleaning a block folds its constants and then prunes what nobody reads.  Both replace an
instruction by a `nop` and add none, so how often they did is a difference of counts.
-/

namespace Reckoner

namespace Block

def clean (b : Block) : Block :=
  b.fold.prune

@[simp]
theorem length_clean (b : Block) : b.clean.length = b.length := by
  simp [clean, fold, prune]

def countNops (b : Block) : Nat :=
  b.countP (· = .nop)

/-- How many instructions folding removes. -/
def foldedCount (b : Block) : Nat :=
  b.fold.countNops - b.countNops

/-- How many further instructions pruning removes. -/
def prunedCount (b : Block) : Nat :=
  b.clean.countNops - b.fold.countNops

end Block

end Reckoner
