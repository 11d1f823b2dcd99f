import Reckoner.Block

/-!
# Removal of unread instructions

Going backward through a block, a pure instruction whose temporary no later instruction reads is
replaced by a `nop`.  Only what is left of the block counts as a reader, so a chain of
instructions that are read by nothing else goes in one pass.
-/

namespace Reckoner

namespace Block

/-- Prunes a block whose first instruction has the temporary `i`. -/
def pruneFrom (i : Nat) : Block → Block
  | [] => []
  | inst :: rest =>
    let kept := pruneFrom (i + 1) rest
    if inst.isPure && !kept.any (·.reads i) then .nop :: kept else inst :: kept

@[simp]
theorem length_pruneFrom (i : Nat) (b : Block) : (pruneFrom i b).length = b.length := by
  induction b generalizing i with
  | nil => rfl
  | cons inst rest ih =>
    simp only [pruneFrom]
    split <;> simp [ih]

def prune (b : Block) : Block :=
  pruneFrom 0 b

end Block

end Reckoner
