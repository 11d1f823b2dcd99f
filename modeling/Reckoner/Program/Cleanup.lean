import Reckoner.Block.Cleanup
import Reckoner.Notice

/-!
# Cleaning up functions

Cleaning a function cleans its body and leaves a declaration alone.  Beside it stand the notices
that operations on a program give: what a cleaning removed, why a body is not well formed, and a
return that belongs to no body.
-/

namespace Reckoner

namespace Program

def cleanup (p : Program) (id : FuncId) : Program :=
  match p.body? id with
  | some body => p.setBody id (some body.clean)
  | none => p

def cleanupNotices (p : Program) (id : FuncId) : List Notice :=
  match p.body? id with
  | some body => [.cleaned body.foldedCount body.prunedCount]
  | none => []

def verifyNotices (p : Program) (id : FuncId) : List Notice :=
  match p.verdict? id with
  | some (f, .error defect) => [.illFormed f defect]
  | _ => []

/-- The notices of a `finish` whose flag is `placed`. -/
def finishNotices (placed : Bool) : List Notice :=
  if placed then [] else [.strayReturn]

theorem verifyNotices_of_verify {p : Program} {id : FuncId} (h : p.verify id = true) :
    p.verifyNotices id = [] := by
  unfold verify at h
  unfold verifyNotices
  split at h <;> simp_all

end Program

end Reckoner
