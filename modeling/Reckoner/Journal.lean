import Reckoner.Notice
import Reckoner.Sink

/-!
# Journals

A journal keeps in order of time what a session says besides its output: diagnostics and what
evaluated functions write, as bytes, and notices among them.  It has two views, `bytes` and
`notices`, each of which leaves out the other kind.
-/

namespace Reckoner

inductive JournalEntry
  | bytes (bytes : Array UInt8)
  | notice (n : Notice)
deriving DecidableEq

structure Journal where
  entries : Array JournalEntry := #[]
deriving DecidableEq

def JournalEntry.written : JournalEntry → Array UInt8
  | .bytes b => b
  | .notice _ => #[]

def JournalEntry.notice? : JournalEntry → Option Notice
  | .bytes _ => none
  | .notice n => some n

namespace Journal

def addBytes (j : Journal) (b : Array UInt8) : Journal :=
  ⟨j.entries.push (.bytes b)⟩

def addText (j : Journal) (text : String) : Journal :=
  j.addBytes (utf8 text)

def addNotices (j : Journal) (ns : List Notice) : Journal :=
  ⟨j.entries ++ (ns.map JournalEntry.notice)⟩

/-- Everything but the notices. -/
def bytes (j : Journal) : List UInt8 :=
  j.entries.toList.flatMap fun e => e.written.toList

/-- The notices alone. -/
def notices (j : Journal) : List Notice :=
  j.entries.toList.filterMap JournalEntry.notice?

@[simp]
theorem bytes_addBytes (j : Journal) (b : Array UInt8) :
    (j.addBytes b).bytes = j.bytes ++ b.toList := by
  simp [bytes, addBytes, JournalEntry.written]

@[simp]
theorem notices_addBytes (j : Journal) (b : Array UInt8) :
    (j.addBytes b).notices = j.notices := by
  simp [notices, addBytes, JournalEntry.notice?]

@[simp]
theorem bytes_addNotices (j : Journal) (ns : List Notice) :
    (j.addNotices ns).bytes = j.bytes := by
  induction ns generalizing j <;> simp_all [bytes, addNotices, JournalEntry.written]

@[simp]
theorem notices_addNotices (j : Journal) (ns : List Notice) :
    (j.addNotices ns).notices = j.notices ++ ns := by
  simp [notices, addNotices, List.filterMap_map, Function.comp_def, JournalEntry.notice?]

end Journal

end Reckoner
