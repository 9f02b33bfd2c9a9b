/-!
# Journals

A journal keeps the entries recorded so far, oldest first, and for each live snapshot the number of
entries there were when it was taken. A snapshot is named by the number of snapshots that were live
before it, so a name is free again once its snapshot is gone.
-/

namespace MeteredLedger

/-- A log of undo entries with nested snapshots. -/
structure Journal (α : Type) where
  /-- The recorded entries, oldest first. -/
  entries : Array α := #[]
  /-- The number of entries at each live snapshot, oldest first. -/
  marks : Array Nat := #[]

namespace Journal

variable {α : Type}

def record (j : Journal α) (entry : α) : Journal α := { j with entries := j.entries.push entry }

/-- Takes a snapshot and gives its name. -/
def snapshot (j : Journal α) : Nat × Journal α :=
  (j.marks.size, { j with marks := j.marks.push j.entries.size })

def isLive (j : Journal α) (snapshot : Nat) : Bool := decide (snapshot < j.marks.size)

/-- Goes back to a snapshot: gives the entries recorded since, newest first, and drops them together
with the snapshot and all later ones. -/
def revert? (j : Journal α) (snapshot : Nat) : Option (List α × Journal α) :=
  j.marks[snapshot]?.map fun mark =>
    ((j.entries.toList.drop mark).reverse,
      { entries := j.entries.take mark, marks := j.marks.take snapshot })

def size (j : Journal α) : Nat := j.entries.size

end Journal

end MeteredLedger
