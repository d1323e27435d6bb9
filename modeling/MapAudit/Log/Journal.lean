import MapAudit.Log.Line

/-!
# The journal

The journal keeps the entries that reach its threshold.  The operations of the
library say what happened as a list of entries; writing that list to a journal is
all that a threshold has a part in.
-/

namespace MapAudit.Log

set_option autoImplicit false

/-- A log in the making. -/
structure Journal where
  /-- The least severity that is written. -/
  threshold : Severity := .info
  /-- What is written so far. -/
  written : List Entry := []
  deriving Repr

namespace Journal

/-- Write an entry if it reaches the threshold. -/
def record (j : Journal) (e : Entry) : Journal :=
  if e.severity.rank < j.threshold.rank then j else { j with written := j.written ++ [e] }

def recordAll (j : Journal) (entries : List Entry) : Journal :=
  entries.foldl record j

@[simp] theorem threshold_record (j : Journal) (e : Entry) :
    (j.record e).threshold = j.threshold := by
  unfold record
  split <;> rfl

theorem written_record (j : Journal) (e : Entry) :
    (j.record e).written =
      j.written ++ [e].filter fun e => decide (j.threshold.rank ≤ e.severity.rank) := by
  unfold record
  split
  · rename_i below
    simp [below]
  · rename_i reached
    simp [Nat.le_of_not_lt reached]

/-- What is written of a list of entries is those that reach the threshold. -/
theorem written_recordAll (j : Journal) (entries : List Entry) :
    (j.recordAll entries).written =
      j.written ++ entries.filter fun e => decide (j.threshold.rank ≤ e.severity.rank) := by
  induction entries generalizing j with
  | nil => simp [recordAll]
  | cons e rest ih =>
      rw [recordAll, List.foldl_cons]
      change ((j.record e).recordAll rest).written = _
      rw [ih, written_record, threshold_record, List.append_assoc, ← List.filter_append]
      rfl

end Journal

end MapAudit.Log
