import MapAudit.Builtin
import MapAudit.Request

/-!
# Checks

A check is the class of issues it finds together with its requests in the order
of declaration.  The last request is the *sink*, whose features are reported.
The names of the requests are distinct, and none of them is a built-in source.
-/

namespace MapAudit

set_option autoImplicit false

/-- The class that the issues of a check belong to. -/
structure IssueClass where
  id : String
  item : String
  level : String
  title : String
  deriving DecidableEq, Repr, Inhabited

/-- A check: the requests before the sink, and the sink. -/
structure Check where
  issueClass : IssueClass
  /-- The requests before the last, in the order of declaration. -/
  earlier : List Request
  /-- The last request. -/
  sink : Request
  /-- No two requests have one name. -/
  distinct : ((earlier ++ [sink]).map (·.name)).Nodup
  /-- No request has the name of a built-in source. -/
  unshadowed : ∀ r ∈ earlier ++ [sink], Builtin.find? r.name = none
  deriving Repr

namespace Check

/-- All requests in the order of declaration. -/
def requests (c : Check) : List Request :=
  c.earlier ++ [c.sink]

def id (c : Check) : String := c.issueClass.id

def find? (c : Check) (name : String) : Option Request :=
  c.requests.find? fun r => r.name = name

/-- The first name, after the names `taken`, that is a built-in source or a
repetition. -/
def clash? : List String → List Request → Option String
  | _, [] => none
  | taken, r :: rest =>
      if (Builtin.find? r.name).isSome ∨ r.name ∈ taken then some r.name
      else clash? (taken ++ [r.name]) rest

/-- There is no clash exactly when every name is free and no name is repeated. -/
theorem clash?_eq_none_iff {taken : List String} {requests : List Request} :
    clash? taken requests = none ↔
      (∀ r ∈ requests, Builtin.find? r.name = none ∧ r.name ∉ taken) ∧
        (requests.map (·.name)).Nodup := by
  induction requests generalizing taken with
  | nil => simp [clash?]
  | cons r rest ih =>
      by_cases clash : (Builtin.find? r.name).isSome ∨ r.name ∈ taken
      · rw [clash?, if_pos clash]
        simp only [reduceCtorEq, false_iff]
        rintro ⟨free, -⟩
        obtain ⟨builtin, fresh⟩ := free r (by simp)
        rcases clash with shadowed | repeated
        · simp [builtin] at shadowed
        · exact fresh repeated
      · rw [clash?, if_neg clash, ih]
        simp only [not_or, Bool.not_eq_true, Option.isSome_eq_false_iff,
          Option.isNone_iff_eq_none] at clash
        constructor
        · rintro ⟨free, distinct⟩
          refine ⟨fun other member => ?_, ?_⟩
          · rcases List.mem_cons.1 member with rfl | later
            · exact clash
            · obtain ⟨builtin, fresh⟩ := free other later
              exact ⟨builtin, fun old => fresh (by simp [old])⟩
          · refine List.nodup_cons.2 ⟨fun again => ?_, distinct⟩
            obtain ⟨other, later, same⟩ := List.mem_map.1 again
            exact (free other later).2 (by simp [same])
        · rintro ⟨free, distinct⟩
          rw [List.map_cons, List.nodup_cons] at distinct
          refine ⟨fun other later => ?_, distinct.2⟩
          obtain ⟨builtin, fresh⟩ := free other (by simp [later])
          refine ⟨builtin, fun old => ?_⟩
          rcases List.mem_append.1 old with old | same
          · exact fresh old
          · exact distinct.1 (List.mem_map.2 ⟨other, later, by simpa using same⟩)

/-- Make a check from its requests: at least one, under names of their own. -/
def make (issueClass : IssueClass) (requests : List Request) : Except CheckError Check :=
  match last : requests.getLast? with
  | none => .error (.malformedDocument (.noRequests issueClass.id))
  | some sink =>
      match free : clash? [] requests with
      | some name => .error (.duplicateRequest name)
      | none =>
          have whole : requests.dropLast ++ [sink] = requests := by
            obtain ⟨earlier, rfl⟩ := List.getLast?_eq_some_iff.1 last
            rw [List.dropLast_concat]
          .ok {
            issueClass
            earlier := requests.dropLast
            sink
            distinct := by rw [whole]; exact (clash?_eq_none_iff.1 free).2
            unshadowed := by
              rw [whole]
              exact fun r member => ((clash?_eq_none_iff.1 free).1 r member).1 }

/-- `make` gives exactly the checks there are: a check is what `make` makes of its
class and its requests. -/
theorem make_eq_ok_iff {issueClass : IssueClass} {requests : List Request} {c : Check} :
    make issueClass requests = .ok c ↔ c.issueClass = issueClass ∧ c.requests = requests := by
  constructor
  · intro made
    unfold make at made
    split at made
    · cases made
    · rename_i sink last
      split at made
      · cases made
      · cases made
        obtain ⟨earlier, rfl⟩ := List.getLast?_eq_some_iff.1 last
        exact ⟨rfl, by simp [Check.requests]⟩
  · rintro ⟨rfl, rfl⟩
    have free : clash? [] c.requests = none :=
      clash?_eq_none_iff.2 ⟨fun r member => ⟨c.unshadowed r member, by simp⟩, c.distinct⟩
    unfold make
    split
    · rename_i last
      simp [requests] at last
    · rename_i sink last
      split
      · rename_i name clash
        rw [free] at clash
        cases clash
      · have same : sink = c.sink := by simpa [requests] using last.symm
        subst same
        simp [requests]

end Check

end MapAudit
