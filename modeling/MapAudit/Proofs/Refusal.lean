import MapAudit.Proofs.Effect
import Mathlib.Data.List.Chain

/-!
# What a refused plan tells

A check without a plan is refused for a cycle or for an unknown name, and what the refusal
says of it is true.  While it resolves a name, the path is a walk from the sink through
distinct requests, whatever branches have been finished before (`Walk`).  So the chain that
a cycle shows is such a walk, which comes back to one of its requests (`Circuit`).  An
unknown name is met by the request that refers to it, and the requests above leave the
refusal as that one has located it (`Refused.within`).
-/

namespace MapAudit

set_option autoImplicit false

/-! ## The text of a chain -/

namespace Text

theorem joinWith_ne_empty (separator : String) {first : String} (filled : first ≠ "")
    (rest : List String) : joinWith separator (first :: rest) ≠ "" := by
  cases rest with
  | nil => exact filled
  | cons next rest =>
      rw [joinWith_cons_cons]
      intro empty
      rw [String.append_eq_empty_iff, String.append_eq_empty_iff] at empty
      exact filled empty.1.1

theorem joinWith_concat (separator first last : String) (rest : List String) :
    joinWith separator (first :: rest ++ [last]) =
      joinWith separator (first :: rest) ++ separator ++ last := by
  induction rest generalizing first with
  | nil => rfl
  | cons next rest ih =>
      rw [joinWith_cons_cons, List.cons_append, List.cons_append, joinWith_cons_cons,
        ← List.cons_append, ih]
      simp only [String.append_assoc]

end Text

/-- A chain that begins with a name shows the path and the repeated name alike. -/
theorem CheckError.chain_cons {first : String} (filled : first ≠ "") (rest : List String)
    (repeated : String) :
    chain (first :: rest) repeated = Text.joinWith " -> " (first :: rest ++ [repeated]) := by
  rw [chain, Text.joinWith_concat]
  exact if_neg (Text.joinWith_ne_empty " -> " filled rest)

namespace Check

variable {c : Check} {path : List String} {name : String}

/-! ## Walks from the sink -/

/-- The path leads from the sink to a name: it goes through distinct requests, each of
which needs the next. -/
structure Walk (c : Check) (path : List String) (name : String) : Prop where
  begins : (path ++ [name]).head? = some c.sink.name
  distinct : path.Nodup
  declared : ∀ above ∈ path, ∃ r ∈ c.requests, r.name = above
  linked : (path ++ [name]).IsChain c.Needs

theorem walk_sink (c : Check) : c.Walk [] c.sink.name where
  begins := rfl
  distinct := List.nodup_nil
  declared := by simp
  linked := List.isChain_singleton _

/-- A walk goes on from a request to what the request depends on. -/
theorem Walk.next (walk : c.Walk path name) {r : Request} (found : c.find? name = some r)
    (fresh : name ∉ path) {other : String} (depends : other ∈ r.dependencies) :
    c.Walk (path ++ [name]) other where
  begins := by
    rw [List.head?_append, walk.begins, Option.some_or]
  distinct := List.nodup_append.2 ⟨walk.distinct, List.nodup_singleton name, by
    intro above onPath last same
    rw [List.mem_singleton] at same
    rintro rfl
    exact fresh (same ▸ onPath)⟩
  declared above member := by
    rcases List.mem_append.1 member with onPath | last
    · exact walk.declared above onPath
    · rw [List.mem_singleton] at last
      exact ⟨r, find?_mem found, last ▸ find?_name found⟩
  linked := by
    have needs : c.Needs name other := (needs_iff found).2 depends
    refine List.isChain_append.2 ⟨walk.linked, List.isChain_singleton other, ?_⟩
    simpa using needs

/-- A walk from the sink through distinct requests that comes back to one of them. -/
structure Circuit (c : Check) (path : List String) (repeated : String) : Prop where
  begins : path.head? = some c.sink.name
  distinct : path.Nodup
  declared : ∀ name ∈ path, ∃ r ∈ c.requests, r.name = name
  linked : (path ++ [repeated]).IsChain c.Needs
  closes : repeated ∈ path

theorem Walk.circuit (walk : c.Walk path name) (again : name ∈ path) : c.Circuit path name where
  begins := by
    have begins := walk.begins
    cases path with
    | nil => cases again
    | cons first rest => exact begins
  distinct := walk.distinct
  declared := walk.declared
  linked := walk.linked
  closes := again

/-! ## Why a name has no plan -/

/-- Why a name has no plan: following dependencies comes to a circuit, the name is unknown,
or a request that is reached from it refers to an unknown name. -/
inductive Refused (c : Check) (name : String) : CheckError → Prop where
  | circuit {path : List String} {repeated : String} (circuit : c.Circuit path repeated) :
      Refused c name (.cyclicDependency path repeated)
  | unknown (unknown : ¬ c.Known name) : Refused c name (.unknownReference name)
  | refers {r : Request} {other : String} (request : r ∈ c.requests)
      (reached : c.Reaches name r.name) (depends : other ∈ r.dependencies)
      (unknown : ¬ c.Known other) : Refused c name ⟨.unknownReference other, some r.name⟩

/-- **One step**: a request is refused as what it depends on is, and an unknown name is
located where it is referred to. -/
theorem Refused.within {r : Request} {other : String} {e : CheckError}
    (found : c.find? name = some r) (depends : other ∈ r.dependencies)
    (refused : c.Refused other e) : c.Refused name (e.within r.name) := by
  have needs : c.Needs name other := (needs_iff found).2 depends
  cases refused with
  | circuit circuit => exact .circuit circuit
  | unknown unknown =>
      have here : c.Reaches name r.name := find?_name found ▸ Reaches.refl _
      exact .refers (find?_mem found) here depends unknown
  | refers request reached refers unknown =>
      exact .refers request (Reaches.head needs reached) refers unknown

/-- **Every refusal is true** of a name that is met along a walk from the sink. -/
theorem refused_of_resolve {e : CheckError} (walk : c.Walk path name)
    (refusal : c.resolve path name = .error e) : c.Refused name e := by
  -- Along the path: what refuses a dependency is found along a walk that is longer.
  induction path, name using path_induction (c := c) generalizing e with
  | step path name ih =>
      cases builtin : Builtin.find? name with
      | some source =>
          rw [resolve_builtin builtin] at refusal
          cases refusal
      | none =>
          cases found : c.find? name with
          | none =>
              rw [resolve_unknown builtin found] at refusal
              cases refusal
              exact .unknown (not_known builtin found)
          | some r =>
              by_cases again : name ∈ path
              · rw [resolve_repeated found again] at refusal
                cases refusal
                exact .circuit (walk.circuit again)
              · obtain ⟨other, depends, inner, cause, rfl⟩ := resolve_eq_error found again refusal
                have below : c.Refused other inner :=
                  ih r found again other (walk.next found again depends) cause
                exact below.within found depends

/-- The message of a circuit shows all of its names. -/
theorem Circuit.message (made : ∀ r ∈ c.requests, r.Made) {repeated : String}
    (circuit : c.Circuit path repeated) :
    (CheckError.cyclicDependency path repeated).message =
      "Dependency cycle: " ++ Text.joinWith " -> " (path ++ [repeated]) := by
  obtain ⟨rest, rfl⟩ := List.head?_eq_some_iff.1 circuit.begins
  have filled : c.sink.name ≠ "" :=
    Sql.ne_empty_of_isIdentifier (made c.sink c.sink_mem_requests).isIdentifier_name
  change "Dependency cycle: " ++ CheckError.chain (c.sink.name :: rest) repeated = _
  rw [CheckError.chain_cons filled]

/-- **What the refusal of a check says is true.**  A cycle is shown as a walk from the sink
through distinct requests, each made from the next, that comes back to the one the refusal
concerns.  An unknown name is neither built in nor declared, and the request that the
refusal concerns is reached from the sink and refers to the name itself.  There is no other
refusal. -/
theorem refusals_of_plan_are_true (made : ∀ r ∈ c.requests, r.Made) {e : CheckError}
    (refusal : c.plan = .error e) :
    (e.code = "GEOCHECK_CYCLIC_DEPENDENCY" ∧ ∃ path repeated,
      e.message = "Dependency cycle: " ++ Text.joinWith " -> " (path ++ [repeated]) ∧
        e.request = some repeated ∧ c.Circuit path repeated) ∨
    (e.code = "GEOCHECK_UNKNOWN_STAGE_REFERENCE" ∧ ∃ other, ∃ r ∈ c.requests,
      e.message = "'" ++ other ++ "' is neither a built-in source nor a declared request" ∧
        e.request = some r.name ∧ c.Reaches c.sink.name r.name ∧ other ∈ r.dependencies ∧
        ¬ c.Known other) := by
  have refused : c.Refused c.sink.name e := refused_of_resolve c.walk_sink refusal
  cases refused with
  | circuit circuit => exact Or.inl ⟨rfl, _, _, circuit.message made, rfl, circuit⟩
  | unknown unknown => exact absurd (Or.inr ⟨c.sink, by simp [requests], rfl⟩) unknown
  | refers request reached depends unknown =>
      exact Or.inr ⟨rfl, _, _, request, rfl, rfl, reached, depends, unknown⟩

namespace Example

/-- The zone is finished when the request that is joined with it comes back to the sink. -/
def circular : Check where
  issueClass := ⟨"44", "9004", "2", "Named node around itself"⟩
  earlier := [
    nodeFilter "zone" "ways_bbox" (.hasTag "landuse"),
    nodeFilter "inside" "nodes" (.all [.intersects "zone", .intersects "named"])]
  sink := nodeFilter "named" "inside" (.hasTag "name")
  distinct := by decide
  unshadowed := by decide

def circularRefusal : CheckError := .cyclicDependency ["named", "inside"] "named"

/-- The zone is finished when the request that is joined with it refers to nothing. -/
def lost : Check where
  issueClass := ⟨"45", "9004", "3", "Named node inside of nothing"⟩
  earlier := [
    nodeFilter "zone" "ways_bbox" (.hasTag "landuse"),
    nodeFilter "inside" "nodes" (.all [.intersects "zone", .intersects "nowhere"])]
  sink := nodeFilter "named" "inside" (.hasTag "name")
  distinct := by decide
  unshadowed := by decide

def lostRefusal : CheckError := ⟨.unknownReference "nowhere", some "inside"⟩

end Example

theorem circular_and_lost_refusals_are_true :
    ((∀ r ∈ Example.circular.requests, r.Made) ∧
      Example.circular.plan = .error Example.circularRefusal ∧
      ∃ path repeated,
        Example.circularRefusal.message =
            "Dependency cycle: " ++ Text.joinWith " -> " (path ++ [repeated]) ∧
          Example.circularRefusal.request = some repeated ∧
          Example.circular.Circuit path repeated) ∧
    (∀ r ∈ Example.lost.requests, r.Made) ∧
      Example.lost.plan = .error Example.lostRefusal ∧
      ∃ other, ∃ r ∈ Example.lost.requests,
        Example.lostRefusal.message =
            "'" ++ other ++ "' is neither a built-in source nor a declared request" ∧
          Example.lostRefusal.request = some r.name ∧
          Example.lost.Reaches Example.lost.sink.name r.name ∧ other ∈ r.dependencies ∧
          ¬ Example.lost.Known other := by
  have circularMade : ∀ r ∈ Example.circular.requests, r.Made := by decide
  have circularRefused : Example.circular.plan = .error Example.circularRefusal := by
    decide +kernel
  have lostMade : ∀ r ∈ Example.lost.requests, r.Made := by decide
  have lostRefused : Example.lost.plan = .error Example.lostRefusal := by decide +kernel
  refine ⟨⟨circularMade, circularRefused, ?_⟩, lostMade, lostRefused, ?_⟩
  · rcases refusals_of_plan_are_true circularMade circularRefused with
      ⟨-, cycle⟩ | ⟨unknown, -⟩
    · exact cycle
    · exact absurd unknown (by decide)
  · rcases refusals_of_plan_are_true lostMade lostRefused with ⟨cyclic, -⟩ | ⟨-, reference⟩
    · exact absurd cyclic (by decide)
    · exact reference

end Check

end MapAudit
