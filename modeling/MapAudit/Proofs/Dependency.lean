import MapAudit.Plan
import MapAudit.Proofs.Outcome
import Mathlib.Logic.Relation

/-!
# Dependencies between the relations of a check

A request depends on the relation it reads and on those it is joined with.
`Check.Needs` is that relation between names, `Check.Reaches` its closure, and
`Check.Arranged` says of a list of names that everything a name needs stands
before it.  No arranged list without repetitions holds a name that depends on
itself (`Arranged.not_cyclic`), and an arranged list that holds a name holds
everything the name reaches (`Arranged.mem_of_reaches`).
-/

section Dependency

open Relation (ReflTransGen TransGen)

namespace MapAudit

set_option autoImplicit false

/-- The names a request depends on: what it reads, then what it is joined with. -/
def Request.dependencies (r : Request) : List String :=
  r.source :: r.joins

theorem Request.source_mem_dependencies (r : Request) : r.source ∈ r.dependencies :=
  List.mem_cons_self

theorem Request.mem_dependencies_of_join {r : Request} {join : String} (member : join ∈ r.joins) :
    join ∈ r.dependencies :=
  List.mem_cons_of_mem _ member

namespace Check

/-- The relation `name` is made directly from the relation `other`. -/
def Needs (c : Check) (name other : String) : Prop :=
  ∃ r ∈ c.requests, r.name = name ∧ other ∈ r.dependencies

/-- `other` is `name`, or is met by following sources and joins from it. -/
def Reaches (c : Check) : String → String → Prop :=
  ReflTransGen c.Needs

/-- Following sources and joins from `name` leads back to it. -/
def Cyclic (c : Check) (name : String) : Prop :=
  TransGen c.Needs name name

/-- `name` is a built-in source or the name of a request. -/
def Known (c : Check) (name : String) : Prop :=
  (∃ source : Builtin, source.name = name) ∨ ∃ r ∈ c.requests, r.name = name

variable {c : Check}

/-! ## Looking up names -/

/-- A name leads to the one request that bears it. -/
theorem find?_eq_some_iff {name : String} {r : Request} :
    c.find? name = some r ↔ r ∈ c.requests ∧ r.name = name := by
  constructor
  · exact fun found => ⟨find?_mem found, find?_name found⟩
  · rintro ⟨member, rfl⟩
    exact find?_of_key c.distinct (by simp) member

theorem sink_mem_requests (c : Check) : c.sink ∈ c.requests := by
  simp [requests]

theorem find?_sink (c : Check) : c.find? c.sink.name = some c.sink :=
  find?_eq_some_iff.2 ⟨c.sink_mem_requests, rfl⟩

theorem find?_eq_none_iff {name : String} :
    c.find? name = none ↔ ∀ r ∈ c.requests, r.name ≠ name := by
  simp [find?, List.find?_eq_none]

/-- No request has the name of a built-in source. -/
theorem name_ne_builtin {r : Request} (request : r ∈ c.requests) (source : Builtin) :
    r.name ≠ source.name := by
  intro same
  have free := c.unshadowed r request
  rw [same, Builtin.find?_name] at free
  cases free

theorem builtin_of_find? {name : String} {r : Request} (found : c.find? name = some r) :
    Builtin.find? name = none := by
  rw [← find?_name found]
  exact c.unshadowed r (find?_mem found)

theorem needs_iff {name other : String} {r : Request} (found : c.find? name = some r) :
    c.Needs name other ↔ other ∈ r.dependencies := by
  constructor
  · rintro ⟨r', member, named, depends⟩
    have same := found.symm.trans (find?_eq_some_iff.2 ⟨member, named⟩)
    rwa [Option.some.inj same]
  · exact fun depends => ⟨r, find?_mem found, find?_name found, depends⟩

/-- A built-in source is made from nothing. -/
theorem not_needs_of_builtin {name other : String} {source : Builtin}
    (builtin : Builtin.find? name = some source) : ¬ c.Needs name other := by
  rintro ⟨r, member, rfl, -⟩
  have request := c.unshadowed r member
  rw [builtin] at request
  cases request

theorem known_of_builtin {name : String} {source : Builtin}
    (builtin : Builtin.find? name = some source) : c.Known name :=
  Or.inl ⟨source, Builtin.name_of_find? builtin⟩

theorem known_of_find? {name : String} {r : Request} (found : c.find? name = some r) :
    c.Known name :=
  Or.inr ⟨r, find?_mem found, find?_name found⟩

/-- A name that both look-ups miss is unknown. -/
theorem not_known {name : String} (builtin : Builtin.find? name = none)
    (missing : c.find? name = none) : ¬ c.Known name := by
  rintro (⟨source, rfl⟩ | ⟨r, member, named⟩)
  · simp at builtin
  · exact find?_eq_none_iff.1 missing r member named

/-! ## Reaching -/

theorem Reaches.refl (name : String) : c.Reaches name name :=
  ReflTransGen.refl

theorem Reaches.head {name middle other : String} (needs : c.Needs name middle)
    (reaches : c.Reaches middle other) : c.Reaches name other :=
  ReflTransGen.head needs reaches

theorem Reaches.trans {name middle other : String} (first : c.Reaches name middle)
    (second : c.Reaches middle other) : c.Reaches name other :=
  ReflTransGen.trans first second

/-- A name that is needed and leads back is cyclic. -/
theorem cyclic_of_needs_reaches {name middle : String} (needs : c.Needs name middle)
    (back : c.Reaches middle name) : c.Cyclic name :=
  TransGen.head' needs back

/-- Only a request depends on itself. -/
theorem exists_request_of_cyclic {name : String} (cyclic : c.Cyclic name) :
    ∃ r ∈ c.requests, r.name = name := by
  obtain ⟨_, ⟨r, request, named, -⟩, -⟩ := TransGen.head'_iff.1 cyclic
  exact ⟨r, request, named⟩

/-! ## Arranged lists of names -/

/-- Everything a listed name needs stands before it. -/
def Arranged (c : Check) (names : List String) : Prop :=
  ∀ before name after, names = before ++ name :: after →
    ∀ other, c.Needs name other → other ∈ before

theorem arranged_nil : c.Arranged [] := by
  intro before name after split
  simp at split

/-- A list stays arranged when a name is put after everything the name needs. -/
theorem arranged_append_singleton {names : List String} {last : String} :
    c.Arranged (names ++ [last]) ↔
      c.Arranged names ∧ ∀ other, c.Needs last other → other ∈ names := by
  constructor
  · intro arranged
    refine ⟨fun before name after split => ?_, arranged names last [] rfl⟩
    exact arranged before name (after ++ [last]) (by simp [split])
  · rintro ⟨arranged, ready⟩ before name after split
    rcases List.eq_nil_or_concat after with rfl | ⟨rest, final, rfl⟩
    · obtain ⟨rfl, same⟩ := List.append_inj' split rfl
      simp only [List.cons.injEq, and_true] at same
      exact same ▸ ready
    · have shorter : names = before ++ name :: rest :=
        (List.append_inj' (split.trans (by simp : _ = (before ++ name :: rest) ++ [final])) rfl).1
      exact arranged before name rest shorter

theorem Arranged.mem_of_needs {names : List String} (arranged : c.Arranged names)
    {name other : String} (member : name ∈ names) (needs : c.Needs name other) : other ∈ names := by
  obtain ⟨before, after, rfl⟩ := List.append_of_mem member
  exact List.mem_append_left _ (arranged before name after rfl other needs)

/-- An arranged list holds everything that its names reach. -/
theorem Arranged.mem_of_reaches {names : List String} (arranged : c.Arranged names)
    {name other : String} (member : name ∈ names) (reaches : c.Reaches name other) :
    other ∈ names := by
  induction reaches with
  | refl => exact member
  | tail _ needs ih => exact arranged.mem_of_needs ih needs

/-- Whatever a listed name leads to stands before it. -/
theorem Arranged.before_of_transGen {before after : List String} {name other : String}
    (arranged : c.Arranged (before ++ name :: after)) (leads : TransGen c.Needs name other) :
    other ∈ before := by
  induction leads with
  | single needs => exact arranged before name after rfl _ needs
  | tail _ needs ih =>
      obtain ⟨front, between, rfl⟩ := List.append_of_mem ih
      have earlier := arranged front _ (between ++ name :: after) (by simp) _ needs
      exact List.mem_append_left _ earlier

/-- No name of an arranged list without repetitions depends on itself. -/
theorem Arranged.not_cyclic {names : List String} (arranged : c.Arranged names)
    (distinct : names.Nodup) {name : String} (member : name ∈ names) : ¬ c.Cyclic name := by
  intro cyclic
  obtain ⟨before, after, rfl⟩ := List.append_of_mem member
  have again : name ∈ before := arranged.before_of_transGen cyclic
  exact (List.nodup_append.1 distinct).2.2 name again name (by simp) rfl

end Check

end MapAudit

end Dependency
