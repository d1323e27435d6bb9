import MapAudit.Proofs.Outcome
import MapAudit.Request

/-!
# What the constructors accept

The requests that `Request.make` gives, whatever the predicate it is given: their
names are identifiers, the alias of the source is kept free, and a distance is a
number.
-/

namespace MapAudit

set_option autoImplicit false

theorem checkIdentifier_eq_ok_iff {text : String} {u : Unit} :
    checkIdentifier text = .ok u ↔ Sql.isIdentifier text := by
  unfold checkIdentifier
  split <;> simp_all

theorem checkDistance_eq_ok_iff {text : String} {u : Unit} :
    checkDistance text = .ok u ↔ Sql.isDistance text := by
  unfold checkDistance
  split <;> simp_all

/-- A criterion is known by its predicate. -/
theorem Criterion.of_predicate (criterion : Criterion) : of criterion.predicate = criterion := by
  obtain ⟨predicate, condition, joins, rfl, rfl⟩ := criterion
  rfl

/-- What a request may do: filter by a predicate that keeps the alias of the source free, or
grow by a distance that is a number without blanks around it. -/
def Operation.Accepted : Operation → Prop
  | .filter criterion => sourceAlias ∉ criterion.joins
  | .buffer distance => Sql.isDistance distance ∧ Text.trim distance = distance

instance : (operation : Operation) → Decidable operation.Accepted
  | .filter criterion => inferInstanceAs (Decidable (sourceAlias ∉ criterion.joins))
  | .buffer distance =>
      inferInstanceAs (Decidable (Sql.isDistance distance ∧ Text.trim distance = distance))

namespace Request

theorem makeFilter_eq_ok_iff {name : String} {predicate : Predicate} {operation : Operation} :
    makeFilter name predicate = .ok operation ↔
      sourceAlias ∉ predicate.targets ∧ operation = .filter (.of predicate) := by
  unfold makeFilter
  dsimp only [Criterion.of]
  split <;> simp_all [eq_comm]

theorem makeBuffer_eq_ok_iff {name distance : String} {operation : Operation} :
    makeBuffer name distance = .ok operation ↔
      Sql.isDistance (Text.trim distance) ∧ operation = .buffer (Text.trim distance) := by
  simp only [makeBuffer, bind_eq_ok_iff, mapError_eq_ok_iff, checkDistance_eq_ok_iff]
  constructor
  · rintro ⟨-, number, made⟩
    cases made
    exact ⟨number, rfl⟩
  · rintro ⟨number, rfl⟩
    exact ⟨(), number, rfl⟩

/-- A declaration holds a predicate that keeps the alias of the source free, or a
distance that is a number between blanks. -/
theorem makeOperation_eq_ok_iff {name : String} {predicate : Option Predicate}
    {distance : Option String} {operation : Operation} :
    makeOperation name predicate distance = .ok operation ↔
      (∃ p, predicate = some p ∧ distance = none ∧
        sourceAlias ∉ p.targets ∧ operation = .filter (.of p)) ∨
      ∃ d, predicate = none ∧ distance = some d ∧
        Sql.isDistance (Text.trim d) ∧ operation = .buffer (Text.trim d) := by
  cases predicate <;> cases distance <;>
    simp [makeOperation, makeFilter_eq_ok_iff, makeBuffer_eq_ok_iff]

/-- **A request is accepted** exactly when its names are identifiers, its own is
not the alias of the source, and what it does is accepted. -/
theorem make_eq_ok_iff {name : String} {feature : FeatureKind} {geometry : GeometryKind}
    {source : String} {predicate : Option Predicate} {distance : Option String} {r : Request} :
    make name feature geometry source predicate distance = .ok r ↔
      Sql.isIdentifier name ∧ Sql.isIdentifier source ∧ name ≠ sourceAlias ∧
        ∃ operation, makeOperation name predicate distance = .ok operation ∧
          r = ⟨name, feature, geometry, source, operation⟩ := by
  simp only [make, bind_eq_ok_iff, mapError_eq_ok_iff, checkIdentifier_eq_ok_iff]
  constructor
  · rintro ⟨-, named, -, sourced, made⟩
    split at made
    · cases made
    · rename_i free
      obtain ⟨operation, accepted, done⟩ := bind_eq_ok_iff.1 made
      cases done
      exact ⟨named, sourced, free, operation, accepted, rfl⟩
  · rintro ⟨named, sourced, free, operation, accepted, rfl⟩
    refine ⟨(), named, (), sourced, ?_⟩
    rw [if_neg free]
    exact bind_eq_ok_iff.2 ⟨operation, accepted, rfl⟩

/-- A request that `make` gives, for some predicate or distance. -/
def Made (r : Request) : Prop :=
  ∃ predicate distance, make r.name r.feature r.geometry r.source predicate distance = .ok r

/-- **The requests that are made**, told from their fields. -/
theorem made_iff {r : Request} :
    r.Made ↔ Sql.isIdentifier r.name ∧ Sql.isIdentifier r.source ∧ r.name ≠ sourceAlias ∧
      r.operation.Accepted := by
  obtain ⟨name, feature, geometry, source, operation⟩ := r
  simp only [Made, make_eq_ok_iff]
  constructor
  · rintro ⟨predicate, distance, named, sourced, free, done, accepted, same⟩
    cases same
    refine ⟨named, sourced, free, ?_⟩
    rcases makeOperation_eq_ok_iff.1 accepted with
      ⟨p, -, -, untargeted, rfl⟩ | ⟨d, -, -, number, rfl⟩
    · exact untargeted
    · exact ⟨number, Text.trim_trim d⟩
  · rintro ⟨named, sourced, free, accepted⟩
    cases operation with
    | filter criterion =>
        refine ⟨some criterion.predicate, none, named, sourced, free, .filter criterion, ?_, rfl⟩
        refine makeFilter_eq_ok_iff.2 ⟨?_, by rw [criterion.of_predicate]⟩
        rw [← criterion.joins_eq]
        exact accepted
    | buffer d =>
        obtain ⟨number, trimmed⟩ := accepted
        refine ⟨none, some d, named, sourced, free, .buffer d, ?_, rfl⟩
        refine makeBuffer_eq_ok_iff.2 ⟨?_, ?_⟩
        · rwa [trimmed]
        · rw [trimmed]

instance (r : Request) : Decidable r.Made :=
  decidable_of_iff _ made_iff.symm

theorem Made.isIdentifier_name {r : Request} (made : r.Made) : Sql.isIdentifier r.name :=
  (made_iff.1 made).1

theorem Made.isIdentifier_source {r : Request} (made : r.Made) : Sql.isIdentifier r.source :=
  (made_iff.1 made).2.1

theorem Made.name_ne_sourceAlias {r : Request} (made : r.Made) : r.name ≠ sourceAlias :=
  (made_iff.1 made).2.2.1

theorem Made.accepted {r : Request} (made : r.Made) : r.operation.Accepted :=
  (made_iff.1 made).2.2.2

theorem Made.isDistance {r : Request} (made : r.Made) {distance : String}
    (buffer : r.operation = .buffer distance) : Sql.isDistance distance := by
  have accepted : r.operation.Accepted := made.accepted
  rw [buffer] at accepted
  exact accepted.1

end Request

end MapAudit
