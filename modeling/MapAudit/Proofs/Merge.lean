import MapAudit.Proofs.Dependency
import Mathlib.Data.List.Induction

/-!
# Merging plans by name

`Plan.merge` keeps the first plan as it is and puts behind it, in their order, the
relations of the second whose names are not there yet.  It is associative
(`merge_assoc`), adds nothing where every name is there (`merge_of_covered`), and
keeps plans free of repetitions and arranged.
-/

namespace MapAudit

set_option autoImplicit false

@[simp] theorem Builtin.name_relation (source : Builtin) : source.relation.name = source.name := rfl

@[simp] theorem Request.name_relation (r : Request) (source : Relation) :
    (r.relation source).name = r.name := rfl

namespace Plan

def names (plan : Plan) : List String :=
  plan.map (·.name)

@[simp] theorem names_nil : names [] = [] := rfl

@[simp] theorem names_cons (e : Relation) (plan : Plan) :
    names (e :: plan) = e.name :: plan.names :=
  rfl

@[simp] theorem names_append (plan other : Plan) :
    names (plan ++ other) = plan.names ++ other.names :=
  List.map_append

@[simp] theorem names_singleton (e : Relation) : names [e] = [e.name] := rfl

theorem mem_names_of_mem {plan : Plan} {e : Relation} (member : e ∈ plan) : e.name ∈ plan.names :=
  List.mem_map_of_mem member

theorem makes_iff {plan : Plan} {name : String} : plan.makes name ↔ name ∈ plan.names := by
  simp [makes, names]

/-! ## Adding one relation -/

theorem add_of_mem {plan : Plan} {e : Relation} (there : e.name ∈ plan.names) :
    plan.add e = plan := by
  rw [add, if_pos (makes_iff.2 there)]

theorem add_of_not_mem {plan : Plan} {e : Relation} (absent : e.name ∉ plan.names) :
    plan.add e = plan ++ [e] := by
  rw [add, if_neg (fun makes => absent (makes_iff.1 makes))]

theorem mem_names_add {plan : Plan} {e : Relation} {name : String} :
    name ∈ (plan.add e).names ↔ name ∈ plan.names ∨ name = e.name := by
  by_cases there : e.name ∈ plan.names
  · rw [add_of_mem there]
    refine ⟨Or.inl, ?_⟩
    rintro (old | rfl)
    · exact old
    · exact there
  · simp [add_of_not_mem there]

/-! ## Merging -/

@[simp] theorem merge_nil (plan : Plan) : plan.merge [] = plan := rfl

@[simp] theorem merge_append_singleton (plan other : Plan) (e : Relation) :
    plan.merge (other ++ [e]) = (plan.merge other).add e := by
  simp [merge, List.foldl_append]

/-- Two plans together make what either makes. -/
theorem mem_names_merge {plan other : Plan} {name : String} :
    name ∈ (plan.merge other).names ↔ name ∈ plan.names ∨ name ∈ other.names := by
  induction other using List.reverseRecOn with
  | nil => simp
  | append_singleton other e ih =>
      rw [merge_append_singleton, mem_names_add, ih]
      simp [or_assoc]

/-- The first plan stays in front. -/
theorem prefix_merge (plan other : Plan) : plan <+: plan.merge other := by
  induction other using List.reverseRecOn with
  | nil => exact List.prefix_rfl
  | append_singleton other e ih =>
      rw [merge_append_singleton]
      by_cases there : e.name ∈ (plan.merge other).names
      · rwa [add_of_mem there]
      · rw [add_of_not_mem there]
        exact ih.trans (List.prefix_append _ _)

theorem mem_merge_left {plan other : Plan} {e : Relation} (member : e ∈ plan) :
    e ∈ plan.merge other :=
  (prefix_merge plan other).subset member

theorem mem_of_mem_merge {plan other : Plan} {e : Relation} (member : e ∈ plan.merge other) :
    e ∈ plan ∨ e ∈ other := by
  induction other using List.reverseRecOn with
  | nil => exact Or.inl member
  | append_singleton other last ih =>
      rw [merge_append_singleton] at member
      by_cases there : last.name ∈ (plan.merge other).names
      · rw [add_of_mem there] at member
        exact (ih member).imp_right (List.mem_append_left _)
      · rw [add_of_not_mem there] at member
        rcases List.mem_append.1 member with old | new
        · exact (ih old).imp_right (List.mem_append_left _)
        · exact Or.inr (List.mem_append_right _ new)

/-- Merging what is there adds nothing. -/
theorem merge_of_covered {plan other : Plan} (covered : ∀ name ∈ other.names, name ∈ plan.names) :
    plan.merge other = plan := by
  induction other using List.reverseRecOn with
  | nil => rfl
  | append_singleton other e ih =>
      simp only [names_append, names_singleton, List.mem_append] at covered
      rw [merge_append_singleton, ih fun name member => covered name (Or.inl member)]
      exact add_of_mem (covered e.name (Or.inr (by simp)))

/-- A plan without repetitions is what merging it from nothing gives. -/
theorem nil_merge {plan : Plan} (distinct : plan.names.Nodup) : merge [] plan = plan := by
  induction plan using List.reverseRecOn with
  | nil => rfl
  | append_singleton plan e ih =>
      rw [names_append, List.nodup_append] at distinct
      rw [merge_append_singleton, ih distinct.1]
      exact add_of_not_mem fun there => distinct.2.2 e.name there e.name (by simp) rfl

/-- It makes no difference whether later plans are merged first. -/
theorem merge_assoc (plan other third : Plan) :
    (plan.merge other).merge third = plan.merge (other.merge third) := by
  induction third using List.reverseRecOn with
  | nil => rfl
  | append_singleton third e ih =>
      rw [merge_append_singleton, merge_append_singleton, ih]
      by_cases there : e.name ∈ (other.merge third).names
      · rw [add_of_mem there, add_of_mem (mem_names_merge.2 (Or.inr there))]
      · rw [add_of_not_mem there, merge_append_singleton]

/-- A plan that makes each relation once still does when it is merged with another. -/
theorem nodup_names_merge {plan other : Plan} (distinct : plan.names.Nodup) :
    (plan.merge other).names.Nodup := by
  induction other using List.reverseRecOn with
  | nil => exact distinct
  | append_singleton other e ih =>
      rw [merge_append_singleton]
      by_cases there : e.name ∈ (plan.merge other).names
      · rwa [add_of_mem there]
      · rw [add_of_not_mem there, names_append, names_singleton]
        exact List.nodup_append.2 ⟨ih, by simp, fun name old last same => by
          rw [List.mem_singleton] at same
          rintro rfl
          exact there (same ▸ old)⟩

/-- Plans in which everything stands after what it needs merge into such a plan. -/
theorem arranged_names_merge {c : Check} {plan other : Plan} (first : c.Arranged plan.names)
    (second : c.Arranged other.names) : c.Arranged (plan.merge other).names := by
  induction other using List.reverseRecOn with
  | nil => exact first
  | append_singleton other e ih =>
      rw [names_append, names_singleton, Check.arranged_append_singleton] at second
      obtain ⟨second, ready⟩ := second
      rw [merge_append_singleton]
      by_cases there : e.name ∈ (plan.merge other).names
      · rw [add_of_mem there]
        exact ih second
      · rw [add_of_not_mem there, names_append, names_singleton, Check.arranged_append_singleton]
        exact ⟨ih second, fun name needs => mem_names_merge.2 (Or.inr (ready name needs))⟩

end Plan

end MapAudit
