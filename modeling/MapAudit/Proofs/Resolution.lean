import MapAudit.Proofs.Merge
import MapAudit.Proofs.Outcome

/-!
# What a plan is, and when there is one

`Check.resolve` makes a plan for every name it meets and merges the plans of the
joins into that of the source.  `Joined` is its loop over the joins as a relation,
and `resolve_eq_ok_iff` says once what a plan of a request is made of; the rest
of the theory cites that and never opens the function.

* A plan has every name once, everything stands after what it is made from, it
  ends in the name it was made for, and it holds exactly the names reached from
  there (`sound_of_resolve`).
* There is a plan exactly when every name that is reached is known, no request
  that is reached depends on itself, and none is on the path
  (`exists_resolve_iff`).
-/

namespace MapAudit

set_option autoImplicit false

namespace Check

variable {c : Check}

/-! ## One step -/

/-- To show something of every name met along every path, it may be assumed along
the paths that are longer by a request not yet on them. -/
theorem path_induction {motive : List String → String → Prop}
    (step : ∀ path name,
      (∀ r, c.find? name = some r → name ∉ path → ∀ other, motive (path ++ [name]) other) →
        motive path name)
    (path : List String) (name : String) : motive path name := by
  induction left : (c.offPath path).length using Nat.strongRecOn
    generalizing path name with
  | _ n ih =>
      subst left
      refine step path name fun r found fresh other => ?_
      exact ih _ (length_offPath_lt found fresh) (path ++ [name]) other rfl

theorem resolve_builtin {path : List String} {name : String} {source : Builtin}
    (builtin : Builtin.find? name = some source) : c.resolve path name = .ok [source.relation] := by
  rw [resolve, builtin]

theorem resolve_unknown {path : List String} {name : String}
    (builtin : Builtin.find? name = none) (missing : c.find? name = none) :
    c.resolve path name = .error (.unknownReference name) := by
  rw [resolve, builtin]
  dsimp only
  split
  · rfl
  · rename_i r found
    rw [missing] at found
    cases found

theorem resolve_repeated {path : List String} {name : String} {r : Request}
    (found : c.find? name = some r) (again : name ∈ path) :
    c.resolve path name = .error (.cyclicDependency path name) := by
  rw [resolve, builtin_of_find? found]
  dsimp only
  split
  · rename_i missing
    rw [found] at missing
    cases missing
  · rw [dif_pos again]

/-- Join one more relation to a plan: its own plan is merged in, unless the plan
makes it already. -/
def attach (c : Check) (path : List String) (owner : String) (plan : Plan) (join : String) :
    Except CheckError Plan :=
  if plan.makes join then pure plan
  else do
    let other ← CheckError.locate owner (c.resolve path join)
    return plan.merge other

/-- A request off the path is planned from its source and its joins, and stands last. -/
theorem resolve_request {path : List String} {name : String} {r : Request}
    (found : c.find? name = some r) (fresh : name ∉ path) :
    c.resolve path name = (do
      let below ← CheckError.locate r.name (c.resolve (path ++ [name]) r.source)
      match below.getLast? with
      | none => throw (.unknownReference r.source)
      | some source => do
          let joined ← r.joins.foldlM (c.attach (path ++ [name]) r.name) below
          return joined ++ [r.relation source]) := by
  rw [resolve, builtin_of_find? found]
  dsimp only
  split
  · rename_i missing
    rw [found] at missing
    cases missing
  · rename_i r' found'
    cases found.symm.trans found'
    rw [dif_neg fresh]
    rfl

/-! ## The loop over the joins -/

/-- `result` is `plan` with the plans of the joins merged in, each unless its join
is there when its turn comes. -/
inductive Joined (c : Check) (path : List String) : Plan → List String → Plan → Prop
  | nil (plan : Plan) : Joined c path plan [] plan
  | present {plan result : Plan} {join : String} {joins : List String}
      (there : join ∈ plan.names) (rest : Joined c path plan joins result) :
      Joined c path plan (join :: joins) result
  | absent {plan other result : Plan} {join : String} {joins : List String}
      (missing : join ∉ plan.names) (resolved : c.resolve path join = .ok other)
      (rest : Joined c path (plan.merge other) joins result) :
      Joined c path plan (join :: joins) result

theorem attach_present {path : List String} {owner : String} {plan : Plan} {join : String}
    (there : join ∈ plan.names) : c.attach path owner plan join = .ok plan := by
  rw [attach, if_pos (Plan.makes_iff.2 there)]
  rfl

theorem attach_absent {path : List String} {owner : String} {plan : Plan} {join : String}
    (missing : join ∉ plan.names) :
    c.attach path owner plan join =
      (CheckError.locate owner (c.resolve path join)).map plan.merge := by
  rw [attach, if_neg (fun makes => missing (Plan.makes_iff.1 makes))]
  cases c.resolve path join <;> rfl

/-- The loop over the joins succeeds with what `Joined` describes. -/
theorem foldlM_attach_eq_ok_iff {path : List String} {owner : String} {joins : List String}
    {plan result : Plan} :
    joins.foldlM (c.attach path owner) plan = .ok result ↔ Joined c path plan joins result := by
  induction joins generalizing plan with
  | nil =>
      constructor
      · intro finished
        cases finished
        exact .nil _
      · intro joined
        cases joined
        rfl
  | cons join joins ih =>
      rw [List.foldlM_cons]
      by_cases there : join ∈ plan.names
      · rw [attach_present there]
        constructor
        · exact fun folded => .present there (ih.1 folded)
        · intro joined
          cases joined with
          | present _ rest => exact ih.2 rest
          | absent missing _ _ => exact absurd there missing
      · rw [attach_absent there]
        cases resolved : c.resolve path join with
        | error e =>
            constructor
            · intro folded
              cases folded
            · intro joined
              cases joined with
              | present again _ => exact absurd again there
              | absent _ success _ =>
                  rw [resolved] at success
                  cases success
        | ok other =>
            constructor
            · exact fun folded => .absent there resolved (ih.1 folded)
            · intro joined
              cases joined with
              | present again _ => exact absurd again there
              | absent _ success rest =>
                  cases resolved.symm.trans success
                  exact ih.2 rest

/-- **What the plan of a request is made of**: the plan of its source, the plans of
its joins merged in, and the request itself. -/
theorem resolve_eq_ok_iff {path : List String} {name : String} {r : Request} {plan : Plan}
    (found : c.find? name = some r) (fresh : name ∉ path) :
    c.resolve path name = .ok plan ↔ ∃ below source joined,
      c.resolve (path ++ [name]) r.source = .ok below ∧ below.getLast? = some source ∧
        Joined c (path ++ [name]) below r.joins joined ∧ plan = joined ++ [r.relation source] := by
  rw [resolve_request found fresh, bind_eq_ok_iff]
  constructor
  · rintro ⟨below, resolved, rest⟩
    rw [CheckError.locate_eq_ok_iff] at resolved
    cases last : below.getLast? with
    | none => simp [last, throw, throwThe, MonadExceptOf.throw] at rest
    | some source =>
        rw [last] at rest
        obtain ⟨joined, folded, finished⟩ := bind_eq_ok_iff.1 rest
        cases finished
        exact ⟨below, source, joined, resolved, last, foldlM_attach_eq_ok_iff.1 folded, rfl⟩
  · rintro ⟨below, source, joined, resolved, last, folded, rfl⟩
    refine ⟨below, CheckError.locate_eq_ok_iff.2 resolved, ?_⟩
    rw [last]
    exact bind_eq_ok_iff.2 ⟨joined, foldlM_attach_eq_ok_iff.2 folded, rfl⟩

/-- A name with a plan is a built-in source, or a request that is not on the path. -/
theorem resolve_cases {path : List String} {name : String} {plan : Plan}
    (resolved : c.resolve path name = .ok plan) :
    (∃ source, Builtin.find? name = some source ∧ plan = [source.relation]) ∨
      ∃ r, c.find? name = some r ∧ name ∉ path := by
  cases builtin : Builtin.find? name with
  | some source =>
      rw [resolve_builtin builtin] at resolved
      cases resolved
      exact Or.inl ⟨source, rfl, rfl⟩
  | none =>
      cases found : c.find? name with
      | none =>
          rw [resolve_unknown builtin found] at resolved
          cases resolved
      | some r =>
          refine Or.inr ⟨r, rfl, fun again => ?_⟩
          rw [resolve_repeated found again] at resolved
          cases resolved

/-! ## What a plan has -/

/-- The plan of a name ends in it. -/
theorem getLast?_names_of_resolve {path : List String} {name : String} {plan : Plan}
    (resolved : c.resolve path name = .ok plan) : plan.names.getLast? = some name := by
  rcases resolve_cases resolved with ⟨source, builtin, rfl⟩ | ⟨r, found, fresh⟩
  · simp [Builtin.name_of_find? builtin]
  · obtain ⟨below, source, joined, -, -, -, rfl⟩ := (resolve_eq_ok_iff found fresh).1 resolved
    simp [find?_name found]

/-- So it is not empty. -/
theorem exists_last_of_resolve {path : List String} {name : String} {plan : Plan}
    (resolved : c.resolve path name = .ok plan) :
    ∃ e, plan.getLast? = some e ∧ e.name = name := by
  have last := getLast?_names_of_resolve resolved
  rw [Plan.names, List.getLast?_map, Option.map_eq_some_iff] at last
  exact last

theorem mem_names_of_resolve {path : List String} {name : String} {plan : Plan}
    (resolved : c.resolve path name = .ok plan) : name ∈ plan.names :=
  List.mem_of_getLast? (getLast?_names_of_resolve resolved)

theorem Joined.begins {path joins : List String} {plan result : Plan}
    (joined : Joined c path plan joins result) : plan <+: result := by
  induction joined with
  | nil plan => exact List.prefix_rfl
  | present _ _ ih => exact ih
  | absent _ _ _ ih => exact (Plan.prefix_merge _ _).trans ih

theorem Joined.mem_names_left {path joins : List String} {plan result : Plan}
    (joined : Joined c path plan joins result) {name : String} (member : name ∈ plan.names) :
    name ∈ result.names :=
  (joined.begins.map (·.name)).subset member

/-- Every join is there in the end. -/
theorem Joined.mem_names {path joins : List String} {plan result : Plan}
    (joined : Joined c path plan joins result) {join : String} (member : join ∈ joins) :
    join ∈ result.names := by
  induction joined with
  | nil plan => cases member
  | present there rest ih =>
      rcases List.mem_cons.1 member with rfl | later
      · exact rest.mem_names_left there
      · exact ih later
  | absent _ resolved rest ih =>
      rcases List.mem_cons.1 member with rfl | later
      · exact rest.mem_names_left
          (Plan.mem_names_merge.2 (Or.inr (mem_names_of_resolve resolved)))
      · exact ih later

/-- What merging keeps, and holds of the plans of the joins, holds in the end. -/
theorem Joined.keeps {path joins : List String} {plan result : Plan} {holds : Plan → Prop}
    (joined : Joined c path plan joins result)
    (merges : ∀ {plan other}, holds plan → holds other → holds (plan.merge other))
    (start : holds plan)
    (each : ∀ join ∈ joins, ∀ other, c.resolve path join = .ok other → holds other) :
    holds result := by
  induction joined with
  | nil plan => exact start
  | present _ _ ih =>
      apply ih start
      intro join member
      exact each join (List.mem_cons_of_mem _ member)
  | absent _ resolved _ ih =>
      apply ih (merges start (each _ (by simp) _ resolved))
      intro join member
      exact each join (List.mem_cons_of_mem _ member)

/-- What holds of a plan that is made for `root` along `path`, finished or not. -/
structure Sound (c : Check) (path : List String) (root : String) (plan : Plan) : Prop where
  distinct : plan.names.Nodup
  arranged : c.Arranged plan.names
  reached : ∀ name ∈ plan.names, c.Reaches root name
  known : ∀ name ∈ plan.names, c.Known name
  offPath : ∀ r ∈ c.requests, r.name ∈ plan.names → r.name ∉ path

theorem Sound.of_reaches {path : List String} {root start : String} {plan : Plan}
    (sound : c.Sound path root plan) (reaches : c.Reaches start root) :
    c.Sound path start plan where
  distinct := sound.distinct
  arranged := sound.arranged
  reached name member := reaches.trans (sound.reached name member)
  known := sound.known
  offPath := sound.offPath

/-- Two sound plans together are sound. -/
theorem Sound.merge {path : List String} {root : String} {plan other : Plan}
    (first : c.Sound path root plan) (second : c.Sound path root other) :
    c.Sound path root (plan.merge other) where
  distinct := Plan.nodup_names_merge first.distinct
  arranged := Plan.arranged_names_merge first.arranged second.arranged
  reached name member :=
    (Plan.mem_names_merge.1 member).elim (first.reached name) (second.reached name)
  known name member := (Plan.mem_names_merge.1 member).elim (first.known name) (second.known name)
  offPath r request member :=
    (Plan.mem_names_merge.1 member).elim (first.offPath r request) (second.offPath r request)

/-- A plan of everything a request is made from becomes a plan of the request. -/
theorem Sound.append_request {path : List String} {name : String} {r : Request} {plan : Plan}
    (sound : c.Sound (path ++ [name]) name plan) (found : c.find? name = some r)
    (fresh : name ∉ path) (ready : ∀ other ∈ r.dependencies, other ∈ plan.names)
    (source : Relation) : c.Sound path name (plan ++ [r.relation source]) := by
  have named : (r.relation source).name = name := find?_name found
  have absent : name ∉ plan.names := fun member =>
    sound.offPath r (find?_mem found) (find?_name found ▸ member) (by simp [find?_name found])
  constructor <;> rw [Plan.names_append, Plan.names_singleton, named]
  · refine List.nodup_append.2 ⟨sound.distinct, by simp, fun other member last same => ?_⟩
    rw [List.mem_singleton] at same
    rintro rfl
    exact absent (same ▸ member)
  · exact arranged_append_singleton.2
      ⟨sound.arranged, fun other needs => ready other ((needs_iff found).1 needs)⟩
  · intro other member
    rcases List.mem_append.1 member with old | last
    · exact sound.reached other old
    · exact List.mem_singleton.1 last ▸ Reaches.refl _
  · intro other member
    rcases List.mem_append.1 member with old | last
    · exact sound.known other old
    · exact List.mem_singleton.1 last ▸ known_of_find? found
  · intro other request member
    rcases List.mem_append.1 member with old | last
    · exact fun onPath => sound.offPath other request old (List.mem_append_left _ onPath)
    · exact List.mem_singleton.1 last ▸ fresh

/-- **Every plan is sound**: by induction along the path, since the plans it is
merged from are made along a longer one. -/
theorem sound_of_resolve {path : List String} {name : String} {plan : Plan}
    (resolved : c.resolve path name = .ok plan) : c.Sound path name plan := by
  induction path, name using path_induction (c := c) generalizing plan with
  | _ path name ih =>
      rcases resolve_cases resolved with ⟨source, builtin, rfl⟩ | ⟨r, found, fresh⟩
      · have single : Plan.names [source.relation] = [name] := by
          simp [Builtin.name_of_find? builtin]
        constructor <;> rw [single]
        · simp
        · exact arranged_append_singleton.2
            ⟨arranged_nil, fun other needs => absurd needs (not_needs_of_builtin builtin)⟩
        · exact fun other member => List.mem_singleton.1 member ▸ Reaches.refl _
        · exact fun other member => List.mem_singleton.1 member ▸ known_of_builtin builtin
        · intro r request member
          have shadowed := c.unshadowed r request
          rw [List.mem_singleton.1 member, builtin] at shadowed
          cases shadowed
      · obtain ⟨below, source, joined, first, -, joins, rfl⟩ :=
          (resolve_eq_ok_iff found fresh).1 resolved
        have needed : ∀ other ∈ r.dependencies, c.Reaches name other := fun other member =>
          Reaches.head ((needs_iff found).2 member) (Reaches.refl other)
        have start : c.Sound (path ++ [name]) name below :=
          (ih r found fresh r.source first).of_reaches (needed r.source r.source_mem_dependencies)
        have whole : c.Sound (path ++ [name]) name joined := joins.keeps Sound.merge start
          fun join member other success => (ih r found fresh join success).of_reaches
            (needed join (Request.mem_dependencies_of_join member))
        refine whole.append_request found fresh (fun other member => ?_) source
        rcases List.mem_cons.1 member with rfl | join
        · exact joins.mem_names_left (mem_names_of_resolve first)
        · exact joins.mem_names join

/-- A plan holds exactly the names reached from the one it is made for. -/
theorem mem_names_iff_reaches {path : List String} {name other : String} {plan : Plan}
    (resolved : c.resolve path name = .ok plan) : other ∈ plan.names ↔ c.Reaches name other := by
  have sound := sound_of_resolve resolved
  refine ⟨sound.reached other, ?_⟩
  exact sound.arranged.mem_of_reaches (mem_names_of_resolve resolved)

/-- In an arranged list, what a request is made from has an earlier place. -/
theorem Arranged.exists_earlier {names : List String} (arranged : c.Arranged names) {r : Request}
    (request : r ∈ c.requests) {i : Nat} (place : names[i]? = some r.name) {other : String}
    (depends : other ∈ r.dependencies) : ∃ j < i, names[j]? = some other := by
  obtain ⟨bound, named⟩ := List.getElem?_eq_some_iff.1 place
  have split : names = names.take i ++ r.name :: names.drop (i + 1) := by
    rw [← named, ← List.drop_eq_getElem_cons bound, List.take_append_drop]
  have before := arranged _ _ _ split other ⟨r, request, rfl, depends⟩
  obtain ⟨j, earlier⟩ := List.mem_iff_getElem?.1 before
  rw [List.getElem?_take] at earlier
  split at earlier
  · exact ⟨j, ‹j < i›, earlier⟩
  · cases earlier

/-- **The plan of a check is a dependency order of what its sink reaches.**  Every
name stands in it once, the sink last, exactly the names reached from the sink
stand in it, and the source and the joins of a request stand at earlier places
than the request. -/
theorem plan_is_dependency_order {plan : Plan} (planned : c.plan = .ok plan) :
    plan.names.Nodup ∧
      plan.names.getLast? = some c.sink.name ∧
      (∀ name, name ∈ plan.names ↔ c.Reaches c.sink.name name) ∧
      ∀ r ∈ c.requests, ∀ i : Nat, plan.names[i]? = some r.name →
        ∀ other ∈ r.dependencies, ∃ j < i, plan.names[j]? = some other := by
  have sound : c.Sound [] c.sink.name plan := sound_of_resolve planned
  refine ⟨sound.distinct, getLast?_names_of_resolve planned,
    fun name => mem_names_iff_reaches planned, ?_⟩
  intro r request i place other depends
  exact sound.arranged.exists_earlier request place depends

namespace Example

def nodeFilter (name source : String) (predicate : Predicate) : Request :=
  ⟨name, .node, .point, source, .filter (.of predicate)⟩

/-- Two filters that are both joined with one zone.  Nothing reaches `loop`, which
reads itself. -/
def zoned : Check where
  issueClass := ⟨"7", "9000", "3", "Named node in a zone"⟩
  earlier := [
    nodeFilter "zone" "ways_bbox" (.hasTag "landuse"),
    nodeFilter "loop" "loop" (.hasTag "name"),
    nodeFilter "inside" "nodes" (.intersects "zone")]
  sink := nodeFilter "named" "inside" (.all [.hasTag "name", .intersects "zone"])
  distinct := by decide
  unshadowed := by decide

def zonedPlan : Plan := [
  ⟨"nodes", .node, .point⟩, ⟨"ways_bbox", .way, .polygon⟩, ⟨"zone", .way, .polygon⟩,
  ⟨"inside", .node, .point⟩, ⟨"named", .node, .point⟩]

end Example

theorem zoned_plan_is_dependency_order :
    Example.zoned.plan = .ok Example.zonedPlan ∧
      Example.zonedPlan.names.Nodup ∧
      Example.zonedPlan.names.getLast? = some "named" ∧
      (∀ name, name ∈ Example.zonedPlan.names ↔ Example.zoned.Reaches "named" name) ∧
      ∀ r ∈ Example.zoned.requests, ∀ i : Nat, Example.zonedPlan.names[i]? = some r.name →
        ∀ other ∈ r.dependencies, ∃ j < i, Example.zonedPlan.names[j]? = some other := by
  have planned : Example.zoned.plan = .ok Example.zonedPlan := by decide +kernel
  exact ⟨planned, plan_is_dependency_order planned⟩

/-! ## When there is a plan -/

/-- Everything that is reached from `name` is known, and the requests among it are
off the path and do not depend on themselves. -/
structure Resolvable (c : Check) (path : List String) (name : String) : Prop where
  known : ∀ other, c.Reaches name other → c.Known other
  offPath : ∀ r ∈ c.requests, c.Reaches name r.name → r.name ∉ path
  acyclic : ∀ r ∈ c.requests, c.Reaches name r.name → ¬ c.Cyclic r.name

/-- What a request is made from can be resolved along the longer path: reaching the
request from there would make it cyclic. -/
theorem Resolvable.needs {path : List String} {name other : String}
    (resolvable : c.Resolvable path name) (needs : c.Needs name other) :
    c.Resolvable (path ++ [name]) other where
  known third reaches := resolvable.known third (Reaches.head needs reaches)
  acyclic r request reaches := resolvable.acyclic r request (Reaches.head needs reaches)
  offPath r request reaches := by
    rw [List.mem_append, List.mem_singleton]
    rintro (onPath | same)
    · exact resolvable.offPath r request (Reaches.head needs reaches) onPath
    · rw [same] at reaches
      have cyclic : c.Cyclic r.name := same ▸ cyclic_of_needs_reaches needs reaches
      exact resolvable.acyclic r request (same ▸ Reaches.refl r.name) cyclic

theorem exists_joined {path joins : List String}
    (each : ∀ join ∈ joins, ∃ other, c.resolve path join = .ok other) (plan : Plan) :
    ∃ result, Joined c path plan joins result := by
  induction joins generalizing plan with
  | nil => exact ⟨plan, .nil plan⟩
  | cons join joins ih =>
      have later : ∀ join ∈ joins, ∃ other, c.resolve path join = .ok other :=
        fun next member => each next (List.mem_cons_of_mem join member)
      by_cases there : join ∈ plan.names
      · obtain ⟨result, rest⟩ := ih later plan
        exact ⟨result, .present there rest⟩
      · obtain ⟨other, resolved⟩ := each join (by simp)
        obtain ⟨result, rest⟩ := ih later (plan.merge other)
        exact ⟨result, .absent there resolved rest⟩

/-- What is resolvable along a path has a plan. -/
theorem Resolvable.exists_resolve {path : List String} {name : String}
    (resolvable : c.Resolvable path name) : ∃ plan, c.resolve path name = .ok plan := by
  induction path, name using path_induction (c := c) with
  | _ path name ih =>
      cases builtin : Builtin.find? name with
      | some source => exact ⟨_, resolve_builtin builtin⟩
      | none =>
          cases found : c.find? name with
          | none =>
              have known := resolvable.known name (Reaches.refl name)
              exact absurd known (not_known builtin found)
          | some r =>
              have fresh : name ∉ path := find?_name found ▸
                resolvable.offPath r (find?_mem found) (find?_name found ▸ Reaches.refl _)
              have each : ∀ other ∈ r.dependencies,
                  ∃ plan, c.resolve (path ++ [name]) other = .ok plan := fun other member =>
                ih r found fresh other (resolvable.needs ((needs_iff found).2 member))
              obtain ⟨below, first⟩ := each r.source r.source_mem_dependencies
              have eachJoin : ∀ join ∈ r.joins,
                  ∃ plan, c.resolve (path ++ [name]) join = .ok plan :=
                fun join member => each join (Request.mem_dependencies_of_join member)
              obtain ⟨joined, joins⟩ := exists_joined eachJoin below
              obtain ⟨source, last, -⟩ := exists_last_of_resolve first
              exact ⟨_, (resolve_eq_ok_iff found fresh).2
                ⟨below, source, joined, first, last, joins, rfl⟩⟩

theorem resolvable_of_resolve {path : List String} {name : String} {plan : Plan}
    (resolved : c.resolve path name = .ok plan) : c.Resolvable path name := by
  have sound := sound_of_resolve resolved
  constructor
  · exact fun other reaches => sound.known other ((mem_names_iff_reaches resolved).2 reaches)
  · exact fun r request reaches =>
      sound.offPath r request ((mem_names_iff_reaches resolved).2 reaches)
  · exact fun r request reaches =>
      sound.arranged.not_cyclic sound.distinct ((mem_names_iff_reaches resolved).2 reaches)

/-- There is a plan along a path exactly for the names that are resolvable there. -/
theorem exists_resolve_iff {path : List String} {name : String} :
    (∃ plan, c.resolve path name = .ok plan) ↔ c.Resolvable path name :=
  ⟨fun ⟨_, resolved⟩ => resolvable_of_resolve resolved, Resolvable.exists_resolve⟩

/-! ## Why there is none -/

theorem attach_eq_error {path : List String} {owner : String} {plan : Plan} {join : String}
    {e : CheckError} (refused : c.attach path owner plan join = .error e) :
    ∃ inner, c.resolve path join = .error inner ∧ inner.within owner = e := by
  by_cases there : join ∈ plan.names
  · rw [attach_present there] at refused
    cases refused
  · rw [attach_absent there] at refused
    cases resolved : c.resolve path join with
    | ok other =>
        rw [resolved] at refused
        cases refused
    | error inner =>
        rw [resolved] at refused
        cases refused
        exact ⟨inner, rfl, rfl⟩

/-- A request is refused for what refuses one of the names it depends on. -/
theorem resolve_eq_error {path : List String} {name : String} {r : Request} {e : CheckError}
    (found : c.find? name = some r) (fresh : name ∉ path)
    (refused : c.resolve path name = .error e) :
    ∃ other ∈ r.dependencies, ∃ inner,
      c.resolve (path ++ [name]) other = .error inner ∧ inner.within r.name = e := by
  rw [resolve_request found fresh, bind_eq_error_iff] at refused
  rcases refused with first | ⟨below, first, rest⟩
  · exact ⟨r.source, r.source_mem_dependencies, CheckError.locate_eq_error_iff.1 first⟩
  · rw [CheckError.locate_eq_ok_iff] at first
    obtain ⟨source, last, -⟩ := exists_last_of_resolve first
    rw [last, bind_eq_error_iff] at rest
    rcases rest with folded | ⟨joined, -, finished⟩
    · obtain ⟨join, member, plan, refused⟩ := foldlM_eq_error folded
      exact ⟨join, Request.mem_dependencies_of_join member, attach_eq_error refused⟩
    · cases finished

/-- A name without a plan is refused for an unknown name or for a cycle. -/
theorem code_of_resolve {path : List String} {name : String} {e : CheckError}
    (refused : c.resolve path name = .error e) :
    e.code = "GEOCHECK_UNKNOWN_STAGE_REFERENCE" ∨ e.code = "GEOCHECK_CYCLIC_DEPENDENCY" := by
  induction path, name using path_induction (c := c) generalizing e with
  | _ path name ih =>
      cases builtin : Builtin.find? name with
      | some source =>
          rw [resolve_builtin builtin] at refused
          cases refused
      | none =>
          cases found : c.find? name with
          | none =>
              rw [resolve_unknown builtin found] at refused
              cases refused
              exact Or.inl rfl
          | some r =>
              by_cases again : name ∈ path
              · rw [resolve_repeated found again] at refused
                cases refused
                exact Or.inr rfl
              · obtain ⟨other, -, inner, cause, rfl⟩ := resolve_eq_error found again refused
                rw [CheckError.code_within]
                exact ih r found again other cause

/-! ## Requests that are not reached -/

/-- A check with the same sink that has the requests reached in another, whatever
others it has, needs nothing more of them. -/
theorem needs_of_shared {other : Check} {root name needed : String}
    (known : ∀ name, c.Reaches root name → c.Known name)
    (shared : ∀ r ∈ c.requests, c.Reaches root r.name → r ∈ other.requests)
    (reaches : c.Reaches root name) (needs : other.Needs name needed) : c.Needs name needed := by
  obtain ⟨r, member, rfl, depends⟩ := needs
  rcases known r.name reaches with ⟨source, named⟩ | ⟨own, request, named⟩
  · exact absurd named.symm (name_ne_builtin member source)
  · have there := shared own request (named ▸ reaches)
    have same : own = r :=
      Option.some.inj ((find?_eq_some_iff.2 ⟨there, named⟩).symm.trans
        (find?_eq_some_iff.2 ⟨member, rfl⟩))
    exact ⟨own, request, named, same ▸ depends⟩

theorem reaches_of_shared {other : Check} {root name : String}
    (known : ∀ name, c.Reaches root name → c.Known name)
    (shared : ∀ r ∈ c.requests, c.Reaches root r.name → r ∈ other.requests)
    (reaches : other.Reaches root name) : c.Reaches root name := by
  induction reaches with
  | refl => exact Reaches.refl root
  | tail _ needs ih => exact ih.tail (needs_of_shared known shared ih needs)

theorem cyclic_of_shared {other : Check} {root name : String}
    (known : ∀ name, c.Reaches root name → c.Known name)
    (shared : ∀ r ∈ c.requests, c.Reaches root r.name → r ∈ other.requests)
    (reaches : c.Reaches root name) (cyclic : other.Cyclic name) : c.Cyclic name := by
  have leads : ∀ {last}, Relation.TransGen other.Needs name last →
      Relation.TransGen c.Needs name last := by
    intro last leads
    induction leads with
    | single needs => exact .single (needs_of_shared known shared reaches needs)
    | tail _ needs ih =>
        exact ih.tail (needs_of_shared known shared (reaches.trans ih.to_reflTransGen) needs)
  exact leads cyclic

/-- Requests that are not reached do not matter: a name that can be resolved in one
check can be in every other that has the requests reached from it. -/
theorem Resolvable.of_shared {other : Check} {name : String} (resolvable : c.Resolvable [] name)
    (shared : ∀ r ∈ c.requests, c.Reaches name r.name → r ∈ other.requests) :
    other.Resolvable [] name where
  known third reaches := by
    rcases resolvable.known third (reaches_of_shared resolvable.known shared reaches) with
      builtin | ⟨r, request, rfl⟩
    · exact Or.inl builtin
    · exact Or.inr ⟨r, shared r request (reaches_of_shared resolvable.known shared reaches), rfl⟩
  offPath _ _ _ := List.not_mem_nil
  acyclic r _ reaches cyclic := by
    have reached := reaches_of_shared resolvable.known shared reaches
    have cyclic := cyclic_of_shared resolvable.known shared reached cyclic
    obtain ⟨own, request, named⟩ := exists_request_of_cyclic cyclic
    exact resolvable.acyclic own request (named ▸ reached) (named ▸ cyclic)

/-- **A check has a plan exactly when every name its sink reaches is known and no
request it reaches depends on itself.**  Otherwise it is refused for an unknown
name or a cycle.  Requests the sink does not reach have no part in that: whatever
else a check declares, it has a plan if it has the requests reached in one that
does. -/
theorem exists_plan_iff_known_and_acyclic (c : Check) :
    ((∃ plan, c.plan = .ok plan) ↔
      (∀ name, c.Reaches c.sink.name name → c.Known name) ∧
        ∀ r ∈ c.requests, c.Reaches c.sink.name r.name → ¬ c.Cyclic r.name) ∧
    (∀ e, c.plan = .error e →
      e.code = "GEOCHECK_UNKNOWN_STAGE_REFERENCE" ∨ e.code = "GEOCHECK_CYCLIC_DEPENDENCY") ∧
    ∀ other : Check, other.sink.name = c.sink.name →
      (∀ r ∈ c.requests, c.Reaches c.sink.name r.name → r ∈ other.requests) →
      (∃ plan, c.plan = .ok plan) → ∃ plan, other.plan = .ok plan := by
  refine ⟨?_, fun e refused => code_of_resolve refused, fun other sameSink shared planned => ?_⟩
  · rw [plan, exists_resolve_iff]
    constructor
    · exact fun resolvable => ⟨resolvable.known, resolvable.acyclic⟩
    · exact fun ⟨known, acyclic⟩ => ⟨known, fun _ _ _ => List.not_mem_nil, acyclic⟩
  · rw [plan, exists_resolve_iff] at planned ⊢
    rw [sameSink]
    exact planned.of_shared shared

end Check

end MapAudit
