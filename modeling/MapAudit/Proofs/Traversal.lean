import MapAudit.Proofs.Resolution

/-!
# One traversal that remembers what it finished

`Check.visit` walks the dependencies of a name depth first, keeps one list of the
relations it has finished and never goes into a finished one again.  Resolving, in
contrast, makes the plan of a shared relation anew on every branch and merges.
The two agree on every check, on plans and on refusals alike: a visit adds to the
finished relations what merging the plan would (`visit_eq_merge`).

What carries this is that the finished relations are *settled*: each is the one its
own plan ends in, and its whole plan is among them.  A relation that is met again
under another path has the plan it had before, since none of the requests on the
path can be reached from it.
-/

namespace MapAudit

set_option autoImplicit false

namespace Check

/-- Visit a name along a path, given the relations that are finished.  A finished
name is left alone; the names a request depends on, its source first and then its
joins in order, are finished before it. -/
def visit (c : Check) (path : List String) (done : Plan) (name : String) :
    Except CheckError Plan :=
  if done.makes name then .ok done
  else
    match Builtin.find? name with
    | some source => .ok (done ++ [source.relation])
    | none =>
        match _found : c.find? name with
        | none => .error (.unknownReference name)
        | some r =>
            if _fresh : name ∈ path then .error (.cyclicDependency path name)
            else do
              let finished ← r.dependencies.foldlM
                (fun done other => CheckError.locate r.name (c.visit (path ++ [name]) done other))
                done
              match finished.find? fun e => e.name = r.source with
              | none => throw (.unknownReference r.source)
              | some source => return finished ++ [r.relation source]
  termination_by (c.offPath path).length
  decreasing_by exact length_offPath_lt _found _fresh

/-- The relations that are finished once the sink of a check is. -/
def traversal (c : Check) : Except CheckError Plan :=
  c.visit [] [] c.sink.name

variable {c : Check}

/-! ## One step -/

theorem visit_finished {path : List String} {done : Plan} {name : String}
    (finished : name ∈ done.names) : c.visit path done name = .ok done := by
  rw [visit, if_pos (Plan.makes_iff.2 finished)]

theorem visit_builtin {path : List String} {done : Plan} {name : String} {source : Builtin}
    (unfinished : name ∉ done.names) (builtin : Builtin.find? name = some source) :
    c.visit path done name = .ok (done ++ [source.relation]) := by
  rw [visit, if_neg (fun makes => unfinished (Plan.makes_iff.1 makes)), builtin]

theorem visit_unknown {path : List String} {done : Plan} {name : String}
    (unfinished : name ∉ done.names) (builtin : Builtin.find? name = none)
    (missing : c.find? name = none) :
    c.visit path done name = .error (.unknownReference name) := by
  rw [visit, if_neg (fun makes => unfinished (Plan.makes_iff.1 makes)), builtin]
  dsimp only
  split
  · rfl
  · rename_i r found
    rw [missing] at found
    cases found

theorem visit_repeated {path : List String} {done : Plan} {name : String} {r : Request}
    (unfinished : name ∉ done.names) (found : c.find? name = some r) (again : name ∈ path) :
    c.visit path done name = .error (.cyclicDependency path name) := by
  rw [visit, if_neg (fun makes => unfinished (Plan.makes_iff.1 makes)), builtin_of_find? found]
  dsimp only
  split
  · rename_i missing
    rw [found] at missing
    cases missing
  · rw [dif_pos again]

/-- Visit a name inside a request. -/
def visitFor (c : Check) (path : List String) (owner : String) (done : Plan) (name : String) :
    Except CheckError Plan :=
  CheckError.locate owner (c.visit path done name)

theorem visit_request {path : List String} {done : Plan} {name : String} {r : Request}
    (unfinished : name ∉ done.names) (found : c.find? name = some r) (fresh : name ∉ path) :
    c.visit path done name = (do
      let finished ← r.dependencies.foldlM (c.visitFor (path ++ [name]) r.name) done
      match finished.find? fun e => e.name = r.source with
      | none => throw (.unknownReference r.source)
      | some source => return finished ++ [r.relation source]) := by
  rw [visit, if_neg (fun makes => unfinished (Plan.makes_iff.1 makes)), builtin_of_find? found]
  dsimp only
  split
  · rename_i missing
    rw [found] at missing
    cases missing
  · rename_i r' found'
    cases found.symm.trans found'
    rw [dif_neg fresh]
    rfl

/-! ## A plan does not depend on the path -/

theorem Joined.of_resolve {path other joins : List String} {plan result : Plan}
    (joined : Joined c path plan joins result)
    (each : ∀ join ∈ joins, ∀ own, c.resolve path join = .ok own → c.resolve other join = .ok own) :
    Joined c other plan joins result := by
  induction joined with
  | nil plan => exact .nil plan
  | present there _ ih =>
      exact .present there (ih fun join member => each join (List.mem_cons_of_mem _ member))
  | absent missing resolved _ ih =>
      refine .absent missing (each _ (by simp) _ resolved) (ih fun join member => ?_)
      exact each join (List.mem_cons_of_mem _ member)

/-- A name has the same plan along every path from which it reaches no request. -/
theorem resolve_of_offPath {path other : List String} {name : String} {plan : Plan}
    (resolved : c.resolve path name = .ok plan)
    (free : ∀ r ∈ c.requests, c.Reaches name r.name → r.name ∉ other) :
    c.resolve other name = .ok plan := by
  induction path, name using path_induction (c := c) generalizing other plan with
  | _ path name ih =>
      rcases resolve_cases resolved with ⟨source, builtin, rfl⟩ | ⟨r, found, fresh⟩
      · exact resolve_builtin builtin
      · have off : name ∉ other := find?_name found ▸
          free r (find?_mem found) (find?_name found ▸ Reaches.refl _)
        have acyclic : ¬ c.Cyclic name := find?_name found ▸
          (resolvable_of_resolve resolved).acyclic r (find?_mem found)
            (find?_name found ▸ Reaches.refl _)
        -- a request reached through a dependency is not `name`, which is not cyclic
        have each : ∀ depends ∈ r.dependencies, ∀ own,
            c.resolve (path ++ [name]) depends = .ok own →
              c.resolve (other ++ [name]) depends = .ok own := by
          intro depends member own success
          have needs := (needs_iff found).2 member
          refine ih r found fresh depends success fun r' request reaches => ?_
          rw [List.mem_append, List.mem_singleton]
          rintro (onPath | same)
          · exact free r' request (Reaches.head needs reaches) onPath
          · exact acyclic (cyclic_of_needs_reaches needs (same ▸ reaches))
        obtain ⟨below, source, joined, first, last, joins, rfl⟩ :=
          (resolve_eq_ok_iff found fresh).1 resolved
        refine (resolve_eq_ok_iff found off).2 ⟨below, source, joined, ?_, last, ?_, rfl⟩
        · exact each r.source r.source_mem_dependencies below first
        · exact joins.of_resolve fun join member =>
            each join (Request.mem_dependencies_of_join member)

/-- Met along a path of requests that all lead to it, a name has the plan it has on
its own. -/
theorem resolve_of_leads {path : List String} {name : String} {own : Plan}
    (resolved : c.resolve [] name = .ok own)
    (leads : ∀ above ∈ path, Relation.TransGen c.Needs above name) :
    c.resolve path name = .ok own := by
  refine resolve_of_offPath resolved fun r request reaches onPath => ?_
  have cyclic : c.Cyclic r.name := Relation.TransGen.trans_left (leads r.name onPath) reaches
  exact (resolvable_of_resolve resolved).acyclic r request reaches cyclic

/-! ## Settled relations -/

/-- Each relation is the one its own plan ends in, and the relations of that plan
are among them. -/
def Settled (c : Check) (done : Plan) : Prop :=
  ∀ e ∈ done, ∃ own, c.resolve [] e.name = .ok own ∧ own.getLast? = some e ∧ ∀ e' ∈ own, e' ∈ done

theorem settled_nil : c.Settled [] := by
  intro e member
  cases member

/-- Settled relations of one name are one relation, kinds included. -/
theorem Settled.eq_of_name {done other : Plan} {e e' : Relation} (first : c.Settled done)
    (second : c.Settled other) (member : e ∈ done) (member' : e' ∈ other)
    (same : e.name = e'.name) : e = e' := by
  obtain ⟨own, resolved, last, -⟩ := first e member
  obtain ⟨own', resolved', last', -⟩ := second e' member'
  rw [same, resolved'] at resolved
  cases resolved
  exact Option.some.inj (last.symm.trans last')

/-- Merging settled relations loses none of them. -/
theorem Settled.mem_merge {done other : Plan} (first : c.Settled done) (second : c.Settled other)
    {e : Relation} (member : e ∈ other) : e ∈ done.merge other := by
  have named : e.name ∈ (done.merge other).names :=
    Plan.mem_names_merge.2 (Or.inr (Plan.mem_names_of_mem member))
  obtain ⟨e', there, same⟩ := List.mem_map.1 named
  rcases Plan.mem_of_mem_merge there with old | new
  · exact first.eq_of_name second old member same ▸ there
  · exact second.eq_of_name second new member same ▸ there

theorem Settled.merge {done other : Plan} (first : c.Settled done) (second : c.Settled other) :
    c.Settled (done.merge other) := by
  intro e member
  rcases Plan.mem_of_mem_merge member with old | new
  · obtain ⟨own, resolved, last, whole⟩ := first e old
    exact ⟨own, resolved, last, fun e' part => Plan.mem_merge_left (whole e' part)⟩
  · obtain ⟨own, resolved, last, whole⟩ := second e new
    exact ⟨own, resolved, last, fun e' part => first.mem_merge second (whole e' part)⟩

theorem Settled.find?_eq {done : Plan} (settled : c.Settled done) {e : Relation}
    (member : e ∈ done) : done.find? (fun e' => e'.name = e.name) = some e := by
  refine find?_of_unique (fun e' there => ?_) member
  rw [decide_eq_true_eq]
  exact ⟨settled.eq_of_name settled there member, congrArg _⟩

/-- The relations of a plan are settled. -/
theorem settled_of_resolve {path : List String} {name : String} {plan : Plan}
    (resolved : c.resolve path name = .ok plan) : c.Settled plan := by
  induction path, name using path_induction (c := c) generalizing plan with
  | _ path name ih =>
      have own : c.resolve [] name = .ok plan :=
        resolve_of_offPath resolved fun _ _ _ => List.not_mem_nil
      rcases resolve_cases resolved with ⟨source, builtin, rfl⟩ | ⟨r, found, fresh⟩
      · intro e member
        rw [List.mem_singleton] at member
        subst member
        have named : source.relation.name = name := Builtin.name_of_find? builtin
        exact ⟨[source.relation], named ▸ own, rfl, fun _ part => part⟩
      · obtain ⟨below, source, joined, first, -, joins, rfl⟩ :=
          (resolve_eq_ok_iff found fresh).1 resolved
        have settled : c.Settled joined :=
          joins.keeps Settled.merge (ih r found fresh r.source first)
            fun join _ other success => ih r found fresh join success
        intro e member
        rcases List.mem_append.1 member with old | last
        · obtain ⟨own, resolved, last, whole⟩ := settled e old
          exact ⟨own, resolved, last, fun e' part => List.mem_append_left _ (whole e' part)⟩
        · rw [List.mem_singleton] at last
          subst last
          have named : (r.relation source).name = name := find?_name found
          exact ⟨joined ++ [r.relation source], named ▸ own, by simp, fun _ part => part⟩

/-! ## Visiting is merging -/

/-- Visiting the joins of a request one after another adds what merging the joined
plan would. -/
theorem foldlM_visitFor (owner : String) {path joins : List String} {done stack : Plan}
    (settled : c.Settled done) (stacked : c.Settled stack)
    (each : ∀ join ∈ joins, ∀ done, c.Settled done →
      c.visit path done join = (c.resolve path join).map done.merge) :
    joins.foldlM (c.visitFor path owner) (done.merge stack) =
      (joins.foldlM (c.attach path owner) stack).map done.merge := by
  induction joins generalizing stack with
  | nil => rfl
  | cons join joins ih =>
      have later := fun next (member : next ∈ joins) => each next (List.mem_cons_of_mem join member)
      rw [List.foldlM_cons, List.foldlM_cons]
      by_cases there : join ∈ stack.names
      · have finished : join ∈ (done.merge stack).names := Plan.mem_names_merge.2 (Or.inr there)
        rw [attach_present there, visitFor, visit_finished finished]
        exact ih stacked later
      · rw [attach_absent there, visitFor, each join (by simp) _ (settled.merge stacked)]
        cases resolved : c.resolve path join with
        | error e => rfl
        | ok other =>
            have next := ih (stacked.merge (settled_of_resolve resolved)) later
            rw [← Plan.merge_assoc] at next
            exact next

/-- A request is visited as it is planned, if the names it depends on are. -/
theorem visit_request_eq_merge {path : List String} {done : Plan} {name : String} {r : Request}
    (settled : c.Settled done) (unfinished : name ∉ done.names) (found : c.find? name = some r)
    (fresh : name ∉ path)
    (each : ∀ other ∈ r.dependencies, ∀ done, c.Settled done →
      c.visit (path ++ [name]) done other = (c.resolve (path ++ [name]) other).map done.merge) :
    c.visit path done name = (c.resolve path name).map done.merge := by
  rw [visit_request unfinished found fresh, Request.dependencies, List.foldlM_cons, visitFor,
    each r.source r.source_mem_dependencies done settled]
  cases first : c.resolve (path ++ [name]) r.source with
  | error e =>
      rw [resolve_request found fresh, first]
      rfl
  | ok below =>
      have stacked := settled_of_resolve first
      obtain ⟨source, last, named⟩ := exists_last_of_resolve first
      have folded := foldlM_visitFor r.name settled stacked
        fun join member => each join (Request.mem_dependencies_of_join member)
      change (r.joins.foldlM (c.visitFor (path ++ [name]) r.name) (done.merge below) >>= _) = _
      rw [folded]
      cases joins : r.joins.foldlM (c.attach (path ++ [name]) r.name) below with
      | error e =>
          rw [resolve_request found fresh, first, CheckError.locate_ok]
          change _ = Except.map done.merge
            (match below.getLast? with | none => _ | some source => _)
          rw [last, joins]
          rfl
      | ok joined =>
          have relation := foldlM_attach_eq_ok_iff.1 joins
          have resolved := (resolve_eq_ok_iff found fresh).2
            ⟨below, source, joined, first, last, relation, rfl⟩
          have whole : c.Settled joined :=
            relation.keeps Settled.merge stacked
              fun join _ other success => settled_of_resolve success
          have there : source ∈ done.merge joined :=
            settled.mem_merge whole (relation.begins.subset (List.mem_of_getLast? last))
          have absent : (r.relation source).name ∉ (done.merge joined).names := by
            have distinct := (sound_of_resolve resolved).distinct
            rw [Plan.names_append, List.nodup_append] at distinct
            rw [Plan.mem_names_merge, not_or, Request.name_relation]
            refine ⟨(find?_name found).symm ▸ unfinished, fun again => ?_⟩
            exact distinct.2.2 _ again _ (by simp) rfl
          change (match (done.merge joined).find? fun e => e.name = r.source with
            | none => _
            | some source => _) = _
          rw [resolved, ← named, (settled.merge whole).find?_eq there]
          change Except.ok _ = Except.ok (done.merge (joined ++ [r.relation source]))
          rw [Plan.merge_append_singleton, Plan.add_of_not_mem absent]

/-- **A visit adds to the finished relations what merging the plan would**, and is
refused as making the plan is. -/
theorem visit_eq_merge {path : List String} {done : Plan} {name : String}
    (settled : c.Settled done)
    (leads : ∀ above ∈ path, Relation.TransGen c.Needs above name) :
    c.visit path done name = (c.resolve path name).map done.merge := by
  induction path, name using path_induction (c := c) generalizing done with
  | _ path name ih =>
      by_cases finished : name ∈ done.names
      · -- the plan is made again, but all of it is there
        obtain ⟨e, member, rfl⟩ := List.mem_map.1 finished
        obtain ⟨own, resolved, -, whole⟩ := settled e member
        have covered : ∀ other ∈ own.names, other ∈ done.names := by
          intro other named
          obtain ⟨e', part, rfl⟩ := List.mem_map.1 named
          exact Plan.mem_names_of_mem (whole e' part)
        rw [visit_finished finished, resolve_of_leads resolved leads]
        exact congrArg Except.ok (Plan.merge_of_covered covered).symm
      · cases builtin : Builtin.find? name with
        | some source =>
            have absent : source.relation.name ∉ done.names :=
              fun there => finished (Builtin.name_of_find? builtin ▸ there)
            rw [visit_builtin finished builtin, resolve_builtin builtin]
            exact congrArg Except.ok (Plan.add_of_not_mem absent).symm
        | none =>
            cases found : c.find? name with
            | none =>
                rw [visit_unknown finished builtin found, resolve_unknown builtin found]
                rfl
            | some r =>
                by_cases again : name ∈ path
                · rw [visit_repeated finished found again, resolve_repeated found again]
                  rfl
                · have each : ∀ other ∈ r.dependencies, ∀ done, c.Settled done →
                      c.visit (path ++ [name]) done other =
                        (c.resolve (path ++ [name]) other).map done.merge := by
                    intro other member done settled
                    have needs := (needs_iff found).2 member
                    refine ih r found again other settled fun above onPath => ?_
                    rcases List.mem_append.1 onPath with higher | last
                    · exact (leads above higher).tail needs
                    · exact List.mem_singleton.1 last ▸ Relation.TransGen.single needs
                  exact visit_request_eq_merge settled finished found again each

/-- **The plan of a check is what the traversal from its sink finishes**, in the
same order with the same kinds, and where there is no plan the traversal is refused
with the same error. -/
theorem plan_eq_traversal (c : Check) : c.plan = c.traversal := by
  have visited : c.visit [] [] c.sink.name = (c.resolve [] c.sink.name).map (Plan.merge []) :=
    visit_eq_merge settled_nil (by simp)
  rw [traversal, visited]
  change c.plan = c.plan.map (Plan.merge [])
  cases planned : c.plan with
  | error e => rfl
  | ok plan =>
      have distinct := (sound_of_resolve planned).distinct
      exact congrArg Except.ok (Plan.nil_merge distinct).symm

end Check

end MapAudit
