import MapAudit.Proofs.Succession

/-!
# Issues lead to their classes

Registering pipelines puts their classes behind those that are there, one each, and the
handle of a check is the place of its class (`place_of_registered`).  While places fit
into 32 bits no two of them have one handle, so the handle that an issue bears leads to
the class of the check that found it, and to no other.
-/

namespace MapAudit.Run

set_option autoImplicit false

/-! ## Handles -/

section Handles

variable {registry : Registry} {pipelines : List Pipeline}

/-- The classes that are there stay as they are, and each pipeline adds its own. -/
theorem classes_registerAll (registry : Registry) (pipelines : List Pipeline) :
    (registerAll registry pipelines).2.1.classes = registry.classes ++ pipelines.map classOf := by
  induction pipelines generalizing registry with
  | nil => simp [registerAll]
  | cons p rest ih =>
      rw [registerAll]
      dsimp only
      rw [ih, Registry.register, List.append_assoc]
      rfl

/-- A check has the handle of the place at which its class is registered. -/
theorem place_of_registered {i : Nat} {check : Registered}
    (place : (registerAll registry pipelines).1[i]? = some check) :
    pipelines[i]? = some check.pipeline ∧ check.handle = UInt32.ofNat (registry.size + i) := by
  induction pipelines generalizing registry i with
  | nil => simp [registerAll] at place
  | cons p rest ih =>
      rw [registerAll] at place
      cases i with
      | zero =>
          cases place
          exact ⟨rfl, rfl⟩
      | succ i =>
          obtain ⟨listed, handle⟩ := ih (by simpa using place)
          refine ⟨by simpa using listed, ?_⟩
          rw [handle, Registry.size_register, Nat.add_right_comm, Nat.add_assoc]

/-- The number of a handle is the place of the class, while places fit. -/
theorem toNat_handle (fits : registry.size + pipelines.length ≤ UInt32.size) {i : Nat}
    {check : Registered} (place : (registerAll registry pipelines).1[i]? = some check) :
    check.handle.toNat = registry.size + i := by
  obtain ⟨listed, handle⟩ := place_of_registered place
  obtain ⟨bound, -⟩ := List.getElem?_eq_some_iff.1 listed
  rw [handle, UInt32.toNat_ofNat']
  apply Nat.mod_eq_of_lt
  unfold UInt32.size at fits
  omega

theorem get?_handle (fits : registry.size + pipelines.length ≤ UInt32.size) {check : Registered}
    (member : check ∈ (registerAll registry pipelines).1) :
    (registerAll registry pipelines).2.1.get? check.handle = some (classOf check.pipeline) := by
  obtain ⟨i, place⟩ := List.mem_iff_getElem?.1 member
  rw [Registry.get?, toNat_handle fits place, classes_registerAll, Registry.size,
    List.getElem?_append_right (Nat.le_add_right _ _), Nat.add_sub_cancel_left,
    List.getElem?_map, (place_of_registered place).1]
  rfl

/-- Handles of different checks differ. -/
theorem eq_of_handle_eq (fits : registry.size + pipelines.length ≤ UInt32.size)
    {check other : Registered} (member : check ∈ (registerAll registry pipelines).1)
    (another : other ∈ (registerAll registry pipelines).1) (same : check.handle = other.handle) :
    check = other := by
  obtain ⟨i, place⟩ := List.mem_iff_getElem?.1 member
  obtain ⟨j, place'⟩ := List.mem_iff_getElem?.1 another
  have here : i = j := by
    have number := toNat_handle fits place
    rw [same, toNat_handle fits place'] at number
    omega
  subst here
  exact Option.some.inj (place.symm.trans place')

end Handles

/-! ## Issues -/

variable {σ : Type}

namespace Runner

variable {runner : Runner}

/-- The runs that a turn consists of. -/
def runsOf (runner : Runner) (store : Store σ) (state : σ) : Turn → List (Ran σ)
  | .check id =>
      (runner.find? id).toList.map fun check => ⟨check, runner.runKnown store check state⟩
  | .all => runner.runs store state

/-- A turn delivers what its runs deliver, one after another. -/
theorem issues_take (distinct : (runner.checks.map (·.pipeline.id)).Nodup) (store : Store σ)
    (state : σ) (turn : Turn) :
    (runner.take store state turn).2.issues =
      (runner.runsOf store state turn).flatMap (·.report.progress.issues) := by
  cases turn with
  | check id =>
      rw [take, runsOf, runCheck]
      cases runner.find? id with
      | none => rfl
      | some check => simp
  | all => exact (accountsForEach distinct store state).delivered

/-- A turn runs checks of the runner, the one that was asked for if it is one, and each
run delivers issues that bear its check. -/
theorem bears_of_mem_runsOf {store : Store σ} {state : σ} {turn : Turn} {ran : Ran σ}
    (member : ran ∈ runner.runsOf store state turn) :
    ran.check ∈ runner.checks ∧ (∀ id, turn = .check id → ran.check.pipeline.id = id) ∧
      ∀ issue ∈ ran.report.progress.issues, issue.Bears ran.check := by
  cases turn with
  | check id =>
      obtain ⟨check, found, rfl⟩ := List.mem_map.1 member
      rw [Option.mem_toList] at found
      refine ⟨List.mem_of_find?_eq_some found, ?_, runner.bears_of_runKnown store⟩
      rintro other ⟨⟩
      simpa using List.find?_some found
  | all =>
      refine ⟨?_, nofun, bears_of_mem_runs member⟩
      rw [← checks_inTurn store runner.checks state]
      exact List.mem_map_of_mem member

theorem taken_of_mem_takeAll {store : Store σ} {turns : List ((σ → σ) × Turn)} {state : σ}
    {taken : Taken σ} (member : taken ∈ runner.takeAll store turns state) :
    (taken.answer, taken.progress) = runner.take store taken.before taken.turn := by
  induction turns generalizing state with
  | nil => cases member
  | cons step rest ih =>
      rw [takeAll] at member
      rcases List.mem_cons.1 member with rfl | later
      · rfl
      · exact ih later

end Runner

/-- The issue bears the id of a pipeline, and its handle leads to a class with the item,
the level and the title of that pipeline, and without tags. -/
def Issue.LeadsTo (issue : Issue) (registry : Registry) (p : Pipeline) : Prop :=
  issue.check = p.id ∧ registry.get? issue.handle =
    some ⟨p.issueClass.item, p.issueClass.level, [], p.issueClass.title⟩

/-- A turn delivers the issues of its runs, and every issue of a run leads to the class of
the check that runs. -/
structure Taken.Stamped (runner : Runner) (store : Store σ) (registry : Registry)
    (taken : Taken σ) : Prop where
  delivered : taken.progress.issues =
    (runner.runsOf store taken.before taken.turn).flatMap (·.report.progress.issues)
  known : ∀ ran ∈ runner.runsOf store taken.before taken.turn, ran.check ∈ runner.checks
  /-- A turn that is to run one check runs no other. -/
  asked : ∀ ran ∈ runner.runsOf store taken.before taken.turn,
    ∀ id, taken.turn = .check id → ran.check.pipeline.id = id
  stamped : ∀ ran ∈ runner.runsOf store taken.before taken.turn,
    ∀ issue ∈ ran.report.progress.issues,
      runner.handle? ran.check.pipeline.id = some issue.handle ∧
        issue.LeadsTo registry ran.check.pipeline

section Registration

variable (registry : Registry) {pipelines : List Pipeline}
  (distinct : (pipelines.map (·.id)).Nodup) (dropIntermediates : Bool)

include distinct

theorem handle?_of_registered {check : Registered}
    (member : check ∈ (registerAll registry pipelines).1) :
    Runner.handle? { checks := (registerAll registry pipelines).1, dropIntermediates }
      check.pipeline.id = some check.handle := by
  rw [Runner.handle?, Runner.find?_of_mem (nodup_ids_registerAll registry distinct) member]
  rfl

theorem stamped_of_mem_takeAll (fits : registry.size + pipelines.length ≤ UInt32.size)
    (store : Store σ) (turns : List ((σ → σ) × Turn)) (state : σ) :
    let runner : Runner := { checks := (registerAll registry pipelines).1, dropIntermediates }
    ∀ taken ∈ runner.takeAll store turns state,
      taken.Stamped runner store (registerAll registry pipelines).2.1 := by
  intro runner taken member
  have did : taken.progress = (runner.take store taken.before taken.turn).2 :=
    congrArg Prod.snd (Runner.taken_of_mem_takeAll member)
  constructor
  · rw [did, Runner.issues_take (nodup_ids_registerAll registry distinct)]
  · exact fun ran running => (Runner.bears_of_mem_runsOf running).1
  · exact fun ran running => (Runner.bears_of_mem_runsOf running).2.1
  · intro ran running issue delivered
    obtain ⟨known, -, bears⟩ := Runner.bears_of_mem_runsOf running
    obtain ⟨id, handle⟩ := bears issue delivered
    rw [Issue.LeadsTo, handle]
    exact ⟨handle?_of_registered registry distinct dropIntermediates known, id,
      get?_handle fits known⟩

end Registration

/-- **Every issue leads to the class of the check that found it.**  Registration adds one
class for each pipeline behind those that are there, and gives different checks different
handles.  Whatever the runner is told to do later, and whatever the store does, an issue
that is delivered while a check runs bears the id of this check and the handle of its
class. -/
theorem issues_lead_to_their_classes (registry : Registry) {pipelines : List Pipeline}
    (distinct : (pipelines.map (·.id)).Nodup) (dropIntermediates : Bool)
    (fits : registry.size + pipelines.length ≤ UInt32.size) (store : Store σ)
    (turns : List ((σ → σ) × Turn)) (state : σ) :
    let runner : Runner := { checks := (registerAll registry pipelines).1, dropIntermediates }
    let after := (registerAll registry pipelines).2.1
    after.classes = registry.classes ++ pipelines.map (fun p =>
        ⟨p.issueClass.item, p.issueClass.level, [], p.issueClass.title⟩) ∧
      runner.checks.map (·.pipeline) = pipelines ∧
      (∀ p ∈ pipelines, ∃ handle, runner.handle? p.id = some handle ∧
        ∀ q ∈ pipelines, q.id ≠ p.id → runner.handle? q.id ≠ some handle) ∧
      ∀ taken ∈ runner.takeAll store turns state, taken.Stamped runner store after := by
  intro runner after
  have same : runner.checks.map (·.pipeline) = pipelines :=
    pipelines_registerAll registry pipelines
  have handle := @handle?_of_registered registry pipelines distinct dropIntermediates
  refine ⟨classes_registerAll registry pipelines, same, ?_,
    stamped_of_mem_takeAll registry distinct dropIntermediates fits store turns state⟩
  rw [← same]
  intro p member
  obtain ⟨check, own, rfl⟩ := List.mem_map.1 member
  refine ⟨check.handle, handle own, fun q another apart => ?_⟩
  obtain ⟨other, own', rfl⟩ := List.mem_map.1 another
  rw [handle own']
  intro equal
  have one : other = check := eq_of_handle_eq fits own' own (Option.some.inj equal)
  exact apart (congrArg (·.pipeline.id) one)

namespace Example

/-- A registry that holds a class of another origin. -/
def taxonomy : Registry where
  classes := [⟨"0", "0", ["pre"], "pre"⟩]

/-- All checks run, and then one of them with other rows. -/
def rounds : List ((List Rule → List Rule) × Turn) :=
  [(fun rules => rules, .all), (fun _ => [{ pattern := "read", rows := [[some "8"]] }], .check "3")]

end Example

theorem trio_issues_lead_to_their_classes :
    (Example.trio.map (·.id)).Nodup ∧ Example.taxonomy.size + Example.trio.length ≤ UInt32.size ∧
      let registered := registerAll Example.taxonomy Example.trio
      let runner : Runner := { checks := registered.1, dropIntermediates := true }
      (runner.takeAll rehearsal Example.rounds Example.layers).map (·.progress.issues) =
          [[⟨"1", 1, .way 5⟩, ⟨"3", 3, .way 5⟩], [⟨"3", 3, .way 8⟩]] ∧
        registered.2.1.classes = Example.taxonomy.classes ++ Example.trio.map (fun p =>
          ⟨p.issueClass.item, p.issueClass.level, [], p.issueClass.title⟩) ∧
        runner.checks.map (·.pipeline) = Example.trio ∧
        (∀ p ∈ Example.trio, ∃ handle, runner.handle? p.id = some handle ∧
          ∀ q ∈ Example.trio, q.id ≠ p.id → runner.handle? q.id ≠ some handle) ∧
        ∀ taken ∈ runner.takeAll rehearsal Example.rounds Example.layers,
          taken.Stamped runner rehearsal registered.2.1 :=
  ⟨by decide, by decide, by decide +kernel,
    issues_lead_to_their_classes Example.taxonomy (by decide) true (by decide) rehearsal
      Example.rounds Example.layers⟩

end MapAudit.Run
