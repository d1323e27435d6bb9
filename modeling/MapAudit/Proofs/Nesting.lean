import MapAudit.Proofs.Refusal
import Mathlib.Data.List.Perm.Subperm

/-!
# How deep the search for a plan nests

`Check.resolve` is given its path with every call.  `Check.search` is the same search on one
path that all calls share: a call pushes its name before it goes on to what a request depends
on, and pops it when it is done, whatever came of it.  The calls are put on a stack with room
for a number of them, and every call is recorded with the path that it finds and the path that
it leaves.

With room for one call more than there are requests the search never runs out of it, and its
outcome is that of `Check.resolve` (`search_eq`).  The records are along walks from the sink
(`Call.Along`), and a walk is no longer than there are requests.
-/

namespace MapAudit

set_option autoImplicit false

namespace Search

/-- A call: the name it is for, the path that it finds and the one that it leaves, and the
calls that it makes itself. -/
structure Call where
  name : String
  found : List String
  left : List String
  inner : List Call

/-- The path, and the calls that the present call has made. -/
structure State where
  path : List String
  calls : List Call

end Search

/-- A search keeps its state when it is refused, and has no outcome when there is no room for
a call. -/
abbrev Search := ExceptT CheckError (StateT Search.State Option)

namespace Search

/-- Run a call, and record it. -/
def call (name : String) (body : Search Plan) : Search Plan := fun outer => do
  let (outcome, own) ← body ⟨outer.path, []⟩
  return (outcome, ⟨own.path, outer.calls ++ [⟨name, outer.path, own.path, own.calls⟩]⟩)

/-- Push a name, and pop what is last on the path when the search behind it is done. -/
def pushing (name : String) (body : Search Plan) : Search Plan := fun state => do
  let (outcome, after) ← body { state with path := state.path ++ [name] }
  return (outcome, { after with path := after.path.dropLast })

def locate (name : String) (body : Search Plan) : Search Plan :=
  ExceptT.adapt (·.within name) body

/-- Join one more relation to a plan, as `Check.attach` does. -/
def attach (next : String → Search Plan) (owner : String) (plan : Plan) (join : String) :
    Search Plan :=
  if plan.makes join then pure plan
  else do
    let other ← locate owner (next join)
    return plan.merge other

/-- The plan of a request, where `next` searches for what it depends on. -/
def request (next : String → Search Plan) (r : Request) : Search Plan := do
  let below ← locate r.name (next r.source)
  match below.getLast? with
  | none => throw (.unknownReference r.source)
  | some source => do
      let joined ← r.joins.foldlM (attach next r.name) below
      return joined ++ [r.relation source]

/-- The plan of a name, where `next` searches for what a request depends on. -/
def body (c : Check) (next : String → Search Plan) (name : String) : Search Plan :=
  match Builtin.find? name with
  | some source => return [source.relation]
  | none =>
      match c.find? name with
      | none => throw (.unknownReference name)
      | some r => do
          let path := (← get).path
          if name ∈ path then throw (.cyclicDependency path name)
          else pushing name (request next r)

end Search

/-- The search for the plan of a name, on a stack with room for some calls. -/
def Check.search (c : Check) : Nat → String → Search Plan
  | 0, _ => fun _ => none
  | room + 1, name => Search.call name (Search.body c (c.search room) name)

namespace Search

/-! ## Searches that keep the path -/

variable {α β γ : Type} {kind : Call → Prop} {path : List String}

/-- Along a path, the search has an outcome, leaves the path as it is, and makes calls of a
kind. -/
def Keeps (kind : Call → Prop) (path : List String) (s : Search α)
    (outcome : Except CheckError α) : Prop :=
  ∀ calls, ∃ made, s ⟨path, calls⟩ = some (outcome, ⟨path, calls ++ made⟩) ∧
    ∀ call ∈ made, kind call

namespace Keeps

theorem pure (a : α) : Keeps kind path (Pure.pure a) (.ok a) := fun calls =>
  ⟨[], by rw [List.append_nil]; rfl, by simp⟩

theorem throw (e : CheckError) : Keeps kind path (MonadExcept.throw e : Search α) (.error e) :=
  fun calls => ⟨[], by rw [List.append_nil]; rfl, by simp⟩

theorem bind {s : Search α} {f : α → Search β} {outcome : Except CheckError α}
    {g : α → Except CheckError β} (first : Keeps kind path s outcome)
    (next : ∀ a, Keeps kind path (f a) (g a)) : Keeps kind path (s >>= f) (outcome >>= g) := by
  intro calls
  obtain ⟨made, ran, kinds⟩ := first calls
  have unfolded : (s >>= f) ⟨path, calls⟩ =
      (s ⟨path, calls⟩ >>= fun pair => ExceptT.bindCont f pair.1 pair.2) := rfl
  cases outcome with
  | error e =>
      refine ⟨made, ?_, kinds⟩
      rw [unfolded, ran]
      rfl
  | ok a =>
      obtain ⟨more, continued, others⟩ := next a (calls ++ made)
      refine ⟨made ++ more, ?_, fun call member => ?_⟩
      · rw [unfolded, ran, ← List.append_assoc]
        exact continued
      · exact (List.mem_append.1 member).elim (kinds call) (others call)

theorem locate {s : Search Plan} {outcome : Except CheckError Plan} (name : String)
    (keeps : Keeps kind path s outcome) :
    Keeps kind path (Search.locate name s) (CheckError.locate name outcome) := by
  intro calls
  obtain ⟨made, ran, kinds⟩ := keeps calls
  refine ⟨made, ?_, kinds⟩
  have unfolded : Search.locate name s ⟨path, calls⟩ =
      (s ⟨path, calls⟩ >>= fun pair => some (CheckError.locate name pair.1, pair.2)) := rfl
  rw [unfolded, ran]
  rfl

theorem foldlM {step : β → γ → Search β} {pureStep : β → γ → Except CheckError β}
    {items : List γ} (each : ∀ item ∈ items, ∀ b, Keeps kind path (step b item) (pureStep b item))
    (b : β) : Keeps kind path (items.foldlM step b) (items.foldlM pureStep b) := by
  induction items generalizing b with
  | nil => exact pure b
  | cons item items ih =>
      rw [List.foldlM_cons, List.foldlM_cons]
      exact (each item List.mem_cons_self b).bind fun next =>
        ih (fun other member => each other (List.mem_cons_of_mem _ member)) next

/-- What was pushed is what is popped. -/
theorem pushing {name : String} {body : Search Plan} {outcome : Except CheckError Plan}
    (keeps : Keeps kind (path ++ [name]) body outcome) :
    Keeps kind path (Search.pushing name body) outcome := by
  intro calls
  obtain ⟨made, ran, kinds⟩ := keeps calls
  refine ⟨made, ?_, kinds⟩
  rw [Search.pushing, ran]
  simp

/-- What is done with the state is done with the path, whatever calls were made before. -/
theorem get {f : State → Search α} {outcome : Except CheckError α}
    (next : ∀ calls, Keeps kind path (f ⟨path, calls⟩) outcome) :
    Keeps kind path (MonadState.get >>= f) outcome := fun calls =>
  next calls calls

theorem attach {next : String → Search Plan} {c : Check} {join : String}
    (keeps : Keeps kind path (next join) (c.resolve path join)) (owner : String) (plan : Plan) :
    Keeps kind path (Search.attach next owner plan join) (c.attach path owner plan join) := by
  unfold Search.attach Check.attach
  split
  · exact pure plan
  · exact (keeps.locate owner).bind fun other => pure (plan.merge other)

/-- A request is searched along what it depends on. -/
theorem request {next : String → Search Plan} {c : Check} {r : Request} {name : String}
    (found : c.find? name = some r) (fresh : name ∉ path)
    (each : ∀ other ∈ r.dependencies,
      Keeps kind (path ++ [name]) (next other) (c.resolve (path ++ [name]) other)) :
    Keeps kind (path ++ [name]) (Search.request next r) (c.resolve path name) := by
  rw [Check.resolve_request found fresh, Search.request]
  refine ((each r.source List.mem_cons_self).locate r.name).bind fun below => ?_
  cases below.getLast? with
  | none => exact throw _
  | some source =>
      have joins := foldlM (fun join member plan =>
        (each join (List.mem_cons_of_mem _ member)).attach r.name plan) below
      exact joins.bind fun joined => pure (joined ++ [r.relation source])

theorem body {next : String → Search Plan} {c : Check} {name : String}
    (each : ∀ r, c.find? name = some r → name ∉ path → ∀ other ∈ r.dependencies,
      Keeps kind (path ++ [name]) (next other) (c.resolve (path ++ [name]) other)) :
    Keeps kind path (Search.body c next name) (c.resolve path name) := by
  unfold Search.body
  cases builtin : Builtin.find? name with
  | some source =>
      rw [Check.resolve_builtin builtin]
      exact pure [source.relation]
  | none =>
      cases found : c.find? name with
      | none =>
          rw [Check.resolve_unknown builtin found]
          exact throw (.unknownReference name)
      | some r =>
          refine get fun calls => ?_
          by_cases again : name ∈ path
          · rw [Check.resolve_repeated found again]
            dsimp only
            rw [if_pos again]
            exact throw (.cyclicDependency path name)
          · dsimp only
            rw [if_neg again]
            exact (request found again (each r found again)).pushing

end Keeps

/-- A call that keeps the path is recorded so. -/
theorem call_eq (name : String) {body : Search Plan} {outcome : Except CheckError Plan}
    (keeps : Keeps kind path body outcome) (calls : List Call) :
    ∃ inner, call name body ⟨path, calls⟩ =
        some (outcome, ⟨path, calls ++ [⟨name, path, path, inner⟩]⟩) ∧
      ∀ call ∈ inner, kind call := by
  obtain ⟨inner, ran, kinds⟩ := keeps []
  refine ⟨inner, ?_, kinds⟩
  rw [call, ran]
  rfl

/-! ## Calls along walks -/

/-- The call finds the path and leaves it, on a walk from the sink to its name, and the calls
that it makes are along the path that is longer by its name. -/
inductive Call.Along (c : Check) : List String → Call → Prop
  | mk {path : List String} {name : String} {inner : List Call} (walk : c.Walk path name)
      (each : ∀ call ∈ inner, Along c (path ++ [name]) call) :
      Along c path ⟨name, path, path, inner⟩

/-- The calls that are active when a call of the search is made, outermost first: those that
are nested in each other around it. -/
inductive Active (root : Call) : List Call → Call → Prop
  | root : Active root [] root
  | inner {around : List Call} {call next : Call} (active : Active root around call)
      (made : next ∈ call.inner) : Active root (around ++ [call]) next

/-- **The path is the names of the active calls.** -/
theorem Active.along {c : Check} {root call : Call} {around : List Call}
    (active : Active root around call) (along : root.Along c []) :
    call.Along c (around.map (·.name)) := by
  induction active with
  | root => exact along
  | inner active made ih =>
      rw [List.map_append]
      cases ih with
      | mk walk each => exact each _ made

end Search

namespace Check

open Search (Call Keeps Active)

variable {c : Check}

/-- **The search does what `resolve` does**, keeps the path, and makes its calls along walks,
as long as there is room for a call more than there are requests off the path. -/
theorem search_eq {room : Nat} {path : List String} {name : String} (walk : c.Walk path name)
    (enough : (c.offPath path).length < room) (calls : List Call) :
    ∃ call, c.search room name ⟨path, calls⟩ =
        some (c.resolve path name, ⟨path, calls ++ [call]⟩) ∧ call.Along c path := by
  -- On the room: a call inside of this one has less room, and fewer requests off its path.
  induction room generalizing path name calls with
  | zero => exact absurd enough (Nat.not_lt_zero _)
  | succ room ih =>
      have body : Keeps (Call.Along c (path ++ [name])) path
          (Search.body c (c.search room) name) (c.resolve path name) := by
        refine Keeps.body fun r found fresh other depends calls => ?_
        have fewer := length_offPath_lt found fresh
        obtain ⟨call, ran, along⟩ := ih (walk.next found fresh depends) (by omega) calls
        exact ⟨[call], ran, fun _ member => List.mem_singleton.1 member ▸ along⟩
      obtain ⟨inner, ran, each⟩ := Search.call_eq name body calls
      exact ⟨_, ran, .mk walk each⟩

/-- A walk is no longer than there are requests. -/
theorem Walk.length_le {path : List String} {name : String} (walk : c.Walk path name) :
    path.length ≤ c.requests.length := by
  have declared : path ⊆ c.requests.map (·.name) := fun above member =>
    List.mem_map.2 (walk.declared above member)
  have shorter := (walk.distinct.subperm declared).length_le
  rwa [List.length_map] at shorter

/-- **The search for a plan nests no deeper than one call for every request and one more.**
On a stack with that much room it has the outcome of `plan`, cycles or not.  The path that a
call finds holds the names of the active calls, which are distinct requests, and the call
leaves it as it was. -/
theorem search_nests_within_requests (c : Check) (spare : Nat) :
    ∃ root, c.search (c.requests.length + 1 + spare) c.sink.name ⟨[], []⟩ =
        some (c.plan, ⟨[], [root]⟩) ∧
      ∀ around call, Active root around call →
        call.found = around.map (·.name) ∧ call.left = call.found ∧ call.found.Nodup ∧
          (∀ name ∈ call.found, ∃ r ∈ c.requests, r.name = name) ∧
          call.found.length ≤ c.requests.length ∧
          (around ++ [call]).length ≤ c.requests.length + 1 := by
  have enough : (c.offPath []).length < c.requests.length + 1 + spare := by
    have all : (c.offPath []).length ≤ c.requests.length := List.length_filter_le _ _
    omega
  obtain ⟨root, ran, along⟩ := search_eq c.walk_sink enough []
  refine ⟨root, ran, fun around call active => ?_⟩
  cases active.along along with
  | mk walk each =>
      have depth := walk.length_le
      rw [List.length_map] at depth
      refine ⟨rfl, rfl, walk.distinct, walk.declared, walk.length_le, ?_⟩
      rw [List.length_append, List.length_singleton]
      omega

namespace Example

/-- The zone is searched and left before the cycle of `circular` closes. -/
def zoneCall : Call :=
  ⟨"zone", ["named", "inside"], ["named", "inside"],
    [⟨"ways_bbox", ["named", "inside", "zone"], ["named", "inside", "zone"], []⟩]⟩

def insideCall : Call :=
  ⟨"inside", ["named"], ["named"],
    [⟨"nodes", ["named", "inside"], ["named", "inside"], []⟩, zoneCall,
      ⟨"named", ["named", "inside"], ["named", "inside"], []⟩]⟩

def namedCall : Call := ⟨"named", [], [], [insideCall]⟩

end Example

/-- The bound is reached, by a search that ends in a cycle. -/
theorem circular_nests_to_the_bound :
    Example.circular.requests.length = 3 ∧
      Example.circular.search 3 "named" ⟨[], []⟩ = none ∧
      Example.circular.search 4 "named" ⟨[], []⟩ =
        some (Example.circular.plan, ⟨[], [Example.namedCall]⟩) ∧
      ∃ around call, Active Example.namedCall around call ∧
        call.found = ["named", "inside", "zone"] ∧ call.left = call.found ∧
        (around ++ [call]).length = 3 + 1 := by
  have full : Example.circular.search 3 "named" ⟨[], []⟩ = none := by rfl
  have ran : Example.circular.search 4 "named" ⟨[], []⟩ =
      some (.error Example.circularRefusal, ⟨[], [Example.namedCall]⟩) := by rfl
  obtain ⟨root, planned, nested⟩ := search_nests_within_requests Example.circular 0
  have same : root = Example.namedCall := by
    have states := congrArg Prod.snd (Option.some.inj (planned.symm.trans ran))
    injection states with _ calls
    exact List.singleton_inj.1 calls
  subst same
  have inside : Active Example.namedCall [Example.namedCall] Example.insideCall :=
    Active.root.inner List.mem_cons_self
  have zone : Active Example.namedCall [Example.namedCall, Example.insideCall] Example.zoneCall :=
    inside.inner (by simp [Example.insideCall])
  have ways := zone.inner List.mem_cons_self
  obtain ⟨-, kept, -⟩ := nested _ _ ways
  exact ⟨rfl, full, planned, _, _, ways, rfl, kept, rfl⟩

end Check

end MapAudit
