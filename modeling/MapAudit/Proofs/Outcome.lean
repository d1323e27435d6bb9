import MapAudit.CheckError
import Mathlib.Data.List.Nodup

/-!
# Outcomes and lookups

When a computation that may be refused succeeds, and when it is refused; and what is found
among entries with keys of their own.
-/

namespace MapAudit

set_option autoImplicit false

variable {ε α β : Type}

theorem bind_eq_ok_iff {x : Except ε α} {f : α → Except ε β} {b : β} :
    x >>= f = .ok b ↔ ∃ a, x = .ok a ∧ f a = .ok b := by
  cases x with
  | error e => simp [bind, Except.bind]
  | ok a => simp [bind, Except.bind]

theorem bind_eq_error_iff {x : Except ε α} {f : α → Except ε β} {e : ε} :
    x >>= f = .error e ↔ x = .error e ∨ ∃ a, x = .ok a ∧ f a = .error e := by
  cases x with
  | error e' => simp [bind, Except.bind]
  | ok a => simp [bind, Except.bind]

theorem map_eq_ok_iff {f : α → β} {x : Except ε α} {b : β} :
    f <$> x = .ok b ↔ ∃ a, x = .ok a ∧ f a = b := by
  cases x with
  | error e => simp [Functor.map, Except.map]
  | ok a => simp [Functor.map, Except.map]

theorem map_eq_error_iff {f : α → β} {x : Except ε α} {e : ε} :
    f <$> x = .error e ↔ x = .error e := by
  cases x with
  | error e' => simp [Functor.map, Except.map]
  | ok a => simp [Functor.map, Except.map]

/-- What only gives back a result is refused where the result is. -/
theorem bind_pure_eq_error_iff {x : Except ε α} {f : α → β} {e : ε} :
    (x >>= fun a => pure (f a)) = .error e ↔ x = .error e := by
  rw [bind_pure_comp, map_eq_error_iff]

/-- A step that gives something, after another step. -/
theorem bind_some_eq_ok_iff {x : Except ε α} {f : α → Except ε β} {b : β} :
    (x >>= fun a => some <$> f a) = .ok (some b) ↔ ∃ a, x = .ok a ∧ f a = .ok b := by
  simp [bind_eq_ok_iff, map_eq_ok_iff]

theorem mapError_eq_ok_iff {ε' : Type} {f : ε → ε'} {x : Except ε α} {a : α} :
    x.mapError f = .ok a ↔ x = .ok a := by
  cases x with
  | error e => constructor <;> intro same <;> cases same
  | ok b => constructor <;> intro same <;> cases same <;> rfl

/-- A fold is refused where one of its steps is. -/
theorem foldlM_eq_error {f : β → α → Except ε β} {xs : List α} {start : β} {e : ε}
    (refused : xs.foldlM f start = .error e) : ∃ x ∈ xs, ∃ b, f b x = .error e := by
  induction xs generalizing start with
  | nil => cases refused
  | cons x xs ih =>
      rw [List.foldlM_cons, bind_eq_error_iff] at refused
      rcases refused with here | ⟨next, -, later⟩
      · exact ⟨x, by simp, start, here⟩
      · obtain ⟨y, member, b, refusal⟩ := ih later
        exact ⟨y, List.mem_cons_of_mem x member, b, refusal⟩

namespace CheckError

@[simp] theorem code_within (e : CheckError) (name : String) : (e.within name).code = e.code := by
  rw [code, code, cause_within]

@[simp] theorem locate_ok (name : String) (a : α) : locate name (.ok a) = .ok a := rfl

@[simp] theorem locate_error (name : String) (e : CheckError) :
    (locate name (.error e) : Except CheckError α) = .error (e.within name) := rfl

theorem locate_eq_ok_iff {name : String} {x : Except CheckError α} {a : α} :
    locate name x = .ok a ↔ x = .ok a := by
  cases x <;> simp

theorem locate_eq_error_iff {name : String} {x : Except CheckError α} {e : CheckError} :
    locate name x = .error e ↔ ∃ e', x = .error e' ∧ e'.within name = e := by
  cases x <;> simp

end CheckError

/-! ## Entries with keys of their own -/

/-- A test that one entry alone passes finds it. -/
theorem find?_of_unique {test : α → Bool} {entries : List α} {entry : α}
    (alone : ∀ other ∈ entries, test other = true ↔ other = entry) (member : entry ∈ entries) :
    entries.find? test = some entry := by
  cases found : entries.find? test with
  | none => exact absurd ((alone entry member).2 rfl) (List.find?_eq_none.1 found entry member)
  | some first =>
      have passes : test first = true := List.find?_some found
      rw [(alone first (List.mem_of_find?_eq_some found)).1 passes]

section Keys

variable {κ : Type} {key : α → κ} {test : α → Bool} {entries : List α} {entry : α}
  (distinct : (entries.map key).Nodup)
  (tells : ∀ other ∈ entries, test other = true ↔ key other = key entry)

include distinct tells

/-- So does one that tells the key of the entry. -/
theorem find?_of_key (member : entry ∈ entries) : entries.find? test = some entry := by
  refine find?_of_unique (fun other there => (tells other there).trans ⟨fun same => ?_, ?_⟩) member
  · exact List.inj_on_of_nodup_map distinct there member same
  · exact congrArg key

/-- It finds the place of the entry, too. -/
theorem findIdx?_of_key {place : Nat} (there : entries[place]? = some entry) :
    entries.findIdx? test = some place := by
  obtain ⟨bound, rfl⟩ := List.getElem?_eq_some_iff.1 there
  have here : test entries[place] = true := (tells _ (List.getElem_mem bound)).2 rfl
  refine List.findIdx?_eq_some_iff_getElem.2 ⟨bound, here, fun earlier before found => ?_⟩
  have low : earlier < (entries.map key).length := by simp; omega
  have high : place < (entries.map key).length := by simpa using bound
  have same : (entries.map key)[earlier] = (entries.map key)[place] := by
    simpa using (tells _ (List.getElem_mem _)).1 found
  exact absurd (distinct.getElem_inj_iff.1 same) (Nat.ne_of_lt before)

end Keys

end MapAudit
