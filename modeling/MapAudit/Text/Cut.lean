/-!
# Joining and cutting texts

`joinWith` writes texts one after another with a separator between them.  `after?`
drops a mark a text begins with, and `cut?` splits a text at the first place where the
mark stands.  Main statement: a cut loses nothing (`cut?_eq_some`).
-/

namespace MapAudit.Text

set_option autoImplicit false

/-- The texts one after another, with the separator between neighbours. -/
def joinWith (separator : String) : List String → String
  | [] => ""
  | [s] => s
  | s :: next :: rest => s ++ separator ++ joinWith separator (next :: rest)

theorem joinWith_cons_cons (separator s next : String) (rest : List String) :
    joinWith separator (s :: next :: rest) = s ++ separator ++ joinWith separator (next :: rest) :=
  rfl

/-- What follows `mark` in a text that begins with it. -/
def after? : List Char → List Char → Option (List Char)
  | [], rest => some rest
  | _ :: _, [] => none
  | m :: mark, c :: cs => if m = c then after? mark cs else none

/-- The parts before and after the first occurrence of `mark`. -/
def cut? (mark : List Char) : List Char → Option (List Char × List Char)
  | [] => (after? mark []).map fun rest => ([], rest)
  | c :: cs =>
      match after? mark (c :: cs) with
      | some rest => some ([], rest)
      | none => (cut? mark cs).map fun parts => (c :: parts.1, parts.2)

/-- Whether `mark` occurs in a text; the empty mark occurs everywhere. -/
def occurs (mark text : String) : Bool :=
  (cut? mark.toList text.toList).isSome

theorem after?_eq_some_iff {mark cs rest : List Char} :
    after? mark cs = some rest ↔ cs = mark ++ rest := by
  induction mark generalizing cs with
  | nil => simp [after?, eq_comm]
  | cons m mark ih =>
      cases cs with
      | nil => simp [after?]
      | cons c cs =>
          by_cases same : m = c
          · subst same; simp [after?, ih]
          · simp [after?, same, Ne.symm same]

theorem length_after? {mark cs rest : List Char} (found : after? mark cs = some rest) :
    rest.length + mark.length = cs.length := by
  rw [after?_eq_some_iff.1 found, List.length_append, Nat.add_comm]

/-- A cut loses nothing. -/
theorem cut?_eq_some {mark cs front rest : List Char} (cut : cut? mark cs = some (front, rest)) :
    cs = front ++ mark ++ rest := by
  induction cs generalizing front with
  | nil =>
      simp only [cut?, Option.map_eq_some_iff, Prod.mk.injEq] at cut
      obtain ⟨tail, found, rfl, rfl⟩ := cut
      simpa using after?_eq_some_iff.1 found
  | cons c cs ih =>
      simp only [cut?] at cut
      split at cut
      · rename_i tail found
        simp only [Option.some.injEq, Prod.mk.injEq] at cut
        obtain ⟨rfl, rfl⟩ := cut
        simpa using after?_eq_some_iff.1 found
      · simp only [Option.map_eq_some_iff, Prod.mk.injEq] at cut
        obtain ⟨⟨front', rest'⟩, inner, rfl, rfl⟩ := cut
        simp [ih inner]

theorem length_cut? {mark cs front rest : List Char} (cut : cut? mark cs = some (front, rest)) :
    rest.length + mark.length ≤ cs.length := by
  rw [cut?_eq_some cut]
  simp only [List.length_append]
  omega

end MapAudit.Text
