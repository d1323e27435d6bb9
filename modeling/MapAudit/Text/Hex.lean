/-!
# Hexadecimal digits

`digit` and `four` write digits in lower case; `digit?` and `value?` read them in
either case.
-/

namespace MapAudit.Text.Hex

set_option autoImplicit false

/-- The digit of a value below sixteen, in lower case. -/
def digit (n : Nat) : Char :=
  if n < 10 then Char.ofNat ('0'.toNat + n) else Char.ofNat ('a'.toNat + (n - 10))

/-- The last four digits of a number. -/
def four (n : Nat) : List Char :=
  [digit (n / 4096 % 16), digit (n / 256 % 16), digit (n / 16 % 16), digit (n % 16)]

def digit? (c : Char) : Option Nat :=
  if '0' ≤ c ∧ c ≤ '9' then some (c.toNat - '0'.toNat)
  else if 'a' ≤ c ∧ c ≤ 'f' then some (c.toNat - 'a'.toNat + 10)
  else if 'A' ≤ c ∧ c ≤ 'F' then some (c.toNat - 'A'.toNat + 10)
  else none

/-- The value of a text of one or more digits. -/
def value? (cs : List Char) : Option Nat :=
  if cs.isEmpty then none
  else cs.foldlM (fun n c => (digit? c).map fun d => 16 * n + d) 0

theorem digit?_digit {n : Nat} (small : n < 16) : digit? (digit n) = some n := by
  have every : ∀ k : Fin 16, digit? (digit k.val) = some k.val := by decide
  exact every ⟨n, small⟩

/-- Four digits read back as the number, if they hold all of it. -/
theorem value?_four {n : Nat} (fits : n < 65536) : value? (four n) = some n := by
  simp only [value?, four, List.isEmpty_cons, Bool.false_eq_true, if_false, List.foldlM_cons,
    List.foldlM_nil]
  simp only [digit?_digit (Nat.mod_lt _ (by decide : 0 < 16)), Option.map_some, Option.bind_eq_bind,
    Option.bind_some, Option.pure_def, Option.some.injEq]
  omega

end MapAudit.Text.Hex
