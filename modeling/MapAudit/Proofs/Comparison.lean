import MapAudit.Proofs.Reading

/-!
# Tag comparisons and their texts

A text compares a tag when a mark divides it: its first `!=`, or, where it has none, its first
`=`.  `FirstAt` says where the first mark stands without saying how it is found, and `Divided`
which of the two marks counts.  A text is divided exactly when it has an `=`
(`exists_divided_iff`), and then in one way.

A divided text is read as the comparison of its trimmed sides if these are a key and a value
(`readKeyValue_eq_ok_iff`), and `Refused` gives the reasons for which it is not.  A key and a value
written around a mark are read back as long as no mark stands further to the left; a mark may
also come about where a key that ends in `!` meets the `=`.
-/

namespace MapAudit

set_option autoImplicit false

/-! ## The first mark of a text -/

namespace Text

/-- The mark stands between `front` and `rest`, and nowhere further to the left. -/
structure FirstAt (mark text front rest : List Char) : Prop where
  split : text = front ++ mark ++ rest
  first : ∀ earlier later, text = earlier ++ mark ++ later → front.length ≤ earlier.length

variable {mark text front rest : List Char}

/-- A text is divided at a mark in one way. -/
theorem FirstAt.unique {front' rest' : List Char} (one : FirstAt mark text front rest)
    (other : FirstAt mark text front' rest') : front = front' ∧ rest = rest' := by
  have sameLength : front.length = front'.length :=
    le_antisymm (one.first _ _ other.split) (other.first _ _ one.split)
  have same : front ++ (mark ++ rest) = front' ++ (mark ++ rest') := by
    rw [← List.append_assoc, ← List.append_assoc, ← one.split, ← other.split]
  obtain ⟨fronts, rests⟩ := List.append_inj same sameLength
  exact ⟨fronts, List.append_cancel_left rests⟩

theorem FirstAt.isInfix (found : FirstAt mark text front rest) : mark <:+: text :=
  ⟨front, rest, found.split.symm⟩

theorem after?_eq_none_iff : after? mark text = none ↔ ¬ mark <+: text := by
  rw [Option.eq_none_iff_forall_ne_some, ← not_exists, not_iff_not]
  constructor
  · rintro ⟨rest, found⟩
    exact ⟨rest, (after?_eq_some_iff.1 found).symm⟩
  · rintro ⟨rest, whole⟩
    exact ⟨rest, after?_eq_some_iff.2 whole.symm⟩

/-- A text is not cut where the mark does not occur. -/
theorem cut?_eq_none_iff : cut? mark text = none ↔ ¬ mark <:+: text := by
  induction text with
  | nil => simp [cut?, after?_eq_none_iff]
  | cons c text ih =>
      rw [cut?, List.infix_cons_iff, not_or, ← after?_eq_none_iff, ← ih]
      cases after? mark (c :: text) with
      | some rest => simp
      | none => simp

theorem firstAt_of_cut? (cut : cut? mark text = some (front, rest)) :
    FirstAt mark text front rest := by
  refine ⟨cut?_eq_some cut, ?_⟩
  induction text generalizing front with
  | nil =>
      simp only [cut?, Option.map_eq_some_iff, Prod.mk.injEq] at cut
      obtain ⟨tail, -, rfl, rfl⟩ := cut
      intro earlier later _
      exact Nat.zero_le _
  | cons c text ih =>
      intro earlier later split
      simp only [cut?] at cut
      split at cut
      · cases cut
        exact Nat.zero_le _
      · rename_i absent
        obtain ⟨⟨front', rest'⟩, inner, same⟩ := Option.map_eq_some_iff.1 cut
        cases same
        -- The mark does not stand at the very beginning, so it stands behind `c`.
        cases earlier with
        | nil => exact absurd ⟨later, split.symm⟩ (after?_eq_none_iff.1 absent)
        | cons d earlier =>
            obtain ⟨-, behind⟩ := List.cons.inj split
            exact Nat.succ_le_succ (ih inner earlier later behind)

/-- **A text is cut at the first mark.** -/
theorem cut?_eq_some_iff : cut? mark text = some (front, rest) ↔ FirstAt mark text front rest := by
  refine ⟨firstAt_of_cut?, fun found => ?_⟩
  cases cut : cut? mark text with
  | none => exact absurd found.isInfix (cut?_eq_none_iff.1 cut)
  | some parts =>
      obtain ⟨rfl, rfl⟩ := found.unique (firstAt_of_cut? cut)
      rfl

theorem firstAt_of_not_mem {m : Char} (absent : m ∉ front) :
    FirstAt [m] (front ++ [m] ++ rest) front rest := by
  refine ⟨rfl, fun earlier later split => ?_⟩
  rw [List.append_assoc, List.append_assoc] at split
  rcases List.append_eq_append_iff.1 split with ⟨more, rfl, -⟩ | ⟨more, rfl, same⟩
  · simp
  · cases more with
    | nil => simp
    | cons c more =>
        obtain ⟨rfl, -⟩ := List.cons.inj same
        exact absurd (by simp) absent

/-- A mark of two different characters does not overlap with itself. -/
theorem firstAt_of_not_isInfix {m n : Char} (apart : m ≠ n) (absent : ¬ [m, n] <:+: front) :
    FirstAt [m, n] (front ++ [m, n] ++ rest) front rest := by
  refine ⟨rfl, fun earlier later split => ?_⟩
  rw [List.append_assoc, List.append_assoc] at split
  rcases List.append_eq_append_iff.1 split with ⟨more, rfl, -⟩ | ⟨more, rfl, same⟩
  · simp
  · match more with
    | [] => simp
    | [c] =>
        simp only [List.cons_append, List.nil_append, List.cons.injEq] at same
        exact absurd same.2.1.symm apart
    | c :: d :: more =>
        simp only [List.cons_append, List.cons.injEq] at same
        obtain ⟨rfl, rfl, -⟩ := same
        exact absurd ⟨earlier, more, by simp⟩ absent

end Text

namespace Predicate

open Text (FirstAt trimChars)

/-! ## Divided texts -/

inductive Comparison where
  | differs
  | equals

def Comparison.of : Comparison → String → String → Predicate
  | .differs => .tagDiffers
  | .equals => .tagEquals

/-- A text is divided at its first `!=`, or, if it has none, at its first `=`. -/
inductive Divided (text : List Char) : Comparison → List Char → List Char → Prop where
  | differs {front rest : List Char} (first : FirstAt ['!', '='] text front rest) :
      Divided text .differs front rest
  | equals {front rest : List Char} (without : ¬ ['!', '='] <:+: text)
      (first : FirstAt ['='] text front rest) : Divided text .equals front rest

/-- A text is divided exactly if it has an equals sign. -/
theorem exists_divided_iff {text : List Char} :
    (∃ comparison front rest, Divided text comparison front rest) ↔ '=' ∈ text := by
  constructor
  · rintro ⟨_, front, rest, first | ⟨-, first⟩⟩ <;> rw [first.split] <;> simp
  · intro member
    by_cases differs : ['!', '='] <:+: text
    · obtain ⟨⟨front, rest⟩, cut⟩ :=
        Option.ne_none_iff_exists'.1 (mt Text.cut?_eq_none_iff.1 (not_not_intro differs))
      exact ⟨.differs, front, rest, .differs (Text.cut?_eq_some_iff.1 cut)⟩
    · obtain ⟨front, rest, split⟩ := List.append_of_mem member
      have equals : ['='] <:+: text := ⟨front, rest, by rw [split]; simp⟩
      obtain ⟨⟨front, rest⟩, cut⟩ :=
        Option.ne_none_iff_exists'.1 (mt Text.cut?_eq_none_iff.1 (not_not_intro equals))
      exact ⟨.equals, front, rest, .equals differs (Text.cut?_eq_some_iff.1 cut)⟩

/-- The trimmed side of a divided text. -/
def side (half : List Char) : String :=
  String.ofList (trimChars half)

theorem trimmed_side (half : List Char) : Text.Trimmed (side half).toList := by
  rw [side, String.toList_ofList]
  exact Text.trimmed_trimChars half

theorem side_of_trimmed {text : String} (trimmed : Text.Trimmed text.toList) :
    side text.toList = text := by
  rw [side, Text.trimChars_of_trimmed trimmed, String.ofList_toList]

/-- What is made of the two sides of a divided text. -/
theorem keyAndValue_eq (text : String) (front rest : List Char) :
    keyAndValue text front rest =
      if side front = "" then .error (.unparseableKeyValue text)
      else if 255 < (side front).utf8ByteSize then .error (.invalidLiteral .tagKey (side front))
      else if 255 < (side rest).utf8ByteSize then .error (.invalidLiteral .tagValue (side rest))
      else .ok (side front, side rest) := by
  have trimmed : ∀ half, String.ofList (trimChars half) = side half := fun _ => rfl
  unfold keyAndValue
  simp only [trimmed]
  by_cases blank : side front = ""
  · rw [if_pos blank, if_pos blank]
    rfl
  · rw [if_neg blank, if_neg blank, checkTagKey, checkTagValue, maxTagBytes]
    by_cases longKey : 255 < (side front).utf8ByteSize
    · rw [if_pos longKey, if_neg (by omega)]
      rfl
    · rw [if_neg longKey, if_pos ⟨blank, by omega⟩]
      by_cases longValue : 255 < (side rest).utf8ByteSize
      · rw [if_pos longValue, if_neg (by omega)]
        rfl
      · rw [if_neg longValue, if_pos (by omega)]
        rfl

theorem readKeyValue_of_divided {text : String} {comparison : Comparison} {front rest : List Char}
    (divided : Divided text.toList comparison front rest) :
    readKeyValue text =
      (fun pair => comparison.of pair.1 pair.2) <$> keyAndValue text front rest := by
  unfold readKeyValue
  cases divided with
  | differs first =>
      rw [Text.cut?_eq_some_iff.2 first]
      dsimp only
      cases keyAndValue text front rest <;> rfl
  | equals without first =>
      rw [Text.cut?_eq_none_iff.2 without, Text.cut?_eq_some_iff.2 first]
      dsimp only
      cases keyAndValue text front rest <;> rfl

theorem readKeyValue_of_undivided {text : String} (absent : '=' ∉ text.toList) :
    readKeyValue text = .error (.unparseableKeyValue text) := by
  have undivided : ∀ comparison front rest, ¬ Divided text.toList comparison front rest :=
    fun _ _ _ divided => absent (exists_divided_iff.1 ⟨_, _, _, divided⟩)
  unfold readKeyValue
  cases cut : Text.cut? ['!', '='] text.toList with
  | some parts => exact absurd (.differs (Text.cut?_eq_some_iff.1 cut)) (undivided _ _ _)
  | none =>
      have without := Text.cut?_eq_none_iff.1 cut
      cases cut : Text.cut? ['='] text.toList with
      | some parts =>
          exact absurd (.equals without (Text.cut?_eq_some_iff.1 cut)) (undivided _ _ _)
      | none => rfl

/-! ## What a text is read as -/

/-- **A text is read as the comparison of its trimmed sides**, if it has sides and they are a
key and a value. -/
theorem readKeyValue_eq_ok_iff {text : String} {p : Predicate} :
    readKeyValue text = .ok p ↔ ∃ comparison front rest,
      Divided text.toList comparison front rest ∧
        IsTagKey (side front) ∧ IsTagValue (side rest) ∧
        p = comparison.of (side front) (side rest) := by
  have read : ∀ {comparison front rest}, Divided text.toList comparison front rest →
      (readKeyValue text = .ok p ↔ IsTagKey (side front) ∧ IsTagValue (side rest) ∧
        p = comparison.of (side front) (side rest)) := by
    intro comparison front rest divided
    rw [readKeyValue_of_divided divided, map_eq_ok_iff, keyAndValue_eq]
    constructor
    · rintro ⟨pair, accepted, rfl⟩
      split at accepted
      · cases accepted
      · split at accepted
        · cases accepted
        · split at accepted
          · cases accepted
          · cases accepted
            exact ⟨⟨⟨trimmed_side front, by omega⟩, ‹_›⟩, ⟨trimmed_side rest, by omega⟩, rfl⟩
    · rintro ⟨isKey, isValue, rfl⟩
      refine ⟨(side front, side rest), ?_, rfl⟩
      rw [if_neg isKey.filled, if_neg (not_lt.2 isKey.short), if_neg (not_lt.2 isValue.short)]
  constructor
  · intro accepted
    by_cases present : '=' ∈ text.toList
    · obtain ⟨comparison, front, rest, divided⟩ := exists_divided_iff.2 present
      exact ⟨comparison, front, rest, divided, (read divided).1 accepted⟩
    · rw [readKeyValue_of_undivided present] at accepted
      cases accepted
  · rintro ⟨comparison, front, rest, divided, sides⟩
    exact (read divided).2 sides

/-- Why a text is no comparison: nothing divides it, nothing stands before the mark, or one of
the sides is too long, the key being looked at first. -/
inductive Refused (text : String) : CheckError → Prop where
  | undivided (absent : '=' ∉ text.toList) : Refused text (.unparseableKeyValue text)
  | keyless {comparison : Comparison} {front rest : List Char}
      (divided : Divided text.toList comparison front rest) (blank : side front = "") :
      Refused text (.unparseableKeyValue text)
  | longKey {comparison : Comparison} {front rest : List Char}
      (divided : Divided text.toList comparison front rest) (filled : side front ≠ "")
      (long : 255 < (side front).utf8ByteSize) :
      Refused text (.invalidLiteral .tagKey (side front))
  | longValue {comparison : Comparison} {front rest : List Char}
      (divided : Divided text.toList comparison front rest) (isKey : IsTagKey (side front))
      (long : 255 < (side rest).utf8ByteSize) :
      Refused text (.invalidLiteral .tagValue (side rest))

/-- **A text that is not read is refused for a reason**, and it is not read if there is one. -/
theorem readKeyValue_eq_error_iff {text : String} {e : CheckError} :
    readKeyValue text = .error e ↔ Refused text e := by
  constructor
  · intro refusal
    by_cases present : '=' ∈ text.toList
    · obtain ⟨comparison, front, rest, divided⟩ := exists_divided_iff.2 present
      rw [readKeyValue_of_divided divided, map_eq_error_iff, keyAndValue_eq] at refusal
      split at refusal
      · cases refusal
        exact .keyless divided ‹_›
      · split at refusal
        · cases refusal
          exact .longKey divided ‹_› ‹_›
        · split at refusal
          · cases refusal
            exact .longValue divided ⟨⟨trimmed_side front, by omega⟩, ‹_›⟩ ‹_›
          · cases refusal
    · rw [readKeyValue_of_undivided present] at refusal
      cases refusal
      exact .undivided present
  · intro refused
    cases refused with
    | undivided absent => exact readKeyValue_of_undivided absent
    | keyless divided blank =>
        rw [readKeyValue_of_divided divided, map_eq_error_iff, keyAndValue_eq, if_pos blank]
    | longKey divided filled long =>
        rw [readKeyValue_of_divided divided, map_eq_error_iff, keyAndValue_eq, if_neg filled,
          if_pos long]
    | longValue divided isKey long =>
        rw [readKeyValue_of_divided divided, map_eq_error_iff, keyAndValue_eq,
          if_neg isKey.filled, if_neg (not_lt.2 isKey.short), if_pos long]

/-! ## Comparisons written as text -/

theorem divided_differs {key value : String} (without : ¬ ['!', '='] <:+: key.toList) :
    Divided (key ++ "!=" ++ value).toList .differs key.toList value.toList := by
  rw [String.toList_append, String.toList_append]
  exact .differs (Text.firstAt_of_not_isInfix (by decide) without)

/-- No `!=` comes about where a key and a value are written around an `=`. -/
theorem divided_equals {key value : String} (free : '=' ∉ key.toList)
    (closed : key.toList.getLast? ≠ some '!') (without : ¬ ['!', '='] <:+: value.toList) :
    Divided (key ++ "=" ++ value).toList .equals key.toList value.toList := by
  rw [String.toList_append, String.toList_append]
  refine .equals ?_ (Text.firstAt_of_not_mem free)
  rintro ⟨before, after, split⟩
  rw [List.append_assoc, List.append_assoc] at split
  rcases List.append_eq_append_iff.1 split with ⟨more, ends, same⟩ | ⟨more, -, same⟩
  · match more with
    | [] => simp at same
    | [c] =>
        simp only [List.cons_append, List.nil_append, List.cons.injEq] at same
        exact closed (by rw [ends, ← same.1]; simp)
    | c :: d :: more =>
        simp only [List.cons_append, List.cons.injEq] at same
        exact free (by rw [ends, ← same.2.1]; simp)
  · cases more with
    | nil => simp at same
    | cons c more =>
        obtain ⟨-, inside⟩ := List.cons.inj same
        exact without ⟨more, after, by rw [List.append_assoc]; exact inside.symm⟩

theorem readKeyValue_of_sides {text : String} {comparison : Comparison} {key value : String}
    (divided : Divided text.toList comparison key.toList value.toList) (isKey : IsTagKey key)
    (isValue : IsTagValue value) : readKeyValue text = .ok (comparison.of key value) := by
  have keyKept : side key.toList = key := side_of_trimmed isKey.trimmed
  have valueKept : side value.toList = value := side_of_trimmed isValue.trimmed
  exact readKeyValue_eq_ok_iff.2 ⟨comparison, key.toList, value.toList, divided,
    keyKept.symm ▸ isKey, valueKept.symm ▸ isValue, by rw [keyKept, valueKept]⟩

/-! ## The reader as a whole -/

section Kinds

variable {text : String}

theorem readKeyValue_eq_tagDiffers_iff {key value : String} :
    readKeyValue text = .ok (.tagDiffers key value) ↔
      ∃ front rest, FirstAt ['!', '='] text.toList front rest ∧
        key = side front ∧ value = side rest ∧ IsTagKey key ∧ IsTagValue value := by
  rw [readKeyValue_eq_ok_iff]
  constructor
  · rintro ⟨comparison, front, rest, divided, isKey, isValue, same⟩
    cases divided with
    | differs first =>
        cases same
        exact ⟨front, rest, first, rfl, rfl, isKey, isValue⟩
    | equals without first => cases same
  · rintro ⟨front, rest, first, rfl, rfl, isKey, isValue⟩
    exact ⟨.differs, front, rest, .differs first, isKey, isValue, rfl⟩

theorem readKeyValue_eq_tagEquals_iff {key value : String} :
    readKeyValue text = .ok (.tagEquals key value) ↔
      ¬ ['!', '='] <:+: text.toList ∧
        ∃ front rest, FirstAt ['='] text.toList front rest ∧
          key = side front ∧ value = side rest ∧ IsTagKey key ∧ IsTagValue value := by
  rw [readKeyValue_eq_ok_iff]
  constructor
  · rintro ⟨comparison, front, rest, divided, isKey, isValue, same⟩
    cases divided with
    | differs first => cases same
    | equals without first =>
        cases same
        exact ⟨without, front, rest, first, rfl, rfl, isKey, isValue⟩
  · rintro ⟨without, front, rest, first, rfl, rfl, isKey, isValue⟩
    exact ⟨.equals, front, rest, .equals without first, isKey, isValue, rfl⟩

theorem codes_ne : "GEOCHECK_UNPARSEABLE_KEY_VALUE" ≠ "GEOCHECK_INVALID_LITERAL" := by
  decide

theorem code_unparseable_iff :
    (∃ e, readKeyValue text = .error e ∧ e.code = "GEOCHECK_UNPARSEABLE_KEY_VALUE") ↔
      '=' ∉ text.toList ∨ ∃ comparison front rest,
        Divided text.toList comparison front rest ∧ side front = "" := by
  simp only [readKeyValue_eq_error_iff]
  constructor
  · rintro ⟨e, refused, code⟩
    cases refused with
    | undivided absent => exact Or.inl absent
    | keyless divided blank => exact Or.inr ⟨_, _, _, divided, blank⟩
    | longKey => exact absurd code codes_ne.symm
    | longValue => exact absurd code codes_ne.symm
  · rintro (absent | ⟨comparison, front, rest, divided, blank⟩)
    · exact ⟨_, .undivided absent, rfl⟩
    · exact ⟨_, .keyless divided blank, rfl⟩

theorem code_invalidLiteral_iff :
    (∃ e, readKeyValue text = .error e ∧ e.code = "GEOCHECK_INVALID_LITERAL") ↔
      ∃ comparison front rest, Divided text.toList comparison front rest ∧ side front ≠ "" ∧
        (255 < (side front).utf8ByteSize ∨ 255 < (side rest).utf8ByteSize) := by
  simp only [readKeyValue_eq_error_iff]
  constructor
  · rintro ⟨e, refused, code⟩
    cases refused with
    | undivided => exact absurd code codes_ne
    | keyless => exact absurd code codes_ne
    | longKey divided filled long => exact ⟨_, _, _, divided, filled, Or.inl long⟩
    | longValue divided isKey long => exact ⟨_, _, _, divided, isKey.filled, Or.inr long⟩
  · rintro ⟨comparison, front, rest, divided, filled, long⟩
    by_cases longKey : 255 < (side front).utf8ByteSize
    · exact ⟨_, .longKey divided filled longKey, rfl⟩
    · have isKey : IsTagKey (side front) := ⟨⟨trimmed_side front, not_lt.1 longKey⟩, filled⟩
      exact ⟨_, .longValue divided isKey (long.resolve_left longKey), rfl⟩

/-- No other refusal comes of a comparison. -/
theorem code_of_readKeyValue {e : CheckError} (refusal : readKeyValue text = .error e) :
    e.code = "GEOCHECK_UNPARSEABLE_KEY_VALUE" ∨ e.code = "GEOCHECK_INVALID_LITERAL" := by
  cases readKeyValue_eq_error_iff.1 refusal with
  | undivided => exact Or.inl rfl
  | keyless => exact Or.inl rfl
  | longKey => exact Or.inr rfl
  | longValue => exact Or.inr rfl

end Kinds

/-- **Which texts are comparisons, and of what.**  A text with a `!=` is divided at the first
one, a text without at its first `=`; the sides are trimmed, and are a key and a value of at
most 255 bytes each, the key not being empty.  A text without an `=`, or without a key, cannot
be divided; otherwise one of its sides is too long.  So what is written as a key, a mark and a
value is read back, if no mark stands further to the left: none inside the key, and for an `=`
also none that the end of the key begins or that the value has. -/
theorem readKeyValue_reads_comparisons :
    (∀ text : String,
      (∀ key value, readKeyValue text = .ok (.tagDiffers key value) ↔
        ∃ front rest, FirstAt ['!', '='] text.toList front rest ∧
          key = side front ∧ value = side rest ∧ IsTagKey key ∧ IsTagValue value) ∧
      (∀ key value, readKeyValue text = .ok (.tagEquals key value) ↔
        ¬ ['!', '='] <:+: text.toList ∧
          ∃ front rest, FirstAt ['='] text.toList front rest ∧
            key = side front ∧ value = side rest ∧ IsTagKey key ∧ IsTagValue value) ∧
      (∀ p, readKeyValue text = .ok p →
        ∃ key value, p = .tagDiffers key value ∨ p = .tagEquals key value) ∧
      ((∃ e, readKeyValue text = .error e ∧ e.code = "GEOCHECK_UNPARSEABLE_KEY_VALUE") ↔
        '=' ∉ text.toList ∨ ∃ comparison front rest,
          Divided text.toList comparison front rest ∧ side front = "") ∧
      ((∃ e, readKeyValue text = .error e ∧ e.code = "GEOCHECK_INVALID_LITERAL") ↔
        ∃ comparison front rest, Divided text.toList comparison front rest ∧ side front ≠ "" ∧
          (255 < (side front).utf8ByteSize ∨ 255 < (side rest).utf8ByteSize)) ∧
      ∀ e, readKeyValue text = .error e →
        e.code = "GEOCHECK_UNPARSEABLE_KEY_VALUE" ∨ e.code = "GEOCHECK_INVALID_LITERAL") ∧
    ∀ key value, IsTagKey key → IsTagValue value →
      (¬ ['!', '='] <:+: key.toList →
        readKeyValue (key ++ "!=" ++ value) = .ok (.tagDiffers key value)) ∧
      ('=' ∉ key.toList → key.toList.getLast? ≠ some '!' → ¬ ['!', '='] <:+: value.toList →
        readKeyValue (key ++ "=" ++ value) = .ok (.tagEquals key value)) := by
  refine ⟨fun text => ⟨fun key value => readKeyValue_eq_tagDiffers_iff,
    fun key value => readKeyValue_eq_tagEquals_iff, fun p read => ?_, code_unparseable_iff,
    code_invalidLiteral_iff, fun e => code_of_readKeyValue⟩,
    fun key value isKey isValue => ⟨?_, ?_⟩⟩
  · obtain ⟨comparison, front, rest, -, -, -, rfl⟩ := readKeyValue_eq_ok_iff.1 read
    cases comparison with
    | differs => exact ⟨_, _, Or.inl rfl⟩
    | equals => exact ⟨_, _, Or.inr rfl⟩
  · exact fun without => readKeyValue_of_sides (divided_differs without) isKey isValue
  · exact fun free closed without =>
      readKeyValue_of_sides (divided_equals free closed without) isKey isValue

example : readKeyValue "a!!= b=c" = .ok (.tagDiffers "a!" "b=c") := rfl

example : readKeyValue "a=b !=c" = .ok (.tagDiffers "a=b" "c") := rfl

end Predicate

end MapAudit
