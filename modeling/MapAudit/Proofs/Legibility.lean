import MapAudit.Json.Reader
import MapAudit.Log.Line
import MapAudit.Proofs.Utf8
import Mathlib.Data.List.Sort

/-!
# Log lines can be read back

A log line is one JSON object on one line, whatever texts it is made of.  An escaped text
reads back as the text, from its opening quote and whatever follows (`scanString_escape`), so
the tokens of a line are those of its members (`tokens_line`), and reading it gives the members
in their order (`read_line`).  The members after the first two are the fields, sorted by the
bytes of their keys (`StablySorted`).
-/

namespace MapAudit

set_option autoImplicit false

/-! ## Texts between quotes -/

namespace Json

/-- A token at the front of a text. -/
theorem tokens_cons {c : Char} {rest more : List Char} {t : Token} (solid : isGap c = false)
    (found : scanToken c rest = some (t, more)) :
    tokens (c :: rest) = (tokens more).map (t :: ·) := by
  have here : (c :: rest).dropWhile isGap = c :: rest := List.dropWhile_cons_of_neg (by simp [solid])
  rw [tokens]
  split
  · rename_i gap
    rw [here] at gap
    cases gap
  · rename_i gap
    rw [here] at gap
    cases gap
    split
    · rename_i missing
      rw [found] at missing
      cases missing
    · rename_i again
      rw [found] at again
      cases again
      rfl

theorem tokens_newline : tokens ['\n'] = some [] := by
  rw [tokens]
  rfl

def Value.textMembers? : Value → Option (List (String × String))
  | .object members => members.mapM fun m =>
      match m.2 with
      | .string us => do return (← decode m.1, ← decode us)
      | _ => none
  | _ => none

end Json

namespace Log

open Json (StringUnit Token Value scanString tokens units)

/-- **One step**: a character that was escaped is read back. -/
theorem scanString_escapeChar (c : Char) (rest : List Char) :
    scanString (escapeChar c ++ rest) =
      (scanString rest).map fun found => (.char c :: found.1, found.2) := by
  unfold escapeChar
  split_ifs with quote backslash newline feed tab control
  · subst quote; rfl
  · subst backslash; rfl
  · subst newline; rfl
  · subst feed; rfl
  · subst tab; rfl
  · have small : c.toNat ≤ 0x9F := by
      simp only [isControl, Bool.or_eq_true, Bool.and_eq_true, decide_eq_true_eq] at control
      omega
    have code : Text.Hex.value? (Text.Hex.four c.toNat) = some c.toNat :=
      Text.Hex.value?_four (by omega)
    have unit : Json.unitOf c.toNat = .char c := by
      rw [Json.unitOf, if_neg (by omega), Char.ofNat_toNat]
    simp only [Text.Hex.four, List.cons_append, List.nil_append, scanString] at code ⊢
    rw [code]
    simp only [unit]
  · have plain : ¬ (c = '\\' ∨ c.toNat < 0x20) := by
      simp only [isControl, Bool.or_eq_true, Bool.and_eq_true, decide_eq_true_eq] at control
      grind
    simp only [List.cons_append, List.nil_append]
    rw [scanString.eq_def]
    split <;> simp_all

/-- **What is escaped reads back**, up to the closing quote. -/
theorem scanString_escape (cs rest : List Char) :
    scanString (cs.flatMap escapeChar ++ '"' :: rest) = some (cs.map .char, rest) := by
  induction cs with
  | nil => rfl
  | cons c cs ih => simp [scanString_escapeChar, ih]

/-- A text that was escaped and quoted is one token. -/
theorem tokens_quoted (s : String) (rest : List Char) :
    tokens ('"' :: ((escape s).toList ++ '"' :: rest)) =
      (tokens rest).map (.string (units s) :: ·) := by
  refine Json.tokens_cons rfl ?_
  change (scanString _).map _ = _
  rw [escape, String.toList_ofList, scanString_escape]
  rfl

/-! ## Members -/

def memberTokens (m : String × String) : List Token :=
  [.string (units m.1), .colon, .string (units m.2)]

theorem tokens_member (m : String × String) (rest : List Char) :
    tokens ((member m).toList ++ rest) = (tokens rest).map (memberTokens m ++ ·) := by
  have shape : (member m).toList ++ rest =
      '"' :: ((escape m.1).toList ++ '"' :: ':' :: '"' :: ((escape m.2).toList ++ '"' :: rest)) := by
    simp [member]
  have colon : tokens (':' :: '"' :: ((escape m.2).toList ++ '"' :: rest)) =
      (tokens ('"' :: ((escape m.2).toList ++ '"' :: rest))).map (.colon :: ·) :=
    Json.tokens_cons rfl rfl
  rw [shape, tokens_quoted, colon, tokens_quoted]
  simp [memberTokens, Function.comp_def]

/-- The tokens of members with commas between them. -/
def listTokens : List (String × String) → List Token
  | [] => []
  | [m] => memberTokens m
  | m :: next :: rest => memberTokens m ++ .comma :: listTokens (next :: rest)

theorem tokens_members (ms : List (String × String)) (rest : List Char) :
    tokens ((Text.joinWith "," (ms.map member)).toList ++ rest) =
      (tokens rest).map (listTokens ms ++ ·) := by
  fun_induction listTokens ms with
  | case1 => simp [Text.joinWith]
  | case2 m => exact tokens_member m rest
  | case3 m next others ih =>
      have comma : ∀ cs, tokens (',' :: cs) = (tokens cs).map (.comma :: ·) :=
        fun cs => Json.tokens_cons rfl rfl
      simp only [List.map_cons] at ih ⊢
      rw [Text.joinWith_cons_cons, String.toList_append, String.toList_append, List.append_assoc,
        List.append_assoc, tokens_member]
      simp [comma, ih, Function.comp_def]

/-- A line is the tokens of one object, and nothing else. -/
theorem tokens_line (e : Entry) :
    tokens e.line.toList = some (.openObject :: (listTokens e.members ++ [.closeObject])) := by
  have shape : e.line.toList =
      '\x7b' :: ((Text.joinWith "," (e.members.map member)).toList ++ ['\x7d', '\n']) := by
    simp [Entry.line, Entry.text]
  have opened : ∀ cs, tokens ('\x7b' :: cs) = (tokens cs).map (.openObject :: ·) :=
    fun cs => Json.tokens_cons rfl rfl
  have closed : tokens ['\x7d', '\n'] = (tokens ['\n']).map (.closeObject :: ·) :=
    Json.tokens_cons rfl rfl
  rw [shape, opened, tokens_members, closed, Json.tokens_newline]
  rfl

/-- A member as it is read. -/
def asRead (m : String × String) : List StringUnit × Value :=
  (units m.1, .string (units m.2))

/-- Members are read one after another. -/
theorem foldlM_listTokens (before : List (List StringUnit × Value)) (m : String × String)
    (rest : List (String × String)) :
    (listTokens (m :: rest) ++ [Token.closeObject]).foldlM Json.State.step (.key before []) =
      some (.after (.object (before ++ (m :: rest).map asRead)) []) := by
  induction rest generalizing before m with
  | nil => rfl
  | cons next rest ih =>
      have onward := ih (before ++ [asRead m]) next
      rw [List.append_assoc] at onward
      exact onward

/-- The tokens of one object are read as it, with its members in order. -/
theorem foldlM_object (m : String × String) (rest : List (String × String)) :
    (Token.openObject :: (listTokens (m :: rest) ++ [.closeObject])).foldlM Json.State.step
        (.value []) =
      some (.after (.object ((m :: rest).map asRead)) []) := by
  -- The first key is read alike whether it may be missing or not.
  cases rest with
  | nil => exact foldlM_listTokens [] m []
  | cons next rest => exact foldlM_listTokens [] m (next :: rest)

/-- **A line is read as the object of its members**, in their order. -/
theorem read_line (e : Entry) : Json.read e.line = some (.object (e.members.map asRead)) := by
  rw [Json.read, tokens_line, Option.bind_eq_bind, Option.bind_some, Entry.members, foldlM_object]
  rfl

/-! ## Control characters -/

/-- Whether a text has no control characters. -/
def isClean (s : String) : Bool :=
  s.toList.all fun c => !isControl c

@[simp] theorem isClean_append (s t : String) : isClean (s ++ t) = (isClean s && isClean t) := by
  simp [isClean]

theorem isControl_digit (n : Nat) : isControl (Text.Hex.digit (n % 16)) = false := by
  have every : ∀ k : Fin 16, isControl (Text.Hex.digit k.val) = false := by decide
  exact every ⟨n % 16, Nat.mod_lt n (by decide)⟩

theorem all_escapeChar (c : Char) : (escapeChar c).all fun d => !isControl d := by
  unfold escapeChar
  split_ifs with quote backslash newline feed tab control
  · rfl
  · rfl
  · rfl
  · rfl
  · rfl
  · simp only [Text.Hex.four, List.all_cons, List.all_nil, isControl_digit]
    rfl
  · simpa using control

theorem isClean_escape (s : String) : isClean (escape s) := by
  rw [isClean, escape, String.toList_ofList, List.all_flatMap]
  exact List.all_eq_true.2 fun c _ => all_escapeChar c

theorem isClean_member (m : String × String) : isClean (member m) := by
  have quote : isClean "\"" := rfl
  have middle : isClean "\":\"" := rfl
  simp [member, quote, middle, isClean_escape]

theorem isClean_joinWith {separator : String} {texts : List String} (between : isClean separator)
    (each : ∀ s ∈ texts, isClean s) : isClean (Text.joinWith separator texts) := by
  fun_induction Text.joinWith separator texts with
  | case1 => rfl
  | case2 s => exact each s List.mem_cons_self
  | case3 s next rest ih =>
      have here : isClean s := each s List.mem_cons_self
      have later := ih fun t member => each t (List.mem_cons_of_mem s member)
      simp [here, between, later]

/-- **A line has no control characters** before its end. -/
theorem isClean_text (e : Entry) : isClean e.text := by
  have opening : isClean "\x7b" := rfl
  have closing : isClean "\x7d" := rfl
  have inner : isClean (Text.joinWith "," (e.members.map member)) := by
    refine isClean_joinWith rfl fun s inside => ?_
    obtain ⟨m, -, rfl⟩ := List.mem_map.1 inside
    exact isClean_member m
  simp [Entry.text, opening, inner, closing]

/-! ## The order of fields -/

/-- The fields in the byte order of their keys, where fields of one key keep their order. -/
structure StablySorted (fields sorted : List (String × String)) : Prop where
  same : sorted.Perm fields
  ordered : sorted.Pairwise fun a b => Text.bytes a.1 ≤ Text.bytes b.1
  stable : ∀ key, (sorted.filter fun field => field.1 = key) =
    fields.filter fun field => field.1 = key

/-- Whether a field may stand before another. -/
def byKey (a b : String × String) : Bool :=
  decide (a.1 ≤ b.1)

theorem byKey_trans (a b c : String × String) (first : byKey a b) (second : byKey b c) :
    byKey a c := by
  simp only [byKey, decide_eq_true_eq] at first second ⊢
  exact first.trans second

theorem byKey_total (a b : String × String) : byKey a b || byKey b a := by
  simpa [byKey] using le_total a.1 b.1

theorem sortFields_eq (fields : List (String × String)) :
    sortFields fields = fields.mergeSort byKey := rfl

theorem perm_sortFields (fields : List (String × String)) : (sortFields fields).Perm fields :=
  List.mergeSort_perm fields byKey

theorem pairwise_sortFields (fields : List (String × String)) :
    (sortFields fields).Pairwise fun a b => a.1 ≤ b.1 := by
  rw [sortFields_eq]
  exact (List.pairwise_mergeSort byKey_trans byKey_total fields).imp of_decide_eq_true

/-- **Sorting is stable**: the fields of one key are a part of the list that is sorted
already, and so is kept. -/
theorem filter_sortFields (fields : List (String × String)) (key : String) :
    ((sortFields fields).filter fun field => field.1 = key) =
      fields.filter fun field => field.1 = key := by
  have alike : (fields.filter fun field => field.1 = key).Pairwise fun a b => byKey a b := by
    refine List.pairwise_of_forall_mem_list fun a left b right => ?_
    simp only [List.mem_filter, decide_eq_true_eq] at left right
    simp [byKey, left.2, right.2]
  have part : (fields.filter fun field => field.1 = key).Sublist (sortFields fields) :=
    List.sublist_mergeSort byKey_trans byKey_total alike List.filter_sublist
  have kept := part.filter fun field => decide (field.1 = key)
  rw [List.filter_filter] at kept
  simp only [Bool.and_self] at kept
  exact (kept.eq_of_length ((perm_sortFields fields).filter _).length_eq.symm).symm

theorem stablySorted_sortFields (fields : List (String × String)) :
    StablySorted fields (sortFields fields) where
  same := perm_sortFields fields
  ordered := (pairwise_sortFields fields).imp fun smaller => Text.bytes_le_iff.2 smaller
  stable := filter_sortFields fields

/-- Fields under keys of their own have one order. -/
theorem sortFields_of_perm {fields others : List (String × String)}
    (distinct : (fields.map (·.1)).Nodup) (same : others.Perm fields) :
    sortFields others = sortFields fields := by
  have sorted : (sortFields others).Perm (sortFields fields) :=
    (perm_sortFields others).trans (same.trans (perm_sortFields fields).symm)
  have determined : ∀ a b, a ∈ sortFields others → b ∈ sortFields fields →
      a.1 ≤ b.1 → b.1 ≤ a.1 → a = b := by
    intro a b left right smaller larger
    have left : a ∈ fields := same.mem_iff.1 ((perm_sortFields others).mem_iff.1 left)
    have right : b ∈ fields := (perm_sortFields fields).mem_iff.1 right
    exact List.inj_on_of_nodup_map distinct left right (le_antisymm smaller larger)
  exact sorted.eq_of_pairwise determined (pairwise_sortFields others) (pairwise_sortFields fields)

/-! ## Lines -/

theorem textMembers?_asRead (ms : List (String × String)) :
    (Json.Value.object (ms.map asRead)).textMembers? = some ms := by
  induction ms with
  | nil => rfl
  | cons m rest ih =>
      simp only [Json.Value.textMembers?, asRead, List.map_cons, List.mapM_cons,
        Json.decode_units] at ih ⊢
      rw [ih]
      rfl

/-- **A log line says what it is given.**  It ends in a newline and has no other control
character.  Read as JSON it is an object of texts: the event, the severity, and the fields
in the byte order of their keys, where fields of one key keep their order, and every text is
the one that was given.  Fields under keys of their own may be given in any order. -/
theorem line_reads_back (severity : Severity) (event : String)
    (fields : List (String × String)) :
    (∃ body, Entry.line ⟨severity, event, fields⟩ = body ++ "\n" ∧
      ∀ c ∈ body.toList, isControl c = false) ∧
    (∃ sorted, StablySorted fields sorted ∧
      (Json.read (Entry.line ⟨severity, event, fields⟩)).bind Value.textMembers? =
        some (("event", event) :: ("severity", severity.name) :: sorted)) ∧
    ((fields.map (·.1)).Nodup → ∀ others : List (String × String), others.Perm fields →
      Entry.line ⟨severity, event, others⟩ = Entry.line ⟨severity, event, fields⟩) := by
  refine ⟨⟨Entry.text ⟨severity, event, fields⟩, rfl, fun c inside => ?_⟩,
    ⟨sortFields fields, stablySorted_sortFields fields, ?_⟩, fun distinct others same => ?_⟩
  · have clean := List.all_eq_true.1 (isClean_text ⟨severity, event, fields⟩) c inside
    simpa using clean
  · rw [read_line, Option.bind_some, textMembers?_asRead]
    rfl
  · have members : Entry.members ⟨severity, event, others⟩ =
        Entry.members ⟨severity, event, fields⟩ := by
      rw [Entry.members, Entry.members, sortFields_of_perm distinct same]
    rw [Entry.line, Entry.line, Entry.text, Entry.text, members]

namespace Example

/-- Fields with quotes, control characters and texts that look like escapes. -/
def noisy : List (String × String) :=
  [("sql", "a \"b\"\n\tc"), ("é", "\\u0041\x00"), ("path", "\u0085\\"), ("😀", "")]

end Example

theorem noisy_reads_back :
    (Example.noisy.map (·.1)).Nodup ∧
      Entry.line ⟨.warn, "\x7f\"", Example.noisy.reverse⟩ =
        Entry.line ⟨.warn, "\x7f\"", Example.noisy⟩ ∧
      ∃ sorted, StablySorted Example.noisy sorted ∧
        (Json.read (Entry.line ⟨.warn, "\x7f\"", Example.noisy⟩)).bind Value.textMembers? =
          some (("event", "\x7f\"") :: ("severity", "WARN") :: sorted) := by
  have distinct : (Example.noisy.map (·.1)).Nodup := by decide
  obtain ⟨-, read, sorted⟩ := line_reads_back .warn "\x7f\"" Example.noisy
  exact ⟨distinct, sorted distinct _ (List.reverse_perm Example.noisy), read⟩

end Log

end MapAudit
