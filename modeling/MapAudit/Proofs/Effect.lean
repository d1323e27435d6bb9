import MapAudit.Proofs.SingleStatement

/-!
# What a statement does to relations

A statement creates a relation, drops one, or only asks; and it reads the relations
that stand behind `FROM` and `JOIN`.  `Sql.effect` finds that out from the text of
any statement, word by word and past its literals.

The statements of requests do what they are written for (`Request.Legible.effect_sql`):
they read what the request depends on, whatever the tags in it hold, and create
its relation unless they report features.
-/

namespace MapAudit

set_option autoImplicit false

namespace Sql

/-! ## Words -/

/-- What is a token of its own. -/
def isPunctuation (c : Char) : Bool :=
  [';', ',', '(', ')'].contains c

/-- What stands between words. -/
def isGap (c : Char) : Bool :=
  Text.isBlank c || isPunctuation c

/-- A word at its end, if one has begun. -/
def ended (word : List Char) : List (List Char) :=
  if word = [] then [] else [word]

/-- The words and the punctuation of a text, where `word` is what stands before the text. -/
def lexemesFrom (word : List Char) : List Char → List (List Char)
  | [] => ended word
  | c :: rest =>
      if Text.isBlank c then ended word ++ lexemesFrom [] rest
      else if isPunctuation c then ended word ++ [c] :: lexemesFrom [] rest
      else lexemesFrom (word ++ [c]) rest

/-- The words and the punctuation of a text. -/
def lexemes (text : List Char) : List (List Char) :=
  lexemesFrom [] text

def words (text : List Char) : List String :=
  ((lexemes text).filter fun word => !word.all isPunctuation).map String.ofList

theorem lexemesFrom_gap {g : Char} (gap : isGap g) (word rest : List Char) :
    lexemesFrom word (g :: rest) = ended word ++ (lexemes [g] ++ lexemes rest) := by
  by_cases blank : Text.isBlank g
  · simp [lexemes, lexemesFrom, ended, blank]
  · have mark : isPunctuation g := by simpa [isGap, blank] using gap
    simp [lexemes, lexemesFrom, ended, blank, mark]

theorem lexemes_gap {g : Char} (gap : isGap g) (rest : List Char) :
    lexemes (g :: rest) = lexemes [g] ++ lexemes rest :=
  lexemesFrom_gap gap [] rest

/-- A gap ends the word at hand, and what follows is read on its own. -/
theorem lexemesFrom_append {more : List Char} (opens : more.head?.all isGap)
    (word text : List Char) :
    lexemesFrom word (text ++ more) = lexemesFrom word text ++ lexemes more := by
  induction text generalizing word with
  | nil =>
      cases more with
      | nil => exact (List.append_nil _).symm
      | cons g rest =>
          have gap : isGap g := by simpa using opens
          rw [List.nil_append, lexemesFrom_gap gap, ← lexemes_gap gap, lexemesFrom]
  | cons c text ih =>
      rw [List.cons_append, lexemesFrom, lexemesFrom, ih, ih]
      split
      · rw [List.append_assoc]
      · split
        · rw [List.append_assoc, List.cons_append]
        · rfl

/-- **Texts one after another keep their words and their punctuation** when there is a gap
between them. -/
theorem lexemes_append {text more : List Char}
    (apart : text.getLast?.all isGap ∨ more.head?.all isGap) :
    lexemes (text ++ more) = lexemes text ++ lexemes more := by
  rcases apart with closes | opens
  · rcases List.eq_nil_or_concat text with rfl | ⟨front, g, rfl⟩
    · rfl
    · have gap : isGap g := by simpa using closes
      have opens (rest : List Char) : (g :: rest).head?.all isGap := by simpa using gap
      rw [List.concat_eq_append, List.append_assoc, List.singleton_append]
      calc
        lexemes (front ++ g :: more) = lexemes front ++ (lexemes [g] ++ lexemes more) := by
          rw [← lexemes_gap gap]
          exact lexemesFrom_append (opens more) [] front
        _ = lexemes (front ++ [g]) ++ lexemes more := by
          rw [← List.append_assoc]
          exact congrArg (· ++ _) (lexemesFrom_append (opens []) [] front).symm
  · exact lexemesFrom_append opens [] text

theorem words_append {text more : List Char}
    (apart : text.getLast?.all isGap ∨ more.head?.all isGap) :
    words (text ++ more) = words text ++ words more := by
  rw [words, lexemes_append apart, List.filter_append, List.map_append]
  rfl

theorem lexemes_of_no_gap {text : List Char} (filled : text ≠ [])
    (whole : ∀ c ∈ text, isGap c = false) : lexemes text = [text] := by
  have all : ∀ word, lexemesFrom word text = ended (word ++ text) := by
    clear filled
    induction text with
    | nil => exact fun word => by rw [lexemesFrom, List.append_nil]
    | cons c text ih =>
        intro word
        rw [List.forall_mem_cons, isGap, Bool.or_eq_false_iff] at whole
        rw [lexemesFrom, whole.1.1, whole.1.2, if_neg Bool.false_ne_true, if_neg Bool.false_ne_true,
          ih whole.2, List.append_assoc, List.singleton_append]
  rw [lexemes, all, List.nil_append, ended, if_neg filled]

theorem words_of_no_gap {s : String} (filled : s ≠ "") (whole : ∀ c ∈ s.toList, isGap c = false) :
    words s.toList = [s] := by
  have some : s.toList ≠ [] := by simpa using filled
  have word : s.toList.all isPunctuation = false := by
    obtain ⟨c, member⟩ := List.exists_mem_of_ne_nil _ some
    have other := whole c member
    rw [isGap, Bool.or_eq_false_iff] at other
    exact List.all_eq_false.2 ⟨c, member, by simp [other.2]⟩
  rw [words, lexemes_of_no_gap some whole]
  simp [word]

/-! ## Names and distances are words -/

theorem isGap_eq_false_of_isIdentifierPart {c : Char} (part : isIdentifierPart c) :
    isGap c = false := by
  have range : 48 ≤ c.toNat ∧ c.toNat ≤ 57 ∨ 65 ≤ c.toNat ∧ c.toNat ≤ 122 := by
    simp only [isIdentifierPart, isIdentifierStart, Text.isDigit, Bool.or_eq_true, Bool.and_eq_true,
      decide_eq_true_eq, beq_iff_eq, Char.le_def, UInt32.le_iff_toNat_le] at part
    rcases part with ((upper | lower) | rfl) | digit
    · exact Or.inr ⟨upper.1, upper.2.trans (by decide)⟩
    · exact Or.inr ⟨le_trans (by decide) lower.1, lower.2⟩
    · decide
    · exact Or.inl digit
  have notBlank : Text.isBlank c = false :=
    Text.isBlank_eq_false_of_visible (by omega) (by omega)
  rw [isGap, notBlank, Bool.false_or, isPunctuation]
  by_contra gap
  simp only [List.contains_cons, List.contains_nil, Bool.or_false, Bool.not_eq_false,
    Bool.or_eq_true, beq_iff_eq] at gap
  rcases gap with rfl | rfl | rfl | rfl <;> revert range <;> decide

theorem ne_empty_of_isIdentifier {name : String} (identifier : isIdentifier name) : name ≠ "" := by
  rintro rfl
  revert identifier
  decide

theorem words_name {name : String} (identifier : isIdentifier name) :
    words name.toList = [name] :=
  words_of_no_gap (ne_empty_of_isIdentifier identifier) fun c member =>
    isGap_eq_false_of_isIdentifierPart (isIdentifierPart_of_mem identifier c member)

/-- A column of a named row is one word. -/
theorem words_column {name : String} (identifier : isIdentifier name) :
    words (name ++ ".geom").toList = [name ++ ".geom"] := by
  refine words_of_no_gap (by simp) fun c member => ?_
  rw [String.toList_append, List.mem_append] at member
  rcases member with part | dotted
  · exact isGap_eq_false_of_isIdentifierPart (isIdentifierPart_of_mem identifier c part)
  · have all : ".geom".toList.all fun c => !isGap c := by decide
    simpa using List.all_eq_true.1 all c dotted

theorem words_distance {s : String} (distance : isDistance s) : words s.toList = [s] := by
  apply words_of_no_gap
  · rintro rfl
    revert distance
    decide
  · intro c member
    have part := isDistancePart_of_isDistance distance c member
    rw [isDistancePart, Bool.or_eq_true] at part
    rcases part with digit | other
    · exact isGap_eq_false_of_isIdentifierPart (by simp [isIdentifierPart, digit])
    · simp only [List.contains_cons, List.contains_nil, Bool.or_false, Bool.or_eq_true,
        beq_iff_eq] at other
      rcases other with rfl | rfl | rfl | rfl | rfl <;> decide

/-! ## Effects -/

/-- What a statement does, and the relations that it reads. -/
inductive Effect where
  | create (name : String) (reads : List String)
  | drop (name : String)
  | query (reads : List String)
  deriving DecidableEq, Repr

/-- Whether the name of a relation that is read follows. -/
def isMark (word : String) : Bool :=
  word = "FROM" || word = "JOIN"

/-- The words behind the marks. -/
def sources : List String → List String
  | word :: name :: rest => if isMark word then name :: sources rest else sources (name :: rest)
  | _ => []

def effect (sql : String) : Effect :=
  match words (exposed .outside sql.toList) with
  | "CREATE" :: "TEMP" :: "TABLE" :: name :: rest => .create name (sources rest)
  | "DROP" :: "TABLE" :: "IF" :: "EXISTS" :: name :: _ => .drop name
  | rest => .query (sources rest)

theorem sources_mark {word : String} (mark : isMark word) (name : String) (rest : List String) :
    sources (word :: name :: rest) = name :: sources rest := by
  rw [sources, if_pos mark]

theorem sources_skip {word : String} (other : isMark word = false) (rest : List String) :
    sources (word :: rest) = sources rest := by
  cases rest with
  | nil => rfl
  | cons name more => rw [sources, other, if_neg Bool.false_ne_true]

theorem effect_select {sql : String}
    (first : (words (exposed .outside sql.toList)).head? = some "SELECT") :
    effect sql = .query (sources (words (exposed .outside sql.toList))) := by
  obtain ⟨rest, begun⟩ := List.head?_eq_some_iff.1 first
  rw [effect, begun]
  rfl

/-- The text holds no mark. -/
def silent (text : List Char) : Bool :=
  (words text).all fun word => !isMark word

theorem silent_append {text more : List Char}
    (apart : text.getLast?.all isGap ∨ more.head?.all isGap) (first : silent text)
    (second : silent more) : silent (text ++ more) := by
  rw [silent, words_append apart, List.all_append, Bool.and_eq_true]
  exact ⟨first, second⟩

/-- A text without marks before another adds nothing that is read. -/
theorem sources_append_of_silent {text : List Char} (still : silent text) (rest : List String) :
    sources (words text ++ rest) = sources rest := by
  rw [silent, List.all_eq_true] at still
  generalize words text = front at still
  induction front with
  | nil => rfl
  | cons word front ih =>
      have here : isMark word = false := by simpa using still word List.mem_cons_self
      rw [List.cons_append, sources_skip here]
      exact ih fun w member => still w (List.mem_cons_of_mem _ member)

/-! ## What fragments show -/

/-- A fragment, and what it shows outside of its literals. -/
structure Shows (s : String) (text : List Char) : Prop where
  fragment : Fragment s
  shown : exposed .outside s.toList = text

namespace Shows

variable {s t between : String} {text more : List Char}

theorem of_bare (plain : bare s.toList) : Shows s s.toList :=
  ⟨fragment_of_bare plain, (scan_of_no_quote (no_quote_of_bare plain)).2⟩

theorem congr (shows : Shows s text) (same : text = more) : Shows s more :=
  same ▸ shows

theorem append (first : Shows s text) (second : Shows t more) : Shows (s ++ t) (text ++ more) := by
  refine ⟨first.fragment.append second.fragment, ?_⟩
  rw [String.toList_append, exposed_append, first.shown,
    (scan_of_head first.fragment.closed second.fragment.head).2, second.shown]

theorem append_bare (first : Shows s text) (plain : bare t.toList) :
    Shows (s ++ t) (text ++ t.toList) :=
  first.append (of_bare plain)

/-- Of a literal only the opening quote shows. -/
theorem append_quote (first : Shows s text) (plain : bare between.toList) (some : between ≠ "")
    (value : String) :
    Shows (s ++ between ++ quote value) (text ++ between.toList ++ [quoteMark]) := by
  refine ⟨first.fragment.append_quote plain some value, ?_⟩
  have outside : Place.after .outside (s ++ between).toList = .outside := by
    rw [String.toList_append, after_append]
    exact after_of_no_quote first.fragment.closed (no_quote_of_bare plain) (by simpa using some)
  rw [String.toList_append, exposed_append, outside, (first.append_bare plain).shown,
    (scan_quote value).2]

/-- The end of a statement shows whole. -/
theorem exposed_append_of_no_quote (first : Shows s text) (plain : quoteMark ∉ t.toList) :
    exposed .outside (s ++ t).toList = text ++ t.toList := by
  have head : t.toList.head? ≠ some quoteMark := fun first => plain (List.mem_of_head? first)
  rw [String.toList_append, exposed_append, first.shown,
    (scan_of_head first.fragment.closed head).2, (scan_of_no_quote plain).2]

end Shows

/-- A fragment that shows no mark. -/
structure Unmarked (s : String) : Prop where
  fragment : Fragment s
  still : silent (exposed .outside s.toList)

theorem Shows.unmarked {s : String} {text : List Char} (shows : Shows s text)
    (still : silent text) : Unmarked s :=
  ⟨shows.fragment, by rwa [shows.shown]⟩

theorem Unmarked.append {s t : String} (first : Unmarked s) (second : Unmarked t)
    (apart : (exposed .outside s.toList).getLast?.all isGap ∨
      (exposed .outside t.toList).head?.all isGap) : Unmarked (s ++ t) := by
  have shows := Shows.append ⟨first.fragment, rfl⟩ ⟨second.fragment, rfl⟩
  exact shows.unmarked (silent_append apart first.still second.still)

theorem isMark_eq_false_of_mem {word : String} (dot : '.' ∈ word.toList) : isMark word = false := by
  by_contra mark
  simp only [isMark, Bool.not_eq_false, Bool.or_eq_true, decide_eq_true_eq] at mark
  rcases mark with rfl | rfl <;> revert dot <;> decide

end Sql

open Sql (bare Unmarked Shows words silent sources effect)

/-! ## Conditions read nothing -/

namespace Predicate

theorem unmarked_joinWith (connective : Connective) {texts : List String}
    (each : ∀ s ∈ texts, Unmarked s) : Unmarked (Text.joinWith connective.word texts) := by
  have word : Shows connective.word connective.word.toList := Shows.of_bare (bare_word connective)
  have unmarked : Unmarked connective.word := word.unmarked (by cases connective <;> decide)
  fun_induction Text.joinWith connective.word texts with
  | case1 => exact (Shows.of_bare (by decide)).unmarked (by decide)
  | case2 s => exact each s (by simp)
  | case3 s next rest ih =>
      have first : Unmarked s := each s (by simp)
      have later := ih fun t member => each t (List.mem_cons_of_mem _ member)
      have opens : (Sql.exposed .outside connective.word.toList).head?.all Sql.isGap := by
        rw [word.shown]
        cases connective <;> decide
      have closes :
          (Sql.exposed .outside (s ++ connective.word).toList).getLast?.all Sql.isGap := by
        have last : connective.word.toList.getLast? = some ' ' := by cases connective <;> decide
        rw [(Shows.append ⟨first.fragment, rfl⟩ word).shown, List.getLast?_append, last,
          Option.some_or]
        decide
      exact (first.append unmarked (Or.inr opens)).append later (Or.inl closes)

theorem unmarked_connective (connective : Connective) {texts : List String}
    (each : ∀ s ∈ texts, Unmarked s) :
    Unmarked ("(" ++ Text.joinWith connective.word texts ++ ")") := by
  have opening : Unmarked "(" := (Shows.of_bare (by decide)).unmarked (by decide)
  have closing : Unmarked ")" := (Shows.of_bare (by decide)).unmarked (by decide)
  have inner := opening.append (unmarked_joinWith connective each) (Or.inl (by decide))
  exact inner.append closing (Or.inr (by decide))

theorem unmarked_intersects {target : String} (named : Sql.isIdentifier target) :
    Unmarked (condition sourceAlias (.intersects target)) := by
  have plain : bare target.toList := Sql.bare_of_isIdentifier named
  have column : silent (target ++ ".geom").toList := by
    rw [silent, Sql.words_column named, List.all_cons, List.all_nil,
      Sql.isMark_eq_false_of_mem (by simp)]
    rfl
  have shows : Shows (condition sourceAlias (.intersects target))
      ("ST_Intersects(".toList ++ sourceAlias.toList ++ ".geom, ".toList ++ target.toList ++
        ".geom)".toList) :=
    ((((Shows.of_bare (by decide)).append_bare bare_sourceAlias).append_bare
      (by decide)).append_bare plain).append_bare (by decide)
  have ending : ".geom)".toList = ".geom".toList ++ ")".toList := by decide
  rw [ending, ← List.append_assoc, List.append_assoc _ target.toList] at shows
  rw [String.toList_append] at column
  refine shows.unmarked (Sql.silent_append (Or.inr (by decide)) ?_ (by decide))
  exact Sql.silent_append (Or.inl (by decide)) (by decide) column

mutual

/-- **A condition reads nothing**, whatever its tags are. -/
theorem unmarked_condition : (p : Predicate) → (∀ name ∈ p.mentions, Sql.isIdentifier name) →
    Unmarked (p.condition sourceAlias)
  | .all parts, names => unmarked_connective .and (unmarked_conditions parts names)
  | .any parts, names => unmarked_connective .or (unmarked_conditions parts names)
  | .hasTag key, _ =>
      ((Shows.of_bare bare_sourceAlias).append_quote (by decide) (by decide) key).unmarked
        (by decide)
  | .lacksTag key, _ =>
      (((Shows.of_bare (by decide)).append_bare bare_sourceAlias).append_quote
        (by decide) (by decide) key).unmarked (by decide)
  | .tagEquals key value, _ =>
      (((Shows.of_bare bare_sourceAlias).append_quote (by decide) (by decide) key).append_quote
        (by decide) (by decide) value).unmarked (by decide)
  | .tagDiffers key value, _ =>
      (((Shows.of_bare bare_sourceAlias).append_quote (by decide) (by decide) key).append_quote
        (by decide) (by decide) value).unmarked (by decide)
  | .intersects target, names => unmarked_intersects (names target (by simp [mentions]))

theorem unmarked_conditions : (parts : List Predicate) →
    (∀ name ∈ mentionsAll parts, Sql.isIdentifier name) →
    ∀ s ∈ conditions sourceAlias parts, Unmarked s
  | [], _ => by simp [conditions]
  | part :: parts, names => by
      have first := unmarked_condition part fun name member =>
        names name (List.mem_append_left _ member)
      have others := unmarked_conditions parts fun name member =>
        names name (List.mem_append_right _ member)
      intro s member
      rcases List.mem_cons.1 member with rfl | later
      · exact first
      · exact others s later

end

end Predicate

/-! ## What is read -/

theorem Text.joinWith_empty_cons (s : String) (texts : List String) :
    Text.joinWith "" (s :: texts) = s ++ Text.joinWith "" texts := by
  cases texts with
  | nil => exact String.append_empty.symm
  | cons next rest => rw [Text.joinWith_cons_cons, String.append_empty]

/-- Joined relations are bare, begin with a gap, and each is a word behind its mark. -/
theorem words_joins {joins : List String} (names : ∀ join ∈ joins, Sql.isIdentifier join) :
    let text := (Text.joinWith "" (joins.map fun join => "\n    CROSS JOIN " ++ join)).toList
    bare text ∧ text.head?.all Sql.isGap ∧
      words text = joins.flatMap fun join => ["CROSS", "JOIN", join] := by
  induction joins with
  | nil => decide
  | cons join joins ih =>
      obtain ⟨plain, opens, later⟩ :=
        ih fun other member => names other (List.mem_cons_of_mem _ member)
      have named : Sql.isIdentifier join := names join List.mem_cons_self
      dsimp only
      rw [List.map_cons, Text.joinWith_empty_cons, String.toList_append, String.toList_append]
      refine ⟨?_, ?_, ?_⟩
      · exact Sql.bare_append (Sql.bare_append (by decide) (Sql.bare_of_isIdentifier named)) plain
      · have first : "\n    CROSS JOIN ".toList.head? = some '\n' := by decide
        rw [List.append_assoc, List.head?_append, first, Option.some_or]
        decide
      · rw [Sql.words_append (Or.inr opens), Sql.words_append (Or.inl (by decide)),
          Sql.words_name named, later]
        rfl

/-- A clause is a mark before its source and one before each join. -/
theorem words_fromClause {source : String} {joins : List String} (read : Sql.isIdentifier source)
    (names : ∀ join ∈ joins, Sql.isIdentifier join) :
    bare (fromClause source joins).toList ∧
      words (fromClause source joins).toList =
        "FROM" :: source :: "AS" :: sourceAlias ::
          joins.flatMap fun join => ["CROSS", "JOIN", join] := by
  obtain ⟨plain, opens, joined⟩ := words_joins names
  rw [fromClause]
  simp only [String.toList_append]
  constructor
  · refine Sql.bare_append (Sql.bare_append (Sql.bare_append (Sql.bare_append ?_ ?_) ?_) ?_) plain
    · decide
    · exact Sql.bare_of_isIdentifier read
    · decide
    · decide
  · rw [Sql.words_append (Or.inr opens), joined, List.append_assoc,
      Sql.words_append (Or.inr (by decide)), Sql.words_append (Or.inl (by decide)),
      Sql.words_name read]
    rfl

theorem sources_joins (joins rest : List String) :
    sources ((joins.flatMap fun join => ["CROSS", "JOIN", join]) ++ rest) =
      joins ++ sources rest := by
  induction joins with
  | nil => rfl
  | cons join joins ih =>
      rw [List.flatMap_cons, List.append_assoc, List.cons_append, List.cons_append,
        List.singleton_append, Sql.sources_skip (by decide), Sql.sources_mark (by decide), ih,
        List.cons_append]

/-- A clause between texts without marks is all that is read. -/
theorem sources_fromClause {source : String} {joins : List String} (read : Sql.isIdentifier source)
    (names : ∀ join ∈ joins, Sql.isIdentifier join) {front back : List Char} (before : silent front)
    (closes : front.getLast?.all Sql.isGap) (after : silent back)
    (opens : back.head?.all Sql.isGap) :
    sources (words (front ++ (fromClause source joins).toList ++ back)) = source :: joins := by
  have none : sources (words back) = [] := by
    rw [← List.append_nil (words back), Sql.sources_append_of_silent after]
    rfl
  rw [Sql.words_append (Or.inr opens), Sql.words_append (Or.inl closes), List.append_assoc,
    Sql.sources_append_of_silent before, (words_fromClause read names).2]
  simp only [List.cons_append]
  rw [Sql.sources_mark (by decide), Sql.sources_skip (by decide), Sql.sources_skip (by decide),
    sources_joins, none, List.append_nil]

/-! ## The statements of requests -/

theorem opens_where (text : List Char) : ("\nWHERE ".toList ++ text).head?.all Sql.isGap := by
  rw [List.head?_append]
  rfl

namespace Request.Legible

variable {r : Request} {criterion : Criterion}

/-- A statement that begins by creating the relation of a request creates it, and
reads what stands in its clause. -/
theorem effect_create (legible : r.Legible) {sql : String} {front back : List Char}
    (shown : Sql.exposed .outside sql.toList = "\nCREATE TEMP TABLE ".toList ++ r.name.toList ++
      (front ++ (fromClause r.source r.joins).toList ++ back))
    (begins : front.head? = some ' ') (before : silent front)
    (closes : front.getLast?.all Sql.isGap) (after : silent back)
    (opens : back.head?.all Sql.isGap) : effect sql = .create r.name r.dependencies := by
  have reads := sources_fromClause legible.source legible.joins before closes after opens
  have gap : (front ++ (fromClause r.source r.joins).toList ++ back).head?.all Sql.isGap := by
    rw [List.append_assoc, List.head?_append, begins, Option.some_or]
    decide
  have begun : words (Sql.exposed .outside sql.toList) = "CREATE" :: "TEMP" :: "TABLE" :: r.name ::
      words (front ++ (fromClause r.source r.joins).toList ++ back) := by
    rw [shown, Sql.words_append (Or.inr gap), Sql.words_append (Or.inl (by decide)),
      Sql.words_name legible.name]
    rfl
  have dependencies : r.dependencies = r.source :: r.joins := rfl
  rw [effect, begun, dependencies, ← reads]
  rfl

/-- Columns and the selection of a filter show the clause between texts without
marks. -/
theorem exposed_selection (legible : r.Legible) (filters : r.operation = .filter criterion)
    {columns : String} {text : List Char} (before : Shows columns text) :
    ∃ back, silent back ∧ back.head?.all Sql.isGap ∧
      Sql.exposed .outside (columns ++ selection r criterion).toList =
        text ++ (fromClause r.source r.joins).toList ++ back := by
  have joins : r.joins = criterion.joins := by rw [Request.joins, filters]
  have named : ∀ name ∈ criterion.predicate.mentions, Sql.isIdentifier name := by
    intro name member
    refine legible.joins name ?_
    rw [joins, criterion.joins_eq]
    exact Predicate.mem_targets_iff.2 member
  have condition := Predicate.unmarked_condition criterion.predicate named
  have still := condition.still
  have clause := (words_fromClause legible.source legible.joins).1
  rw [selection, ← joins, criterion.condition_eq, ← String.append_assoc, ← String.append_assoc,
    ← String.append_assoc,
    (((before.append_bare clause).append_bare (by decide)).append
      ⟨condition.fragment, rfl⟩).exposed_append_of_no_quote (by decide)]
  generalize Sql.exposed .outside (criterion.predicate.condition sourceAlias).toList = shown at still
  have ended : silent (shown ++ ";\n".toList) :=
    Sql.silent_append (Or.inr (by decide)) still (by decide)
  exact ⟨"\nWHERE ".toList ++ (shown ++ ";\n".toList),
    Sql.silent_append (Or.inl (by decide)) (by decide) ended, opens_where _,
    by simp only [List.append_assoc]⟩

/-- What the statement of a filter shows between its name and its source. -/
def filterColumns : List Char :=
  " AS\nSELECT DISTINCT\n    ".toList ++ sourceAlias.toList ++ ".id AS id,\n    ".toList ++
    [Sql.quoteMark] ++ " AS obj,\n    ".toList ++ sourceAlias.toList ++
    ".geom AS geom,\n    ".toList ++ sourceAlias.toList ++ ".tags AS tags\n".toList

/-- The statement of a filter creates its relation from its source and its joins. -/
theorem effect_filterSql (legible : r.Legible) (filters : r.operation = .filter criterion) :
    effect (filterSql r criterion) = .create r.name r.dependencies := by
  have plain : bare r.name.toList := Sql.bare_of_isIdentifier legible.name
  have columns : Shows ("\nCREATE TEMP TABLE " ++ r.name ++ " AS\nSELECT DISTINCT\n    " ++
      sourceAlias ++ ".id AS id,\n    " ++ Sql.quote r.feature.name ++ " AS obj,\n    " ++
      sourceAlias ++ ".geom AS geom,\n    " ++ sourceAlias ++ ".tags AS tags\n")
      ("\nCREATE TEMP TABLE ".toList ++ r.name.toList ++ filterColumns) := by
    refine Shows.congr (Shows.of_bare (by decide)
      |>.append_bare plain
      |>.append_bare (by decide)
      |>.append_bare bare_sourceAlias
      |>.append_quote (by decide) (by decide) r.feature.name
      |>.append_bare (by decide)
      |>.append_bare bare_sourceAlias
      |>.append_bare (by decide)
      |>.append_bare bare_sourceAlias
      |>.append_bare (by decide)) ?_
    unfold filterColumns
    simp only [List.append_assoc]
  obtain ⟨back, after, opens, shown⟩ := legible.exposed_selection filters columns
  rw [List.append_assoc, List.append_assoc, ← List.append_assoc filterColumns] at shown
  exact legible.effect_create shown (by decide) (by decide) (by decide) after opens

/-- What the statement of a buffer shows between its name and its distance. -/
def bufferColumns : List Char :=
  " AS\nSELECT\n    ".toList ++ sourceAlias.toList ++ ".id AS id,\n    ST_Buffer(".toList ++
    sourceAlias.toList ++ ".geom, ".toList

/-- What the statement of a buffer shows between its distance and its source. -/
def bufferRest : List Char :=
  ") AS geom,\n    ".toList ++ [Sql.quoteMark] ++ " AS obj,\n    ".toList ++
    sourceAlias.toList ++ ".tags AS tags\n".toList

/-- Without joins a clause is its source. -/
theorem toList_fromClause_nil (source : String) :
    (fromClause source []).toList =
      "FROM ".toList ++ (source.toList ++ (" AS ".toList ++ sourceAlias.toList)) := by
  rw [fromClause, List.map_nil, Text.joinWith, String.append_empty]
  simp only [String.toList_append, List.append_assoc]

theorem exposed_bufferSql {distance : String} (name : Sql.isIdentifier r.name)
    (source : Sql.isIdentifier r.source) (number : Sql.isDistance distance) :
    Sql.exposed .outside (bufferSql r distance).toList =
      "\nCREATE TEMP TABLE ".toList ++ r.name.toList ++ (bufferColumns ++ distance.toList ++
        bufferRest ++ (fromClause r.source []).toList ++ ";\n".toList) := by
  -- The last column and the first word of the clause are one piece of the template.
  have split : ".tags AS tags\nFROM ".toList = ".tags AS tags\n".toList ++ "FROM ".toList := by
    decide
  unfold bufferSql
  rw [(Shows.of_bare (by decide)
    |>.append_bare (Sql.bare_of_isIdentifier name)
    |>.append_bare (by decide)
    |>.append_bare bare_sourceAlias
    |>.append_bare (by decide)
    |>.append_bare bare_sourceAlias
    |>.append_bare (by decide)
    |>.append_bare (Sql.bare_of_isDistance number)
    |>.append_quote (by decide) (by decide) r.feature.name
    |>.append_bare (by decide)
    |>.append_bare bare_sourceAlias
    |>.append_bare (by decide)
    |>.append_bare (Sql.bare_of_isIdentifier source)
    |>.append_bare (by decide)
    |>.append_bare bare_sourceAlias).exposed_append_of_no_quote (by decide),
    toList_fromClause_nil, split]
  unfold bufferColumns bufferRest
  simp only [List.append_assoc]

theorem silent_distance {distance : String} (number : Sql.isDistance distance) :
    silent distance.toList := by
  have other : Sql.isMark distance = false := by
    by_contra mark
    simp only [Sql.isMark, Bool.not_eq_false, Bool.or_eq_true, decide_eq_true_eq] at mark
    rcases mark with rfl | rfl <;> revert number <;> decide
  rw [silent, Sql.words_distance number, List.all_cons, other]
  rfl

/-- The statement of a buffer creates its relation from its source. -/
theorem effect_bufferSql (legible : r.Legible) {distance : String}
    (buffers : r.operation = .buffer distance) :
    effect (bufferSql r distance) = .create r.name r.dependencies := by
  have number : Sql.isDistance distance := legible.distance distance buffers
  have none : r.joins = [] := by rw [Request.joins, buffers]
  have shown := exposed_bufferSql legible.name legible.source number
  rw [← none] at shown
  have before : silent (bufferColumns ++ distance.toList ++ bufferRest) :=
    Sql.silent_append (Or.inr (by decide))
      (Sql.silent_append (Or.inl (by decide)) (by decide) (silent_distance number)) (by decide)
  have begins : (bufferColumns ++ distance.toList ++ bufferRest).head? = some ' ' := by
    have first : bufferColumns.head? = some ' ' := by decide
    rw [List.append_assoc, List.head?_append, first, Option.some_or]
  have closes : (bufferColumns ++ distance.toList ++ bufferRest).getLast?.all Sql.isGap := by
    have last : bufferRest.getLast? = some '\n' := by decide
    rw [List.getLast?_append, last, Option.some_or]
    decide
  exact legible.effect_create shown begins before closes (by decide) (by decide)

/-- What the statement of a sink shows before its source, by the kind it reports. -/
def outputText (feature : FeatureKind) : List Char :=
  "\nSELECT DISTINCT\n    ".toList ++
    (Text.joinWith ",\n    " (outputColumns feature)).toList ++ "\n".toList

theorem outputText_spec (feature : FeatureKind) :
    (words (outputText feature)).head? = some "SELECT" ∧ silent (outputText feature) ∧
      (outputText feature).getLast?.all Sql.isGap := by
  cases feature <;> decide +kernel

/-- The statement of the sink reads what it depends on, and creates nothing. -/
theorem effect_outputSql (legible : r.Legible) (filters : r.operation = .filter criterion) :
    effect (outputSql r criterion) = .query r.dependencies := by
  have columns : bare (Text.joinWith ",\n    " (outputColumns r.feature)).toList := by
    cases r.feature <;> decide
  have shows : Shows ("\nSELECT DISTINCT\n    " ++
      Text.joinWith ",\n    " (outputColumns r.feature) ++ "\n") (outputText r.feature) :=
    ((Shows.of_bare (by decide)).append_bare columns).append_bare (by decide)
  obtain ⟨back, after, opens, shown⟩ := legible.exposed_selection filters shows
  obtain ⟨first, before, closes⟩ := outputText_spec r.feature
  have reads := sources_fromClause legible.source legible.joins before closes after opens
  unfold outputSql
  rw [Sql.effect_select, shown, reads]
  · rfl
  · rw [shown, Sql.words_append (Or.inr opens), Sql.words_append (Or.inl closes), List.append_assoc,
      List.head?_append, first, Option.some_or]

/-- **The statement of a request does what it is for**: it reads what the request
depends on, and creates its relation unless it is the sink. -/
theorem effect_sql (legible : r.Legible) {isSink : Bool} {text : String}
    (written : r.sql isSink = .ok text) :
    effect text = if isSink then .query r.dependencies else .create r.name r.dependencies := by
  unfold sql at written
  split at written
  · rename_i distance buffers
    obtain rfl := Except.ok.inj written
    exact legible.effect_bufferSql buffers
  · cases written
  · rename_i criterion filters
    obtain rfl := Except.ok.inj written
    exact legible.effect_filterSql filters
  · rename_i criterion filters
    obtain rfl := Except.ok.inj written
    exact legible.effect_outputSql filters

end Request.Legible

theorem effect_relationsPolygonSql : effect Builtin.relationsPolygonSql =
    .create Builtin.relationsPolygon.name ["relations", "relation_members", "ways"] := by
  have all : words (Sql.exposed .outside Builtin.relationsPolygonSql.toList) = [
      "CREATE", "TEMP", "TABLE", "relations_polygon", "AS", "SELECT", "el.id", "AS", "id",
      "ST_Buffer", "ST_Polygonize", "ways.linestring", "0", "AS", "geom", "el.tags",
      "FROM", "relations", "AS", "el", "JOIN", "relation_members", "ON",
      "relation_members.relation_id", "=", "el.id", "AND", "relation_members.member_type", "=",
      "'", "JOIN", "ways", "ON", "ways.id", "=", "relation_members.member_id", "AND",
      "ST_NPoints", "ways.linestring", ">", "1", "GROUP", "BY", "el.id"] := by
    unfold Builtin.relationsPolygonSql
    simp only [String.toList_append, String.reduceToList]
    decide +kernel
  rw [effect, all]
  rfl

theorem Statement.effect_drop {s : Statement} (named : Sql.isIdentifier s.relation) :
    effect s.drop.sql = .drop s.relation := by
  have shown : Sql.exposed .outside s.drop.sql.toList =
      "DROP TABLE IF EXISTS ".toList ++ s.relation.toList ++ ";".toList :=
    ((Shows.of_bare (by decide)).append_bare
      (Sql.bare_of_isIdentifier named)).exposed_append_of_no_quote (by decide)
  have all : words (Sql.exposed .outside s.drop.sql.toList) =
      ["DROP", "TABLE", "IF", "EXISTS", s.relation] := by
    rw [shown, Sql.words_append (Or.inr (by decide)), Sql.words_append (Or.inl (by decide)),
      Sql.words_name named]
    rfl
  rw [effect, all]
  rfl

end MapAudit
