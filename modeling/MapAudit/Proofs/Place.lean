import MapAudit.Files.Tree
import MapAudit.Proofs.Outcome
import MapAudit.Proofs.Utf8
import Mathlib.Data.List.Nodup
import Mathlib.Tactic.SplitIfs

/-!
# Where paths lead

A path is followed segment by segment.  Where it leads, if it leads anywhere, is fixed by
its components (`place_of_walk`), so two ways to write a path never lead to two places, and
a path that is text leads to places whose names are text (`isUtf8_of_real?`).
Following a name from where a folder is found is following the path of the name in the
folder (`walk_join`), so the files of a folder lead to places of their own
(`real?_join`).

Names of entries are `Path.IsName`: in a `FileTree.WellFormed` tree no entry has a name
that a path could not hold, and no two entries of a folder have one name.
-/

namespace MapAudit

set_option autoImplicit false

namespace Path

/-! ## Segments and components -/

/-- Bytes that may name an entry of a folder. -/
structure IsName (name : Bytes) : Prop where
  /-- No entry is named by nothing or by dots. -/
  proper : name ≠ [] ∧ name ≠ [dot] ∧ name ≠ [dot, dot]
  single : slash ∉ name
  readable : 0 ∉ name
  short : name.length ≤ FileTree.maxNameBytes

instance (name : Bytes) : Decidable (IsName name) :=
  decidable_of_iff ((name ≠ [] ∧ name ≠ [dot] ∧ name ≠ [dot, dot]) ∧ slash ∉ name ∧
      0 ∉ name ∧ name.length ≤ FileTree.maxNameBytes)
    ⟨fun ⟨proper, single, readable, short⟩ => ⟨proper, single, readable, short⟩,
      fun named => ⟨named.proper, named.single, named.readable, named.short⟩⟩

theorem segments_ne_nil (path : Bytes) : segments path ≠ [] := by
  cases path with
  | nil => simp [segments]
  | cons b rest =>
      rw [segments]
      split
      · simp
      · split <;> simp

/-- A slash divides a path. -/
theorem segments_append (front back : Bytes) :
    segments (front ++ slash :: back) = segments front ++ segments back := by
  induction front with
  | nil => simp [segments]
  | cons b rest ih =>
      rw [List.cons_append, segments, segments, ih]
      split
      · rfl
      · cases first : segments rest with
        | nil => exact absurd first (segments_ne_nil rest)
        | cons first others => rfl

/-- What has no slash stands before the first segment of the rest. -/
theorem segments_append_of_no_slash {front : Bytes} (single : slash ∉ front) (rest : Bytes) :
    ∃ first others, segments rest = first :: others ∧
      segments (front ++ rest) = (front ++ first) :: others := by
  induction front with
  | nil =>
      obtain ⟨first, others, split⟩ := List.exists_cons_of_ne_nil (segments_ne_nil rest)
      exact ⟨first, others, split, split⟩
  | cons b front ih =>
      rw [List.mem_cons, not_or] at single
      obtain ⟨first, others, split, joined⟩ := ih single.2
      refine ⟨first, others, split, ?_⟩
      rw [List.cons_append, segments, if_neg (Ne.symm single.1), joined]
      rfl

theorem segments_of_no_slash {name : Bytes} (single : slash ∉ name) : segments name = [name] := by
  obtain ⟨first, others, split, joined⟩ := segments_append_of_no_slash single []
  cases split
  simpa using joined

/-- Only the empty path is a single empty segment. -/
theorem eq_nil_of_segments {path : Bytes} (alone : segments path = [[]]) : path = [] := by
  cases path with
  | nil => rfl
  | cons b rest =>
      rw [segments] at alone
      split at alone
      · exact absurd (List.cons.inj alone).2 (segments_ne_nil rest)
      · split at alone <;> cases alone

theorem slash_not_mem_encoded {c : Char} (other : c ≠ '/') :
    slash ∉ String.utf8EncodeChar c := by
  have value : c.val.toNat ≠ 0x2F := by
    intro same
    exact other (Char.ext (UInt32.toNat_inj.1 same))
  unfold String.utf8EncodeChar slash
  dsimp only
  split_ifs <;>
    simp only [List.mem_cons, List.not_mem_nil, or_false, ← UInt8.toNat_inj, UInt8.toNat_ofNat',
      UInt8.reduceToNat] <;>
    omega

/-- Between the slashes of a text stands text. -/
theorem isUtf8_of_mem_segments {s : String} {segment : Bytes}
    (member : segment ∈ segments (Text.bytes s)) : Text.IsUtf8 segment := by
  have all : ∀ cs : List Char, ∀ segment ∈ segments (cs.flatMap String.utf8EncodeChar),
      Text.IsUtf8 segment := by
    intro cs
    induction cs with
    | nil => exact fun segment member => ⟨"", (List.mem_singleton.1 member).symm⟩
    | cons c cs ih =>
        intro segment member
        rw [List.flatMap_cons] at member
        by_cases ends : c = '/'
        · have encoded : String.utf8EncodeChar '/' = [slash] := by decide
          rw [ends, encoded, List.singleton_append, segments, if_pos rfl] at member
          rcases List.mem_cons.1 member with rfl | later
          · exact ⟨"", rfl⟩
          · exact ih segment later
        · obtain ⟨first, others, split, joined⟩ := segments_append_of_no_slash
            (slash_not_mem_encoded ends) (cs.flatMap String.utf8EncodeChar)
          rw [joined] at member
          rw [split] at ih
          rcases List.mem_cons.1 member with rfl | later
          · obtain ⟨s, written⟩ := ih first List.mem_cons_self
            refine ⟨String.ofList (c :: s.toList), ?_⟩
            rw [Text.bytes, String.toList_ofList, List.flatMap_cons, ← written]
            rfl
          · exact ih segment (List.mem_cons_of_mem _ later)
  exact all s.toList segment member

/-- The path of a name in a folder is the segments of the folder and then the name; the
empty segment after a slash at the end of the folder gives way to the name. -/
theorem segments_join (folder : Bytes) :
    ∃ front, (folder ≠ [] → front ≠ []) ∧
      (segments folder = front ∨ segments folder = front ++ [[]]) ∧
      ∀ name, slash ∉ name → segments (join folder name) = front ++ [name] := by
  by_cases empty : folder = []
  · subst empty
    refine ⟨[], fun proper => absurd rfl proper, Or.inr rfl, fun name single => ?_⟩
    rw [join, if_pos rfl]
    exact segments_of_no_slash single
  · by_cases ends : folder.getLast? = some slash
    · obtain ⟨front, rfl⟩ := List.getLast?_eq_some_iff.1 ends
      refine ⟨segments front, fun _ => segments_ne_nil front, Or.inr ?_, fun name single => ?_⟩
      · exact segments_append front []
      · rw [join, if_neg empty, if_pos ends, List.append_assoc, List.singleton_append,
          segments_append, segments_of_no_slash single]
    · refine ⟨segments folder, fun _ => segments_ne_nil folder, Or.inl rfl, fun name single => ?_⟩
      rw [join, if_neg empty, if_neg ends, segments_append, segments_of_no_slash single]

theorem IsName.component? {name : Bytes} (named : IsName name) :
    Path.component? name = some (.name name) := by
  obtain ⟨notEmpty, notDot, notDots⟩ := named.proper
  rw [Path.component?, if_neg (by simp [notEmpty, notDot]), if_neg notDots]

/-- Only the first segment decides what the components begin with, the empty path apart. -/
theorem lead_cons {first : Bytes} {rest : List Bytes} (proper : first = [] → rest ≠ []) :
    lead (first :: rest) =
      if first = [] then [.root] else if first = [dot] then [.here] else [] := by
  cases first with
  | nil =>
      obtain ⟨second, others, rfl⟩ := List.exists_cons_of_ne_nil (proper rfl)
      rfl
  | cons b first => rfl

/-- The components of the path of a name in a folder are those of the folder, whatever the
name, and then the name. -/
theorem components_join (folder : Bytes) :
    ∃ start, ∀ name, IsName name → components (join folder name) = start ++ [.name name] := by
  obtain ⟨front, -, -, joined⟩ := segments_join folder
  have steps : ∀ name, IsName name → (segments (join folder name)).filterMap Path.component? =
      front.filterMap Path.component? ++ [.name name] := by
    intro name named
    rw [joined name named.single, List.filterMap_append, List.filterMap_cons, named.component?]
    rfl
  cases front with
  | nil =>
      refine ⟨[], fun name named => ?_⟩
      obtain ⟨notEmpty, notDot, -⟩ := named.proper
      rw [components, steps name named, joined name named.single, List.nil_append,
        lead_cons (fun empty => absurd empty notEmpty), if_neg notEmpty, if_neg notDot]
      rfl
  | cons first rest =>
      refine ⟨(if first = [] then [.root] else if first = [dot] then [.here] else []) ++
        (first :: rest).filterMap Path.component?, fun name named => ?_⟩
      rw [components, steps name named, joined name named.single, List.cons_append,
        lead_cons (by simp), List.append_assoc]

/-- Names of one folder have paths of their own, however these are written. -/
theorem name_eq_of_components {folder a b : Bytes} (first : IsName a) (second : IsName b)
    (same : components (join folder a) = components (join folder b)) : a = b := by
  obtain ⟨start, joined⟩ := components_join folder
  rw [joined a first, joined b second] at same
  simpa using same

end Path

namespace FileTree

variable {top : FileTree}

/-! ## Following segments -/

/-- The place that a component leads to from a place.  From a place of which nothing is
known, a name leads nowhere. -/
def Place.step : Place → Path.Component → Place
  | _, .root => .root
  | place, .here => place
  | place, .up => place.up
  | .inside names, .name text => .inside (names ++ [text])
  | place, .name _ => place

/-- Where a segment leads is fixed by its component. -/
theorem follow_eq_ok {place next : Place} {segment : Bytes}
    (followed : top.follow place segment = .ok next) :
    next = (Path.component? segment).toList.foldl Place.step place := by
  unfold follow at followed
  unfold Path.component?
  split at followed
  · cases followed
  · by_cases still : segment = [] ∨ segment = [Path.dot]
    · rw [if_pos still] at followed ⊢
      cases followed
      rfl
    · rw [if_neg still] at followed ⊢
      by_cases up : segment = [Path.dot, Path.dot]
      · rw [if_pos up] at followed ⊢
        cases followed
        rfl
      · rw [if_neg up] at followed ⊢
        unfold enter at followed
        split at followed
        · cases followed
        · cases place with
          | inside names =>
              dsimp only at followed
              split at followed
              · cases followed
                rfl
              · cases followed
          | above steps => cases followed
          | root => cases followed

theorem foldlM_follow_eq_ok {place next : Place} {segments : List Bytes}
    (followed : segments.foldlM (follow top) place = .ok next) :
    next = (segments.filterMap Path.component?).foldl Place.step place := by
  induction segments generalizing place with
  | nil =>
      cases followed
      rfl
  | cons segment rest ih =>
      rw [List.foldlM_cons, bind_eq_ok_iff] at followed
      obtain ⟨middle, first, later⟩ := followed
      rw [ih later, follow_eq_ok first]
      cases component : Path.component? segment with
      | none => rw [List.filterMap_cons_none component]; rfl
      | some c => rw [List.filterMap_cons_some component]; rfl

/-- Follow the segments of a path: one that begins with a slash starts from the root. -/
def followAll (top : FileTree) : List Bytes → Except FileFault Place
  | [] :: rest => rest.foldlM (follow top) .root
  | segments => segments.foldlM (follow top) (.inside [])

/-- A path that is not empty and holds no NUL is followed segment by segment. -/
theorem walk_eq_followAll {path : Bytes} (clean : holdsNul path = false) (proper : path ≠ []) :
    top.walk path = top.followAll (Path.segments path) := by
  rw [walk, if_neg (by simp [clean]), if_neg proper]
  rfl

theorem walk_eq_ok_iff {path : Bytes} {place : Place} :
    top.walk path = .ok place ↔
      holdsNul path = false ∧ path ≠ [] ∧ top.followAll (Path.segments path) = .ok place := by
  by_cases clean : holdsNul path = false
  · by_cases empty : path = []
    · simp [walk, empty, holdsNul]
    · simp [walk_eq_followAll clean empty, clean, empty]
  · simp [walk, clean]

theorem followAll_cons (first : Bytes) (rest : List Bytes) :
    top.followAll (first :: rest) =
      if first = [] then rest.foldlM (follow top) .root
      else (first :: rest).foldlM (follow top) (.inside []) := by
  split
  · rename_i slash
    rw [slash]
    rfl
  · rename_i relative
    exact followAll.eq_2 top _ fun others same => relative (List.cons.inj same).1

/-- One more segment is followed from where the others lead. -/
theorem followAll_append_singleton {segments : List Bytes} (some : segments ≠ []) (last : Bytes) :
    top.followAll (segments ++ [last]) = top.followAll segments >>= (top.follow · last) := by
  obtain ⟨first, rest, rfl⟩ := List.exists_cons_of_ne_nil some
  rw [List.cons_append, followAll_cons, followAll_cons]
  split
  · simp [List.foldlM_append]
  · rw [← List.cons_append, List.foldlM_append]
    simp

/-- **Where a path leads is fixed by its components.** -/
theorem place_of_walk {path : Bytes} {place : Place} (walked : top.walk path = .ok place) :
    place = (Path.components path).foldl Place.step (.inside []) := by
  obtain ⟨-, notEmpty, followed⟩ := walk_eq_ok_iff.1 walked
  obtain ⟨first, rest, split⟩ := List.exists_cons_of_ne_nil (Path.segments_ne_nil path)
  have proper : first = [] → rest ≠ [] := by
    rintro rfl rfl
    exact notEmpty (Path.eq_nil_of_segments split)
  rw [Path.components, split, Path.lead_cons proper]
  rw [split, followAll_cons] at followed
  by_cases slash : first = []
  · rw [if_pos slash] at followed ⊢
    rw [foldlM_follow_eq_ok followed, slash]
    rfl
  · rw [if_neg slash] at followed ⊢
    rw [foldlM_follow_eq_ok followed]
    split <;> rfl

/-! ## Names in a folder -/

theorem holdsNul_join {folder name : Bytes} (clean : holdsNul folder = false)
    (named : Path.IsName name) : holdsNul (Path.join folder name) = false := by
  have readable := named.readable
  unfold holdsNul at clean ⊢
  unfold Path.join
  split
  · simpa using readable
  · have other : (0 : UInt8) ≠ Path.slash := by decide
    split <;> simp_all

/-- Following a name from where a folder is found is following its path in the folder. -/
theorem walk_join {folder name : Bytes} {place : Place} (walked : top.walk folder = .ok place)
    (named : Path.IsName name) : top.walk (Path.join folder name) = top.follow place name := by
  obtain ⟨clean, proper, followed⟩ := walk_eq_ok_iff.1 walked
  obtain ⟨front, some, ends, joined⟩ := Path.segments_join folder
  have reached : top.followAll front = .ok place := by
    rcases ends with same | same
    · rwa [same] at followed
    · rw [same, followAll_append_singleton (some proper), bind_eq_ok_iff] at followed
      obtain ⟨middle, first, last⟩ := followed
      have stays : place = middle := follow_eq_ok last
      rwa [stays]
  have split := joined name named.single
  have longer : Path.join folder name ≠ [] := by
    intro empty
    rw [empty] at split
    have alone : front ++ [name] = [[]] := split.symm
    exact some proper (List.append_eq_singleton_iff.1 alone |>.elim (·.1) (by simp))
  rw [walk_eq_followAll (holdsNul_join clean named) longer, split,
    followAll_append_singleton (some proper), reached]
  rfl

/-- No entry has a name that a path could not hold, and no two entries of a folder have
one name. -/
inductive WellFormed : FileTree → Prop
  | file (content : ByteArray) : WellFormed (.file content)
  | folder {entries : List (Bytes × FileTree)} (distinct : (entries.map (·.1)).Nodup)
      (named : ∀ entry ∈ entries, Path.IsName entry.1)
      (inner : ∀ entry ∈ entries, WellFormed entry.2) : WellFormed (.folder entries)

theorem WellFormed.child? {tree child : FileTree} (formed : tree.WellFormed) {name : Bytes}
    (found : tree.child? name = some child) : child.WellFormed := by
  cases formed with
  | file content => cases found
  | folder distinct named inner =>
      rw [FileTree.child?, Option.map_eq_some_iff] at found
      obtain ⟨entry, found, rfl⟩ := found
      exact inner entry (List.mem_of_find?_eq_some found)

/-- What names lead to in a well-formed tree is well-formed. -/
theorem WellFormed.descend? {tree child : FileTree} (formed : tree.WellFormed)
    {names : List Bytes} (found : tree.descend? names = some child) : child.WellFormed := by
  induction names generalizing tree with
  | nil =>
      cases found
      exact formed
  | cons name rest ih =>
      obtain ⟨middle, first, later⟩ := Option.bind_eq_some_iff.1 found
      exact ih (formed.child? first) later

theorem descend?_append (tree : FileTree) (front back : List Bytes) :
    tree.descend? (front ++ back) = (tree.descend? front).bind (FileTree.descend? · back) := by
  induction front generalizing tree with
  | nil => rfl
  | cons name rest ih =>
      simp only [List.cons_append, FileTree.descend?, ih, Option.bind_assoc]

theorem child?_isSome {entries : List (Bytes × FileTree)} {name : Bytes}
    (member : name ∈ entries.map (·.1)) : ((folder entries).child? name).isSome := by
  simpa [FileTree.child?] using member

theorem walk_of_locate {path : Bytes} {place : Place} (located : top.locate path = .ok place) :
    top.walk path = .ok place := by
  unfold locate at located
  split at located
  · cases located
  · split at located
    · cases located
    · exact located

/-- A folder that is listed and holds a file is found inside the tree. -/
theorem list_eq_ok {folder : Bytes} {names : List Bytes} (listed : top.list folder = .ok names) :
    names = [] ∨ ∃ inner entries, top.walk folder = .ok (.inside inner) ∧
      top.descend? inner = some (.folder entries) ∧
      List.Sublist names (entries.map (·.1)) := by
  rw [list, bind_eq_ok_iff] at listed
  obtain ⟨place, located, listed⟩ := listed
  cases place with
  | above steps =>
      cases listed
      exact Or.inl rfl
  | root =>
      cases listed
      exact Or.inl rfl
  | inside inner =>
      dsimp only at listed
      split at listed
      · rename_i entries found
        cases listed
        refine Or.inr ⟨inner, entries, walk_of_locate located, found, ?_⟩
        exact List.filter_sublist.trans (List.filter_sublist.map _)
      · cases listed
      · cases listed

/-- A name leads from a folder to the entry of that name. -/
theorem follow_name {inner : List Bytes} {entries : List (Bytes × FileTree)} {name : Bytes}
    (found : top.descend? inner = some (.folder entries))
    (present : (top.descend? (inner ++ [name])).isSome) (named : Path.IsName name) :
    top.follow (.inside inner) name = .ok (.inside (inner ++ [name])) := by
  obtain ⟨notEmpty, notDot, notDots⟩ := named.proper
  have folder : top.isFolderAt (.inside inner) = true := by
    simp [isFolderAt, found, isFolder]
  rw [follow, folder, if_neg (by simp), if_neg (by simp [notEmpty, notDot]), if_neg notDots, enter,
    if_neg (Nat.not_lt.2 named.short)]
  exact if_pos present

/-- The one names of the files of a folder: the name of the folder, and then their own. -/
theorem real?_join (formed : top.WellFormed) {folder : Bytes} {names : List Bytes}
    (listed : top.list folder = .ok names) :
    ∃ inner, ∀ name ∈ names, Path.IsName name ∧
      top.real? (Path.join folder name) = some (inner ++ [name]) := by
  rcases list_eq_ok listed with rfl | ⟨inner, entries, walked, found, listed⟩
  · exact ⟨[], by simp⟩
  · refine ⟨inner, fun name member => ?_⟩
    obtain ⟨entry, own, rfl⟩ := List.mem_map.1 (listed.subset member)
    cases formed.descend? found with
    | folder distinct named inside =>
        have named := named entry own
        have present : (top.descend? (inner ++ [entry.1])).isSome := by
          rw [descend?_append, found]
          simpa [FileTree.descend?] using child?_isSome (listed.subset member)
        have leads := follow_name found present named
        rw [real?, walk_join walked named, leads]
        exact ⟨named, rfl⟩

/-- Two paths of the same components do not lead to two places. -/
theorem real?_of_components {path other : Bytes}
    (same : Path.components path = Path.components other) (leads : (top.real? path).isSome)
    (leads' : (top.real? other).isSome) : top.real? path = top.real? other := by
  unfold real? at leads leads' ⊢
  cases first : top.walk path with
  | error fault => simp [first] at leads
  | ok place =>
      cases second : top.walk other with
      | error fault => simp [second] at leads'
      | ok place' =>
          have one : place = place' := by rw [place_of_walk first, place_of_walk second, same]
          rw [one]

/-! ## Paths that are text -/

/-- The names that the path of a text goes through are text. -/
theorem isUtf8_of_name_mem {s : String} {name : Bytes}
    (member : .name name ∈ Path.components (Text.bytes s)) : Text.IsUtf8 name := by
  rw [Path.components, List.mem_append] at member
  rcases member with first | later
  · unfold Path.lead at first
    split at first
    · simp at first
    · split at first <;> simp at first
    · simp at first
  · obtain ⟨segment, between, component⟩ := List.mem_filterMap.1 later
    unfold Path.component? at component
    split at component
    · cases component
    · split at component
      · cases component
      · cases component
        exact Path.isUtf8_of_mem_segments between

theorem Place.isUtf8_step {place : Place} {component : Path.Component}
    (named : ∀ name, component = .name name → Text.IsUtf8 name)
    (start : ∀ name ∈ place.name, Text.IsUtf8 name) :
    ∀ name ∈ (place.step component).name, Text.IsUtf8 name := by
  have above : ∀ (steps : Nat), ∀ name ∈ (Place.above steps).name, Text.IsUtf8 name := by
    intro steps name member
    exact ⟨"..", (List.mem_replicate.1 member).2.symm⟩
  have root : ∀ name ∈ Place.root.name, Text.IsUtf8 name := by
    intro name member
    exact ⟨"/", (List.mem_singleton.1 member).symm⟩
  cases component with
  | root => exact root
  | here => exact start
  | up =>
      cases place with
      | inside names =>
          change ∀ name ∈ (Place.inside names).up.name, Text.IsUtf8 name
          rw [Place.up]
          split
          · exact above 1
          · exact fun name member => start name (List.dropLast_subset names member)
      | above steps => exact above (steps + 1)
      | root => exact root
  | name text =>
      cases place with
      | inside names =>
          intro name member
          rcases List.mem_append.1 member with old | new
          · exact start name old
          · exact (List.mem_singleton.1 new) ▸ named text rfl
      | above steps => exact start
      | root => exact start

/-- **A path through texts leads to a place with a name of texts.** -/
theorem isUtf8_of_real? {path : Bytes} {place : List Bytes} (leads : top.real? path = some place)
    (named : ∀ name, .name name ∈ Path.components path → Text.IsUtf8 name) :
    ∀ name ∈ place, Text.IsUtf8 name := by
  have steps : ∀ (components : List Path.Component) (start : Place),
      (∀ name, .name name ∈ components → Text.IsUtf8 name) →
        (∀ name ∈ start.name, Text.IsUtf8 name) →
          ∀ name ∈ (components.foldl Place.step start).name, Text.IsUtf8 name := by
    intro components
    induction components with
    | nil => exact fun start _ here => here
    | cons component rest ih =>
        intro start named here
        refine ih _ (fun name later => named name (List.mem_cons_of_mem _ later)) ?_
        exact Place.isUtf8_step (fun name first => named name (by simp [first])) here
  unfold real? at leads
  cases walked : top.walk path with
  | error fault =>
      rw [walked] at leads
      cases leads
  | ok reached =>
      rw [walked] at leads
      cases leads
      rw [place_of_walk walked]
      exact steps _ _ named (by simp [Place.name])

end FileTree

end MapAudit
