import MapAudit.Proofs.Isolation
import MapAudit.Proofs.Place

/-!
# Inspecting and loading

Inspecting compiles a document on its own account.  Where no record of the catalogue leads to
the file, that gives what loading the file would (`inspect_of_unseen`).

After a scan the documents of the folder are on record, and a path is looked for among the
origins.  An origin is the text that a path shows.  If the path is that text, its record is
found however the path is written (`inspect_of_told`): where there are no links, a spelling of
the path of one file is told apart from the paths of all others
(`Files.Unlinked.same_iff_of_spells`).  If a file or a folder on the way to it has a name that
is no text, no origin leads there (`FileTree.same_misnamed`).  The document is then compiled
anew, and its id is taken, by itself.
-/

namespace MapAudit

set_option autoImplicit false

/-! ## Spellings -/

/-- A folder as a file system without links shows it: each file is listed once and leads
to a place of its own, and its path leads nowhere else however it is written. -/
structure Files.Unlinked (files : Files) (folder : Bytes) (names : List Bytes) : Prop where
  listed : files.names folder = .ok names
  distinct : names.Nodup
  named : ∀ name ∈ names, Path.IsName name
  present : ∀ name ∈ names, (files.real? (Path.join folder name)).isSome
  apart : ∀ a ∈ names, ∀ b ∈ names,
    files.real? (Path.join folder a) = files.real? (Path.join folder b) → a = b
  spelled : ∀ name ∈ names, ∀ path,
    Path.components path = Path.components (Path.join folder name) →
      (files.real? path).isSome → files.real? path = files.real? (Path.join folder name)

/-- A way to write the path of a file: it leads to the same place, or has the same
components. -/
def Files.Spells (files : Files) (path origin : Bytes) : Prop :=
  (files.real? path).isSome ∧ files.real? path = files.real? origin ∨
    Path.components path = Path.components origin

section Spelling

variable {files : Files} {folder : Bytes} {names : List Bytes} {name other path : Bytes}

theorem Files.same_of_real? {x : List Bytes} (first : files.real? other = some x)
    (second : (files.real? path).isSome) :
    files.same other path = true ↔ files.real? path = some x := by
  obtain ⟨y, found⟩ := Option.isSome_iff_exists.1 second
  rw [Files.same, first, found, Option.some.injEq]
  exact beq_iff_eq.trans eq_comm

theorem Files.same_of_real?_none (nowhere : files.real? other = none ∨ files.real? path = none) :
    files.same other path = true ↔ Path.components other = Path.components path := by
  unfold Files.same
  rcases nowhere with nowhere | nowhere
  · rw [nowhere]
    simp
  · rw [nowhere]
    cases files.real? other <;> simp

/-- A spelling that leads nowhere has the components of the path. -/
theorem Files.Spells.components_eq (spells : files.Spells path other)
    (nowhere : files.real? path = none) : Path.components path = Path.components other := by
  rcases spells with ⟨somewhere, -⟩ | written
  · simp [nowhere] at somewhere
  · exact written

/-- Where there are no links, a spelling of the path of a file is the same as the path of
that file, and of no other of the folder. -/
theorem Files.Unlinked.same_iff_of_spells (unlinked : files.Unlinked folder names)
    (member : name ∈ names) (spells : files.Spells path (Path.join folder name))
    (listed : other ∈ names) :
    files.same (Path.join folder other) path = true ↔ other = name := by
  obtain ⟨place, found⟩ := Option.isSome_iff_exists.1 (unlinked.present other listed)
  cases leads : files.real? path with
  | none =>
      -- A path that leads nowhere is compared by its components.
      rw [Files.same_of_real?_none (Or.inr leads), spells.components_eq leads]
      constructor
      · exact Path.name_eq_of_components (unlinked.named other listed) (unlinked.named name member)
      · rintro rfl
        rfl
  | some target =>
      have one : files.real? path = files.real? (Path.join folder name) := by
        rcases spells with ⟨-, one⟩ | written
        · exact one
        · exact unlinked.spelled name member path written (by simp [leads])
      rw [Files.same_of_real? found (by simp [leads]), one, ← found]
      constructor
      · exact fun same => unlinked.apart other listed name member same.symm
      · rintro rfl
        rfl

end Spelling

namespace FileTree

variable {top : FileTree} {folder : Bytes} {names : List Bytes}

theorem names_eq_ok_iff : top.files.names folder = .ok names ↔ top.list folder = .ok names := by
  have reach : ∀ listed : List Bytes,
      (listed.map Except.ok).mapM id = (.ok listed : Except FileFault (List Bytes)) := by
    intro listed
    induction listed with
    | nil => rfl
    | cons name rest ih =>
        rw [List.map_cons, List.mapM_cons, ih]
        rfl
  have shown : top.files.list folder = (List.map Except.ok) <$> top.list folder := rfl
  rw [Files.names, shown]
  cases top.list folder with
  | error fault => simp [Functor.map, Except.map]
  | ok listed => simp [Functor.map, Except.map, reach]

/-- Every folder of a file tree is one without links. -/
theorem WellFormed.unlinked (formed : top.WellFormed)
    (listed : top.files.names folder = .ok names) : top.files.Unlinked folder names := by
  have inside := names_eq_ok_iff.1 listed
  obtain ⟨inner, leads⟩ := real?_join formed inside
  have present : ∀ name ∈ names, (top.real? (Path.join folder name)).isSome := by
    intro name member
    rw [(leads name member).2]
    rfl
  refine ⟨listed, ?_, fun name member => (leads name member).1, present, ?_, ?_⟩
  · rcases list_eq_ok inside with rfl | ⟨inner, entries, -, found, within⟩
    · exact List.nodup_nil
    · cases formed.descend? found with
      | folder distinct named inside => exact within.nodup distinct
  · intro a first b second same
    have same : some (inner ++ [a]) = some (inner ++ [b]) :=
      (leads a first).2.symm.trans (same.trans (leads b second).2)
    simpa using same
  · intro name member path same leads
    exact real?_of_components same leads (present name member)

/-- What a path leads to, or a folder on the way there, has a name that is no text. -/
def Misnamed (top : FileTree) (path : Bytes) : Prop :=
  ∃ place, top.real? path = some place ∧ ∃ name ∈ place, ¬ Text.IsUtf8 name

/-- **No text leads to a place with a name that is no text.** -/
theorem same_misnamed {path spelling : Bytes} (misnamed : top.Misnamed path)
    (spells : top.files.Spells spelling path) (origin : String) :
    top.files.same (Text.bytes origin) spelling = false := by
  obtain ⟨place, leads, name, inside, noText⟩ := misnamed
  have foreign : ∀ other, top.real? other = some place →
      (∀ name, .name name ∈ Path.components other → Text.IsUtf8 name) → False :=
    fun other leads named => noText (isUtf8_of_real? leads named name inside)
  have apart : ∀ other, top.real? other = some place →
      Path.components (Text.bytes origin) ≠ Path.components other := by
    intro other leads same
    refine foreign other leads fun name member => isUtf8_of_name_mem (s := origin) ?_
    rwa [same]
  rw [Bool.eq_false_iff]
  intro same
  cases there : top.real? spelling with
  | none =>
      rw [Files.same_of_real?_none (Or.inr there)] at same
      exact apart path leads (same.trans (spells.components_eq there))
  | some target =>
      have one : top.real? spelling = some place := by
        rcases spells with ⟨-, one⟩ | written
        · exact one.trans leads
        · rw [← leads]
          exact real?_of_components written (by simp [there]) (by simp [leads])
      cases here : top.real? (Text.bytes origin) with
      | none =>
          rw [Files.same_of_real?_none (Or.inl here)] at same
          exact apart spelling one same
      | some x =>
          rw [Files.same_of_real? here (by simp [files, there])] at same
          have meets : top.real? (Text.bytes origin) = some place :=
            here.trans (same.symm.trans one)
          exact foreign _ meets fun _ => isUtf8_of_name_mem

end FileTree

namespace Fate

/-- What becomes of a document that is loaded once more: its own id is taken. -/
def again (fate : Fate) : Except CheckError Pipeline :=
  match fate.outcome with
  | .ok p => .error (.duplicateCheck p.id)
  | .error e => .error e

variable {fate : Fate} {files : Files} {path : Bytes}

/-- A document that was loaded is refused for its own id when it is loaded once more. -/
theorem again_of_id {id : String} (loaded : fate.outcome.map (·.id) = .ok id) :
    fate.again = .error (.duplicateCheck id) := by
  obtain ⟨own, outcome⟩ := fate
  cases outcome with
  | ok p =>
      cases loaded
      rfl
  | error e => cases loaded

theorem any_loaded?_iff :
    (fate.loaded?.any fun entry => files.same (Text.bytes entry.1) path) = true ↔
      files.same (Text.bytes (Text.ofBytes fate.path)) path = true ∧ ∃ p, fate.outcome = .ok p := by
  obtain ⟨own, outcome⟩ := fate
  cases outcome <;> simp

theorem any_rejected?_iff :
    (fate.rejected?.any fun entry => files.same (Text.bytes entry.origin) path) = true ↔
      files.same (Text.bytes (Text.ofBytes fate.path)) path = true ∧
        ∃ e, fate.outcome = .error e := by
  obtain ⟨own, outcome⟩ := fate
  cases outcome <;> simp

end Fate

namespace Catalogue

variable {reader : Markup.Reader} {c : Catalogue} {files : Files} {names : List Bytes}
  {path : Bytes} {fate : Fate}

/-! ## Documents that are not on record -/

/-- The outcome of a file is the verdict on its document. -/
theorem outcome_loadFile (files : Files) (c : Catalogue) (path : Bytes) :
    (c.loadFile reader files path).outcome = c.verdict reader (files.document path) := by
  rw [loadFile_eq_record]
  cases c.verdict reader (files.document path) <;> rfl

/-- Inspecting a document that is recorded nowhere is loading it without recording it. -/
theorem inspect_of_unseen
    (unseen : ∀ origin ∈ c.origins ++ c.refused, files.same (Text.bytes origin) path = false) :
    c.inspect reader files path = (c.loadFile reader files path).outcome := by
  have notLoaded : c.recorded? files path = none := by
    have none : c.origins.findIdx? (fun origin => files.same (Text.bytes origin) path) = none := by
      rw [List.findIdx?_eq_none_iff]
      exact fun origin member => unseen origin (List.mem_append_left _ member)
    rw [recorded?, none]
    rfl
  have notRefused :
      c.rejected.find? (fun entry => files.same (Text.bytes entry.origin) path) = none := by
    refine List.find?_eq_none.2 fun entry member => ?_
    simp [unseen entry.origin (List.mem_append_right _ (List.mem_map_of_mem member))]
  rw [outcome_loadFile, inspect, notLoaded]
  dsimp only
  rw [notRefused]
  dsimp only
  -- What is left is to compile the document and to see whether its id is free.
  unfold verdict Document.compiled Files.document
  cases files.read path with
  | error fault => rfl
  | ok text =>
      dsimp only
      cases Pipeline.ofDocument reader text with
      | error e => rfl
      | ok p =>
          dsimp only [bind, Except.bind]
          split <;> rfl

/-! ## Documents of a scanned folder -/

/-- The fates of a scan are those of the documents of the folder, in their order. -/
theorem paths_fates (reader : Markup.Reader) (files : Files) (c : Catalogue) (names : List Bytes) :
    (c.fates reader files names).map (·.path) = c.documents names :=
  paths_fatesOf c.clear _

/-- The place of an origin is that of its check. -/
theorem recorded?_of_pairs {entries : List (String × Pipeline)}
    (origins : c.origins = entries.map (·.1)) (checks : c.checks = entries.map (·.2)) :
    c.recorded? files path =
      (entries.find? fun entry => files.same (Text.bytes entry.1) path).map (·.2) := by
  rw [recorded?, origins, checks, List.findIdx?_map, List.find?_eq_bind_findIdx?_getElem?,
    Option.map_bind]
  simp only [List.getElem?_map, Function.comp_def]

/-- **After a scan, a document has its recorded outcome** under every path that leads to its
record alone: its check if it was loaded, and its refusal otherwise. -/
theorem inspect_of_told (listed : files.names c.folder = .ok names) (distinct : names.Nodup)
    (member : fate ∈ c.fates reader files names)
    (tells : ∀ other ∈ c.documents names,
      files.same (Text.bytes (Text.ofBytes other)) path = true ↔ other = fate.path) :
    (c.loadAll reader files).catalogue.inspect reader files path = fate.outcome := by
  have divided := divided_loadAll reader listed
  have known : ∀ other ∈ c.fates reader files names,
      files.same (Text.bytes (Text.ofBytes other.path)) path = true ↔ other.path = fate.path := by
    intro other there
    refine tells other.path ?_
    rw [← divided.each]
    exact List.mem_map_of_mem there
  have alone : ∀ other ∈ c.fates reader files names, other.path = fate.path → other = fate :=
    fun other there own => fate_unique distinct there member own
  rw [inspect, recorded?_of_pairs divided.origins divided.checks, divided.rejected,
    List.find?_filterMap, List.find?_filterMap]
  obtain ⟨own, outcome⟩ := fate
  cases outcome with
  | ok p =>
      rw [find?_of_unique (fun other there => ?_) member]
      · rfl
      · rw [Fate.any_loaded?_iff, known other there]
        exact ⟨fun told => alone other there told.1, fun same => ⟨by rw [same], p, by rw [same]⟩⟩
  | error e =>
      have missing : (c.fates reader files names).find? (fun other =>
          other.loaded?.any fun entry => files.same (Text.bytes entry.1) path) = none := by
        refine List.find?_eq_none.2 fun other there found => ?_
        obtain ⟨same, p, loaded⟩ := Fate.any_loaded?_iff.1 found
        rw [alone other there ((known other there).1 same)] at loaded
        cases loaded
      rw [missing, find?_of_unique (fun other there => ?_) member]
      · rfl
      · rw [Fate.any_rejected?_iff, known other there]
        exact ⟨fun told => alone other there told.1, fun same => ⟨by rw [same], e, by rw [same]⟩⟩

/-- What becomes of a document is decided by what is loaded before it. -/
theorem exists_verdict_of_mem_fatesOf {paths : List Bytes}
    (member : fate ∈ c.fatesOf reader files paths) :
    ∃ before : Catalogue, before.verdict reader (files.document fate.path) = fate.outcome ∧
      before.checks ⊆ (c.loadFiles reader files paths).1.checks := by
  induction paths generalizing c with
  | nil => cases member
  | cons path rest ih =>
      rw [fatesOf, List.mem_cons] at member
      rcases member with rfl | later
      · refine ⟨c, (outcome_loadFile files c path).symm, ?_⟩
        rw [records_loadFiles]
        exact List.subset_append_left _ _
      · exact ih later

/-- A check that a scan loads is what its document compiles to. -/
theorem compiled_of_mem_fates {p : Pipeline} (member : fate ∈ c.fates reader files names)
    (loaded : fate.outcome = .ok p) : (files.document fate.path).compiled reader = .ok p := by
  obtain ⟨before, decided, -⟩ := exists_verdict_of_mem_fatesOf member
  exact (verdict_eq_ok_iff.1 (decided.trans loaded)).1

/-- A document of the folder that is loaded again is refused. -/
theorem outcome_again (listed : files.names c.folder = .ok names)
    (member : fate ∈ c.fates reader files names) :
    ((c.loadAll reader files).catalogue.loadFile reader files fate.path).outcome = fate.again := by
  obtain ⟨before, decided, held⟩ := exists_verdict_of_mem_fatesOf member
  rw [← catalogue_loadAll listed] at held
  have loaded := (divided_loadAll reader listed).checks
  rw [outcome_loadFile]
  obtain ⟨path, outcome⟩ := fate
  cases outcome with
  | ok p =>
      refine verdict_eq_error_iff.2 (Or.inr ⟨p, compiled_of_mem_fates member rfl, ⟨p, ?_, rfl⟩, rfl⟩)
      rw [loaded]
      exact List.mem_map_of_mem (f := Prod.snd)
        (List.mem_filterMap.2 ⟨_, member, Fate.loaded?_ok path p⟩)
  | error e =>
      -- What holds the id of a duplicate is still there after the scan.
      refine verdict_eq_error_iff.2 ((verdict_eq_error_iff.1 decided).imp_right ?_)
      rintro ⟨p, compiled, ⟨q, earlier, same⟩, rfl⟩
      exact ⟨p, compiled, ⟨q, held earlier, same⟩, rfl⟩

/-- A document whose path is text has its recorded outcome, unless the path of one that is no
text shows like it. -/
theorem inspect_of_scanned (unlinked : files.Unlinked c.folder names)
    (member : fate ∈ c.fates reader files names) (written : Text.IsUtf8 fate.path)
    (spells : files.Spells path fate.path)
    (apart : ∀ other ∈ c.documents names, ¬ Text.IsUtf8 other →
      files.same (Text.bytes (Text.ofBytes other)) path = false) :
    (c.loadAll reader files).catalogue.inspect reader files path = fate.outcome := by
  refine inspect_of_told unlinked.listed unlinked.distinct member fun other there => ?_
  have own : fate.path ∈ c.documents names := by
    rw [← c.paths_fates reader files names]
    exact List.mem_map_of_mem member
  by_cases text : Text.IsUtf8 other
  · obtain ⟨name, listed, -, same⟩ := mem_documents.1 own
    obtain ⟨name', listed', -, rfl⟩ := mem_documents.1 there
    rw [← same] at spells ⊢
    rw [Text.bytes_ofBytes_iff.2 text, unlinked.same_iff_of_spells listed spells listed']
    exact (Path.join_injective c.folder).eq_iff.symm
  · rw [apart other there text]
    refine iff_of_false (by simp) ?_
    rintro rfl
    exact text written

/-- **Inspecting agrees with loading, as far as paths are text.**  It gives an outcome and
nothing else, so the catalogue stays as it is and nothing is logged.  Where no recorded origin
is the same file as the path, it gives what loading the file would.

Right after a scan of a folder without links, every document is on record, and a loaded check is
what its document compiles to.  For every way to write the path of a document, if that is text
and no path that is not shows like it, inspecting gives what became of the document.  In a file
tree, where every folder is without links, a document with a name that is no text, or in a folder
with such a name, is taken for one that was never seen; so if it was loaded, it is refused as a
duplicate, of itself. -/
theorem inspect_agrees_with_loading (reader : Markup.Reader) (c : Catalogue) :
    (∀ (files : Files) (path : Bytes),
      (∀ origin ∈ c.origins ++ c.refused, files.same (Text.bytes origin) path = false) →
        c.inspect reader files path = (c.loadFile reader files path).outcome) ∧
    (∀ (files : Files) (names : List Bytes), files.Unlinked c.folder names →
      let after := (c.loadAll reader files).catalogue
      c.Divided names (c.fates reader files names) after ∧
      ∀ fate ∈ c.fates reader files names,
        (∀ p, fate.outcome = .ok p → (files.document fate.path).compiled reader = .ok p) ∧
        (Text.IsUtf8 fate.path → ∀ path, files.Spells path fate.path →
          (∀ other ∈ c.documents names, ¬ Text.IsUtf8 other →
            files.same (Text.bytes (Text.ofBytes other)) path = false) →
          after.inspect reader files path = fate.outcome)) ∧
    ∀ (tree : FileTree) (names : List Bytes), tree.WellFormed →
      tree.files.names c.folder = .ok names →
      let after := (c.loadAll reader tree.files).catalogue
      tree.files.Unlinked c.folder names ∧
      ∀ fate ∈ c.fates reader tree.files names, tree.Misnamed fate.path →
        (∀ path, tree.files.Spells path fate.path → after.inspect reader tree.files path =
          (after.loadFile reader tree.files path).outcome) ∧
        after.inspect reader tree.files fate.path = fate.again := by
  refine ⟨fun files path => inspect_of_unseen, ?_, ?_⟩
  · intro files names unlinked after
    refine ⟨divided_loadAll reader unlinked.listed, fun fate member => ⟨?_, ?_⟩⟩
    · exact fun p => compiled_of_mem_fates member
    · exact fun written path => inspect_of_scanned unlinked member written
  · intro tree names formed listed after
    refine ⟨formed.unlinked listed, fun fate member misnamed => ?_⟩
    have unseen : ∀ path, tree.files.Spells path fate.path →
        after.inspect reader tree.files path = (after.loadFile reader tree.files path).outcome :=
      fun path spells => inspect_of_unseen fun origin _ =>
        FileTree.same_misnamed misnamed spells origin
    exact ⟨unseen, (unseen fate.path (Or.inr rfl)).trans (outcome_again listed member)⟩

namespace Example

def shelved : List Bytes :=
  [Text.bytes "b.xml", blurred 0xFF, Text.bytes "a.xml", Text.bytes "c.xml"]

/-- A folder with the same check in two files, another check in a file whose name is no text, a
file that is no text, and a folder. -/
def shelf : FileTree :=
  .folder [(Text.bytes "d", .folder [(Text.bytes "b.xml", .file "1".toUTF8),
    (Text.bytes "sub", .folder []), (blurred 0xFF, .file "2".toUTF8),
    (Text.bytes "a.xml", .file "1".toUTF8), (Text.bytes "c.xml", .file ⟨#[0xff]⟩)])]

/-- A catalogue that refused a document before. -/
def stale : Catalogue :=
  { folder := Text.bytes "d", rejected := [⟨"d/old.xml", .duplicateCheck "1"⟩] }

theorem wellFormed_shelf : shelf.WellFormed := by
  refine .folder (by decide) (by decide +kernel) fun entry member => ?_
  obtain rfl := List.mem_singleton.1 member
  refine .folder (by decide +kernel) (by decide +kernel) fun entry member => ?_
  simp only [List.mem_cons, List.not_mem_nil, or_false] at member
  rcases member with rfl | rfl | rfl | rfl | rfl
  · exact .file _
  · exact .folder List.nodup_nil (by simp) (by simp)
  · exact .file _
  · exact .file _
  · exact .file _

theorem names_shelf : shelf.files.names (Text.bytes "d") = .ok shelved := by
  decide +kernel

theorem documents_shelved :
    stale.documents shelved = [Text.bytes "d/a.xml", Text.bytes "d/b.xml", Text.bytes "d/c.xml",
      Text.bytes "d/" ++ blurred 0xFF] := by
  have ordered : [Text.bytes "a.xml", Text.bytes "b.xml", Text.bytes "c.xml",
      blurred 0xFF].Pairwise (· ≤ ·) := by decide +kernel
  rw [documents, ← eq_sorted ordered (by decide +kernel)]
  rfl

/-- The ids of the documents on the shelf that are loaded, and why the others are refused. -/
def outcomes : List (Bytes × Except CheckError String) :=
  [(Text.bytes "d/a.xml", .ok "1"),
    (Text.bytes "d/b.xml", .error (.duplicateCheck "1")),
    (Text.bytes "d/c.xml", .error (.malformedDocument (.unreadableFile .notUtf8))),
    (Text.bytes "d/" ++ blurred 0xFF, .ok "2")]

theorem fates_shelf : (stale.fates readTwo shelf.files shelved).map
    (fun fate => (fate.path, fate.outcome.map (·.id))) = outcomes := by
  rw [fates, documents_shelved]
  decide +kernel

theorem exists_fate_shelf {path : Bytes} {outcome : Except CheckError String}
    (listed : (path, outcome) ∈ outcomes) :
    ∃ fate ∈ stale.fates readTwo shelf.files shelved,
      fate.path = path ∧ fate.outcome.map (·.id) = outcome := by
  rw [← fates_shelf] at listed
  obtain ⟨fate, member, same⟩ := List.mem_map.1 listed
  exact ⟨fate, member, congrArg Prod.fst same, congrArg Prod.snd same⟩

/-- The name that is no text shows like none of these spellings. -/
theorem apart_shelf : ∀ path ∈ [Text.bytes "./d/sub/..//a.xml", Text.bytes "d/../d/b.xml"],
    ∀ other ∈ stale.documents shelved, ¬ Text.IsUtf8 other →
      shelf.files.same (Text.bytes (Text.ofBytes other)) path = false := by
  rw [documents_shelved]
  decide +kernel

theorem misnamed_shelf : shelf.Misnamed (Text.bytes "d/" ++ blurred 0xFF) :=
  ⟨[Text.bytes "d", blurred 0xFF], by decide +kernel, blurred 0xFF, by simp, by decide +kernel⟩

end Example

/-- A file that is not among the recorded ones; and right after a scan, a loaded check and a
duplicate under odd spellings, and a check in a file whose name is no text. -/
theorem shelf_inspect_agrees :
    Example.shelf.WellFormed ∧
    Example.shelf.files.names (Text.bytes "d") = .ok Example.shelved ∧
    Example.stale.inspect Example.readTwo Example.shelf.files (Text.bytes "d/a.xml") =
      (Example.stale.loadFile Example.readTwo Example.shelf.files (Text.bytes "d/a.xml")).outcome ∧
    let after := (Example.stale.loadAll Example.readTwo Example.shelf.files).catalogue
    let inspect path := (after.inspect Example.readTwo Example.shelf.files path).map (·.id)
    inspect (Text.bytes "./d/sub/..//a.xml") = .ok "1" ∧
      inspect (Text.bytes "d/../d/b.xml") = .error (.duplicateCheck "1") ∧
      inspect (Text.bytes "d/" ++ Example.blurred 0xFF) = .error (.duplicateCheck "2") := by
  obtain ⟨unseen, scanned, misnamed⟩ :=
    inspect_agrees_with_loading Example.readTwo Example.stale
  obtain ⟨linkless, again⟩ :=
    misnamed Example.shelf _ Example.wellFormed_shelf Example.names_shelf
  obtain ⟨-, recorded⟩ := scanned Example.shelf.files _ linkless
  refine ⟨Example.wellFormed_shelf, Example.names_shelf, ?_, ?_, ?_, ?_⟩
  · exact unseen Example.shelf.files (Text.bytes "d/a.xml") (by decide +kernel)
  · obtain ⟨fate, member, own, outcome⟩ := Example.exists_fate_shelf (.head _)
    rw [← outcome]
    refine congrArg (Except.map _) ((recorded fate member).2 ?_ _ ?_
      (Example.apart_shelf _ (.head _)))
    · exact own ▸ Text.isUtf8_bytes _
    · exact own ▸ Or.inl (by decide +kernel)
  · obtain ⟨fate, member, own, outcome⟩ := Example.exists_fate_shelf (.tail _ (.head _))
    rw [← outcome]
    refine congrArg (Except.map _) ((recorded fate member).2 ?_ _ ?_
      (Example.apart_shelf _ (.tail _ (.head _))))
    · exact own ▸ Text.isUtf8_bytes _
    · exact own ▸ Or.inl (by decide +kernel)
  · obtain ⟨fate, member, own, outcome⟩ :=
      Example.exists_fate_shelf (.tail _ (.tail _ (.tail _ (.head _))))
    obtain ⟨-, refused⟩ := again fate member (own ▸ Example.misnamed_shelf)
    rw [own, Fate.again_of_id outcome] at refused
    exact congrArg (Except.map _) refused

/-- A scan loads the check in the file whose name is no text, and inspecting that file refuses it
as a duplicate of itself.  A path with a slash behind the name of a file leads nowhere, so no
origin leads there and it cannot be loaded; but inspecting it gives the check in the file. -/
theorem shelf_inspect_disagrees :
    let after := (Example.stale.loadAll Example.readTwo Example.shelf.files).catalogue
    let inspect path := (after.inspect Example.readTwo Example.shelf.files path).map (·.id)
    let load path := (after.loadFile Example.readTwo Example.shelf.files path).outcome.map (·.id)
    let misnamed := Text.bytes "d/" ++ Example.blurred 0xFF
    let slashed := Text.bytes "d/a.xml/"
    (misnamed, .ok "2") ∈ (Example.stale.fates Example.readTwo Example.shelf.files
        Example.shelved).map (fun fate => (fate.path, fate.outcome.map (·.id))) ∧
      inspect misnamed = .error (.duplicateCheck "2") ∧
      Example.shelf.real? slashed = none ∧
      load slashed = .error (.malformedDocument (.unreadableFile .notFolder)) ∧
      inspect slashed = .ok "1" := by
  dsimp only
  rw [Example.fates_shelf, catalogue_loadAll Example.names_shelf, Example.documents_shelved]
  decide +kernel

end Catalogue

end MapAudit
