import MapAudit.Proofs.Loading
import MapAudit.Proofs.Utf8
import Mathlib.Data.List.Sort

/-!
# Refused documents leave nothing behind

What becomes of a document is its `Fate`: the outcome of loading the file it is in.  The
records of a scan are the fates of the documents of the folder, each once (`divided_loadAll`).
Two files may have one origin, if their paths are no text, but never one path.

A document that is refused has no part in what becomes of the documents after it
(`loadFiles_filter`), so removing it from the folder does not change what a scan loads.
Removing files may change the order in which a folder is listed; the documents are
taken in the order of their names all the same (`documents_of_perm`).
-/

namespace MapAudit

set_option autoImplicit false

/-! ## The documents of a folder -/

theorem Path.join_injective (folder : Bytes) : Function.Injective (Path.join folder) := by
  intro a b same
  unfold Path.join at same
  split at same
  · exact same
  · split at same
    · exact List.append_cancel_left same
    · exact (List.cons.inj (List.append_cancel_left same)).2

/-- What is left of a folder without some of its files: the others are listed, in any
order, and read as before. -/
structure Files.Removed (files : Files) (folder : Bytes) (names gone : List Bytes)
    (after : Files) : Prop where
  listed : files.names folder = .ok names
  left : ∃ rest, after.names folder = .ok rest ∧ rest.Perm (names.filter (· ∉ gone))
  read : ∀ name ∈ names, name ∉ gone →
    after.read (Path.join folder name) = files.read (Path.join folder name)

section Names

variable {names : List Bytes}

theorem pairwise_sorted (names : List Bytes) :
    (names.mergeSort fun a b => decide (a ≤ b)).Pairwise (· ≤ ·) := by
  have total : Std.Total fun a b : Bytes => a ≤ b := ⟨List.le_total⟩
  have trans : IsTrans Bytes (· ≤ ·) := ⟨fun _ _ _ => List.le_trans⟩
  exact List.pairwise_mergeSort' (· ≤ ·) names

/-- A list of names has one order. -/
theorem eq_sorted {sorted : List Bytes} (ordered : sorted.Pairwise (· ≤ ·))
    (same : sorted.Perm names) : sorted = names.mergeSort fun a b => decide (a ≤ b) :=
  (same.trans (List.mergeSort_perm names _).symm).eq_of_pairwise
    (fun _ _ _ _ => List.le_antisymm) ordered (pairwise_sorted names)

end Names

namespace Catalogue

variable {reader : Markup.Reader} {c c' : Catalogue} {names : List Bytes}
  {files other after : Files}

/-- No document of a folder is loaded twice. -/
theorem nodup_documents (c : Catalogue) (distinct : names.Nodup) : (c.documents names).Nodup := by
  refine List.Nodup.map (Path.join_injective c.folder) ?_
  rw [(List.mergeSort_perm _ _).nodup_iff]
  exact distinct.filter _

/-- The name is that of a document. -/
def Matches (c : Catalogue) (name : Bytes) : Prop :=
  Path.extension? name = some (Text.bytes c.extension)

/-- The documents of a folder are the files whose names match. -/
theorem mem_documents {path : Bytes} :
    path ∈ c.documents names ↔ ∃ name ∈ names, c.Matches name ∧ Path.join c.folder name = path := by
  simp [documents, Matches, and_assoc]

/-- The order in which a folder is listed does not matter. -/
theorem documents_of_perm (c : Catalogue) {other : List Bytes} (same : names.Perm other) :
    c.documents names = c.documents other := by
  unfold documents
  rw [eq_sorted (pairwise_sorted _) ((List.mergeSort_perm _ _).trans (same.filter _))]

/-- Documents that are removed leave the others in their order. -/
theorem documents_filter (c : Catalogue) (gone : List Bytes) :
    c.documents (names.filter (· ∉ gone)) =
      (c.documents names).filter (· ∉ gone.map (Path.join c.folder)) := by
  have own : ((fun path => decide (path ∉ gone.map (Path.join c.folder))) ∘ Path.join c.folder) =
      fun name => decide (name ∉ gone) := by
    funext name
    simp only [Function.comp_apply, List.mem_map_of_injective (Path.join_injective c.folder)]
  unfold documents
  rw [List.filter_map, own]
  congr 1
  refine (eq_sorted ((pairwise_sorted _).filter _) ?_).symm
  rw [List.filter_comm]
  exact (List.mergeSort_perm _ _).filter _

/-- Loading files depends on the documents in them alone. -/
theorem loadFiles_congr {paths : List Bytes}
    (same : paths.map other.document = paths.map files.document) (c : Catalogue) :
    c.loadFiles reader other paths = c.loadFiles reader files paths := by
  induction paths generalizing c with
  | nil => rfl
  | cons path rest ih =>
      rw [List.map_cons, List.map_cons, List.cons.injEq] at same
      obtain ⟨first, later⟩ := same
      have step : c.loadFile reader other path = c.loadFile reader files path := by
        rw [loadFile_eq_record, loadFile_eq_record, first]
      rw [loadFiles, loadFiles, step, ih later]

theorem catalogue_loadAll (listed : files.names c.folder = .ok names) :
    (c.loadAll reader files).catalogue =
      (c.clear.loadFiles reader files (c.documents names)).1 := by
  rw [loadAll, listed]

end Catalogue

/-! ## What becomes of documents -/

/-- A document in a file, and what became of it. -/
structure Fate where
  path : Bytes
  outcome : Except CheckError Pipeline

namespace Fate

/-- The origin and the check of a document that was loaded. -/
def loaded? (fate : Fate) : Option (String × Pipeline) :=
  fate.outcome.toOption.map fun p => (Text.ofBytes fate.path, p)

def rejected? (fate : Fate) : Option Rejected :=
  match fate.outcome with
  | .ok _ => none
  | .error e => some ⟨Text.ofBytes fate.path, e⟩

section

variable (path : Bytes) (p : Pipeline) (e : CheckError)

@[simp] theorem loaded?_ok : (⟨path, .ok p⟩ : Fate).loaded? = some (Text.ofBytes path, p) := rfl

@[simp] theorem loaded?_error : (⟨path, .error e⟩ : Fate).loaded? = none := rfl

@[simp] theorem rejected?_ok : (⟨path, .ok p⟩ : Fate).rejected? = none := rfl

@[simp] theorem rejected?_error :
    (⟨path, .error e⟩ : Fate).rejected? = some ⟨Text.ofBytes path, e⟩ := rfl

end

end Fate

namespace Catalogue

variable {reader : Markup.Reader} {c c' : Catalogue} {names : List Bytes}
  {files other after : Files}

/-- Where the refused documents come from, in the order of loading. -/
def refused (c : Catalogue) : List String :=
  c.rejected.map (·.origin)

/-- What becomes of the documents in some files that are loaded one after another. -/
def fatesOf (reader : Markup.Reader) (files : Files) (c : Catalogue) : List Bytes → List Fate
  | [] => []
  | path :: rest =>
      let step := c.loadFile reader files path
      ⟨path, step.outcome⟩ :: step.catalogue.fatesOf reader files rest

/-- What becomes of the documents of a folder when it is scanned. -/
def fates (reader : Markup.Reader) (files : Files) (c : Catalogue) (names : List Bytes) :
    List Fate :=
  c.clear.fatesOf reader files (c.documents names)

/-- One file: its document is loaded or refused, and nothing else happens. -/
theorem loadFile_cases (reader : Markup.Reader) (files : Files) (c : Catalogue) (path : Bytes) :
    (∃ p, (c.loadFile reader files path).outcome = .ok p ∧
      (c.loadFile reader files path).catalogue = { c with
        checks := c.checks ++ [p], origins := c.origins ++ [Text.ofBytes path] }) ∨
    ∃ e, (c.loadFile reader files path).outcome = .error e ∧
      (c.loadFile reader files path).catalogue = { c with
        rejected := c.rejected ++ [⟨Text.ofBytes path, e⟩] } := by
  rw [loadFile_eq_record]
  cases c.verdict reader (files.document path) with
  | ok p => exact Or.inl ⟨p, rfl, rfl⟩
  | error e => exact Or.inr ⟨e, rfl, rfl⟩

theorem paths_fatesOf (c : Catalogue) (paths : List Bytes) :
    (c.fatesOf reader files paths).map (·.path) = paths := by
  induction paths generalizing c with
  | nil => rfl
  | cons path rest ih => rw [fatesOf, List.map_cons, ih]

/-- **What is recorded of files is what became of them.** -/
theorem records_loadFiles (reader : Markup.Reader) (files : Files) (c : Catalogue)
    (paths : List Bytes) :
    let fates := c.fatesOf reader files paths
    (c.loadFiles reader files paths).1 = { c with
      checks := c.checks ++ (fates.filterMap Fate.loaded?).map (·.2)
      origins := c.origins ++ (fates.filterMap Fate.loaded?).map (·.1)
      rejected := c.rejected ++ fates.filterMap Fate.rejected? } := by
  induction paths generalizing c with
  | nil => simp [fatesOf, loadFiles]
  | cons path rest ih =>
      rw [loadFiles, fatesOf]
      dsimp only at ih ⊢
      rw [ih]
      rcases c.loadFile_cases reader files path with ⟨p, outcome, after⟩ | ⟨e, outcome, after⟩
      · rw [outcome, after]
        simp [List.filterMap_cons]
      · rw [outcome, after]
        simp [List.filterMap_cons]

/-- Every document of a folder was loaded or refused, once, and is recorded as such. -/
structure Divided (c : Catalogue) (names : List Bytes) (fates : List Fate) (after : Catalogue) :
    Prop where
  each : fates.map (·.path) = c.documents names
  origins : after.origins = (fates.filterMap Fate.loaded?).map (·.1)
  checks : after.checks = (fates.filterMap Fate.loaded?).map (·.2)
  rejected : after.rejected = fates.filterMap Fate.rejected?

theorem divided_loadAll (reader : Markup.Reader) (listed : files.names c.folder = .ok names) :
    c.Divided names (c.fates reader files names) (c.loadAll reader files).catalogue := by
  rw [catalogue_loadAll listed, records_loadFiles]
  exact ⟨paths_fatesOf c.clear _, rfl, rfl, rfl⟩

/-- Each fate is that of one document, loaded or refused. -/
theorem perm_filterMap_fates (fates : List Fate) :
    ((fates.filterMap Fate.loaded?).map (·.1) ++
      (fates.filterMap Fate.rejected?).map (·.origin)).Perm
        (fates.map fun fate => Text.ofBytes fate.path) := by
  induction fates with
  | nil => exact .nil
  | cons fate rest ih =>
      obtain ⟨path, outcome⟩ := fate
      cases outcome with
      | ok p =>
          simp only [List.filterMap_cons, Fate.loaded?_ok, Fate.rejected?_ok, List.map_cons,
            List.cons_append]
          exact ih.cons _
      | error e =>
          simp only [List.filterMap_cons, Fate.loaded?_error, Fate.rejected?_error, List.map_cons]
          exact List.perm_middle.trans (ih.cons _)

/-- A scan records every document of the folder once, and nothing else. -/
theorem perm_origins_loadAll (listed : files.names c.folder = .ok names) :
    ((c.loadAll reader files).catalogue.origins ++ (c.loadAll reader files).catalogue.refused).Perm
      ((c.documents names).map Text.ofBytes) := by
  have divided := divided_loadAll reader listed
  rw [refused, divided.origins, divided.rejected, ← divided.each, List.map_map]
  exact perm_filterMap_fates _

/-- A document that no other one shows like has one record. -/
theorem count_origins_loadAll (listed : files.names c.folder = .ok names)
    (distinct : names.Nodup) {path : Bytes} (member : path ∈ c.documents names)
    (apart : ∀ other ∈ c.documents names, Text.ofBytes other = Text.ofBytes path → other = path) :
    ((c.loadAll reader files).catalogue.origins ++
      (c.loadAll reader files).catalogue.refused).count (Text.ofBytes path) = 1 := by
  have same : ∀ other ∈ c.documents names,
      ((· == Text.ofBytes path) ∘ Text.ofBytes) other = true ↔ (other == path) = true := by
    intro other member
    simp only [Function.comp_apply, beq_iff_eq]
    exact ⟨apart other member, congrArg Text.ofBytes⟩
  rw [(perm_origins_loadAll listed).count_eq, List.count, List.countP_map, List.countP_congr same]
  exact List.count_eq_one_of_mem (c.nodup_documents distinct) member

/-! ## Refused documents -/

/-- The two hold the same checks, of the same origins. -/
def Agrees (c c' : Catalogue) : Prop :=
  c'.checks = c.checks ∧ c'.origins = c.origins

/-- What a document adds depends on the checks that are loaded alone. -/
theorem Agrees.loadFile (agrees : c.Agrees c') (path : Bytes) :
    (c.loadFile reader files path).catalogue.Agrees
      (c'.loadFile reader files path).catalogue := by
  obtain ⟨checks, origins⟩ := agrees
  rw [loadFile_eq_record, loadFile_eq_record, verdict_congr checks]
  cases c.verdict reader (files.document path) with
  | ok p => exact ⟨congrArg (· ++ [p]) checks, congrArg (· ++ [Text.ofBytes path]) origins⟩
  | error e => exact ⟨checks, origins⟩

/-- **A refused document leaves nothing behind**: loading files without some whose documents
are refused loads the same checks. -/
theorem loadFiles_filter {keep : Bytes → Bool} (agrees : c.Agrees c') {paths : List Bytes}
    (refused : ∀ fate ∈ c.fatesOf reader files paths, keep fate.path = false →
      ∃ e, fate.outcome = .error e) :
    (c.loadFiles reader files paths).1.Agrees
      (c'.loadFiles reader files (paths.filter keep)).1 := by
  -- The two runs hold the same checks all the way, whatever else they have refused.
  induction paths generalizing c c' with
  | nil => exact agrees
  | cons path rest ih =>
      rw [fatesOf, List.forall_mem_cons] at refused
      obtain ⟨first, later⟩ := refused
      cases kept : keep path with
      | true =>
          rw [List.filter_cons_of_pos kept, loadFiles, loadFiles]
          exact ih (agrees.loadFile path) later
      | false =>
          rw [List.filter_cons_of_neg (by simp [kept]), loadFiles]
          refine ih ?_ later
          obtain ⟨e, failed⟩ := first kept
          rcases c.loadFile_cases reader files path with ⟨p, outcome, -⟩ | ⟨e, -, after⟩
          · dsimp only at failed
            rw [outcome] at failed
            cases failed
          · rw [after]
            exact agrees

/-! ## Folders without refused documents -/

/-- The documents that are left are read as before. -/
theorem loadFiles_of_removed {gone : List Bytes}
    (removed : files.Removed c.folder names gone after) :
    (c.loadAll reader after).catalogue = (c.clear.loadFiles reader files
      ((c.documents names).filter (· ∉ gone.map (Path.join c.folder)))).1 := by
  obtain ⟨rest, left, order⟩ := removed.left
  rw [catalogue_loadAll left, c.documents_of_perm order, c.documents_filter]
  refine congrArg Prod.fst (loadFiles_congr (List.map_congr_left fun path member => ?_) _)
  obtain ⟨present, kept⟩ := List.mem_filter.1 member
  obtain ⟨name, listed, -, rfl⟩ := mem_documents.1 present
  have stays : name ∉ gone := by
    simpa [List.mem_map_of_injective (Path.join_injective c.folder)] using kept
  rw [Files.document, Files.document, removed.read name listed stays]

/-- A document has one fate. -/
theorem fate_unique (distinct : names.Nodup) {fate fate' : Fate}
    (first : fate ∈ c.fates reader files names) (second : fate' ∈ c.fates reader files names)
    (same : fate.path = fate'.path) : fate = fate' := by
  have paths : ((c.fates reader files names).map (·.path)).Nodup := by
    rw [fates, paths_fatesOf]
    exact c.nodup_documents distinct
  exact List.inj_on_of_nodup_map paths first second same

/-- **Refused documents are isolated.**  Removing any of them from the folder leaves the
checks that a scan loads, with their origins and their order.  A scan divides the documents of
the folder into loaded and refused ones, each once, and records them as such; so an origin that
only one document shows has one record. -/
theorem loadAll_without_rejected (reader : Markup.Reader) (c : Catalogue)
    {names gone : List Bytes} {files after : Files} (distinct : names.Nodup)
    (removed : files.Removed c.folder names gone after)
    (rejected : ∀ name ∈ gone,
      ∃ e, ⟨Path.join c.folder name, .error e⟩ ∈ c.fates reader files names) :
    (c.loadAll reader after).catalogue.checks = (c.loadAll reader files).catalogue.checks ∧
      (c.loadAll reader after).catalogue.origins = (c.loadAll reader files).catalogue.origins ∧
      c.Divided names (c.fates reader files names) (c.loadAll reader files).catalogue ∧
      (c.documents names).Nodup ∧
      ∀ name ∈ names, c.Matches name →
        (∀ other ∈ names, Text.ofBytes (Path.join c.folder other) =
          Text.ofBytes (Path.join c.folder name) → other = name) →
        ((c.loadAll reader files).catalogue.origins ++
          (c.loadAll reader files).catalogue.refused).count
            (Text.ofBytes (Path.join c.folder name)) = 1 := by
  have agrees : (c.loadAll reader files).catalogue.Agrees (c.loadAll reader after).catalogue := by
    rw [loadFiles_of_removed removed, catalogue_loadAll removed.listed]
    refine loadFiles_filter ⟨rfl, rfl⟩ fun fate member dropped => ?_
    obtain ⟨name, gone, own⟩ : ∃ name ∈ gone, Path.join c.folder name = fate.path := by
      simpa using dropped
    obtain ⟨e, refused⟩ := rejected name gone
    rw [fate_unique distinct member refused own.symm]
    exact ⟨e, rfl⟩
  refine ⟨agrees.1, agrees.2, divided_loadAll reader removed.listed, c.nodup_documents distinct, ?_⟩
  intro name listed matching apart
  refine count_origins_loadAll removed.listed distinct
    (mem_documents.2 ⟨name, listed, matching, rfl⟩) fun path member same => ?_
  obtain ⟨other, present, -, rfl⟩ := mem_documents.1 member
  rw [apart other present same]

namespace Example

/-- The document of a check with one request, whose id this is. -/
def named (id : String) : Markup.Element :=
  let field (tag content : String) : Markup.Node := .element tag [.text content]
  ⟨"a", [
    .element "class" [field "id" id, field "item" "9", field "level" "2", field "title" "t"],
    .element "requests" [.element "request" [field "name" "named", field "obj" "node",
      field "geom" "point", field "from" "nodes",
      .element "filter" [field "has_tag" "name"]]]]⟩

/-- What reads two texts as such documents, and no other. -/
def readTwo : Markup.Reader := fun text =>
  if text = "1" ∨ text = "2" then .ok (named text) else .error .badTop

def catalogue : Catalogue := { folder := Text.bytes "d" }

/-- A file system whose folders all hold the same files. -/
def holding (entries : List (Bytes × Except FileFault String)) : Files where
  list _ := .ok (entries.map fun entry => .ok entry.1)
  read path := ((entries.find? fun entry => Path.join (Text.bytes "d") entry.1 = path).map
    (·.2)).getD (.error .notFound)
  real? _ := none

/-- The name of a document after a byte that no text begins with, so that two such names
show alike. -/
def blurred (byte : UInt8) : Bytes :=
  byte :: Text.bytes ".xml"

def listing : List Bytes :=
  [Text.bytes "c.xml", Text.bytes "b.xml", blurred 0xFF, Text.bytes "n.txt", Text.bytes "a.xml",
    blurred 0xFE]

/-- A check, the same check again, another one, a file that is no text, an empty document,
and a file that is no document. -/
def mixed : Files :=
  holding (listing.zip [.error .notUtf8, .ok "1", .ok "2", .ok "", .ok "1", .ok ""])

def gone : List Bytes := [Text.bytes "b.xml", blurred 0xFE]

/-- `mixed` without two of the documents that are refused. -/
def cleaned : Files :=
  holding [(Text.bytes "a.xml", .ok "1"), (Text.bytes "n.txt", .ok ""), (blurred 0xFF, .ok "2"),
    (Text.bytes "c.xml", .error .notUtf8)]

theorem documents_listing :
    catalogue.documents listing = [Text.bytes "d/a.xml", Text.bytes "d/b.xml",
      Text.bytes "d/c.xml", Text.bytes "d/" ++ blurred 0xFE, Text.bytes "d/" ++ blurred 0xFF] := by
  have ordered : [Text.bytes "a.xml", Text.bytes "b.xml", Text.bytes "c.xml", blurred 0xFE,
      blurred 0xFF].Pairwise (· ≤ ·) := by decide +kernel
  rw [documents, ← eq_sorted ordered (by decide +kernel)]
  rfl

/-- Which documents of `mixed` are loaded, and why the others are refused. -/
theorem fates_mixed :
    (catalogue.fates readTwo mixed listing).map (fun fate => (fate.path, fate.outcome.map (·.id))) =
      [(Text.bytes "d/a.xml", .ok "1"),
        (Text.bytes "d/b.xml", .error (.duplicateCheck "1")),
        (Text.bytes "d/c.xml", .error (.malformedDocument (.unreadableFile .notUtf8))),
        (Text.bytes "d/" ++ blurred 0xFE, .error (.malformedDocument (.notMarkup .badTop))),
        (Text.bytes "d/" ++ blurred 0xFF, .ok "2")] := by
  rw [fates, documents_listing]
  decide +kernel

/-- The fate of a document that is refused shows why. -/
theorem mem_of_error {fates : List Fate} {path : Bytes} {e : CheckError}
    (shown : (path, .error e) ∈ fates.map fun fate => (fate.path, fate.outcome.map (·.id))) :
    ⟨path, .error e⟩ ∈ fates := by
  obtain ⟨⟨path, outcome⟩, member, same⟩ := List.mem_map.1 shown
  cases outcome with
  | ok p => cases congrArg Prod.snd same
  | error e' =>
      cases same
      exact member

theorem removed_mixed : mixed.Removed (Text.bytes "d") listing gone cleaned where
  listed := rfl
  left := ⟨[Text.bytes "a.xml", Text.bytes "n.txt", blurred 0xFF, Text.bytes "c.xml"], rfl,
    by decide +kernel⟩
  read := by
    intro name listed stays
    simp only [listing, gone, List.mem_cons, List.not_mem_nil, or_false] at listed stays
    rcases listed with rfl | rfl | rfl | rfl | rfl | rfl
    · rfl
    · exact absurd (Or.inl rfl) stays
    · rfl
    · rfl
    · rfl
    · exact absurd (Or.inr rfl) stays

theorem rejected_mixed : ∀ name ∈ gone,
    ∃ e, ⟨Path.join (Text.bytes "d") name, .error e⟩ ∈ catalogue.fates readTwo mixed listing := by
  rw [gone, List.forall_mem_cons, List.forall_mem_singleton]
  refine ⟨⟨.duplicateCheck "1", mem_of_error ?_⟩,
    ⟨.malformedDocument (.notMarkup .badTop), mem_of_error ?_⟩⟩
  · rw [fates_mixed]
    exact .tail _ (.head _)
  · rw [fates_mixed]
    exact .tail _ (.tail _ (.tail _ (.head _)))

end Example

/-- A duplicate and an empty document are removed from a folder.  A document that is loaded
shows like one of them, and stays. -/
theorem mixed_without_rejected :
    Example.listing.Nodup ∧
    Example.mixed.Removed (Text.bytes "d") Example.listing Example.gone Example.cleaned ∧
    (∀ name ∈ Example.gone, ∃ e, ⟨Path.join (Text.bytes "d") name, .error e⟩ ∈
      Example.catalogue.fates Example.readTwo Example.mixed Example.listing) ∧
    let scanned := (Example.catalogue.loadAll Example.readTwo Example.mixed).catalogue
    let later := (Example.catalogue.loadAll Example.readTwo Example.cleaned).catalogue
    later.checks = scanned.checks ∧ later.origins = scanned.origins ∧
      Example.catalogue.Divided Example.listing
        (Example.catalogue.fates Example.readTwo Example.mixed Example.listing) scanned ∧
      scanned.checks.map (·.id) = ["1", "2"] ∧
      (scanned.origins ++ scanned.refused).count "d/a.xml" = 1 := by
  have distinct : Example.listing.Nodup := by decide +kernel
  obtain ⟨checks, origins, divided, -, once⟩ :=
    loadAll_without_rejected Example.readTwo Example.catalogue distinct Example.removed_mixed
      Example.rejected_mixed
  refine ⟨distinct, Example.removed_mixed, Example.rejected_mixed, checks, origins, divided, ?_, ?_⟩
  · rw [divided.checks, fates, Example.documents_listing]
    decide +kernel
  · have shown : Text.ofBytes (Path.join (Text.bytes "d") (Text.bytes "a.xml")) = "d/a.xml" := by
      decide +kernel
    have apart : ∀ other ∈ Example.listing, Text.ofBytes (Path.join (Text.bytes "d") other) =
        Text.ofBytes (Path.join (Text.bytes "d") (Text.bytes "a.xml")) →
          other = Text.bytes "a.xml" := by decide +kernel
    rw [← shown]
    exact once (Text.bytes "a.xml") (by decide +kernel) rfl apart

end Catalogue

end MapAudit
