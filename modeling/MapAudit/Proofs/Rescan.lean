import MapAudit.Proofs.Isolation

/-!
# A scan depends on the folder alone

A scan starts from a cleared catalogue and takes the documents of the folder in the order
of their names.  So neither what the catalogue was told before nor the order in which the
folder is listed has a part in what a scan leaves or logs (`loadAll_eq_of_clear`,
`loadAll_of_alike`), and scanning an unchanged folder again changes nothing.
-/

namespace MapAudit

set_option autoImplicit false

/-- Two views of a folder with the same contents: either lists the same files, in an order
of its own, and each of them reads the same. -/
structure Files.Alike (files other : Files) (folder : Bytes) (names : List Bytes) : Prop where
  listed : files.names folder = .ok names
  relisted : ∃ shuffled, other.names folder = .ok shuffled ∧ shuffled.Perm names
  read : ∀ name ∈ names, other.read (Path.join folder name) = files.read (Path.join folder name)

namespace Catalogue

variable {reader : Markup.Reader} {c : Catalogue} {files other : Files} {names : List Bytes}

/-! ## What came before -/

/-- Whatever a catalogue was told to load, clearing it leaves the empty one it was. -/
theorem clear_replay (c : Catalogue) (history : List (Files × Operation)) :
    (c.clear.replay reader history).clear = c.clear := by
  rw [replay_eq_takeAll, clear_takeAll]
  rfl

/-- A scan forgets what a catalogue holds. -/
theorem loadAll_eq_of_clear {c' : Catalogue} (same : c'.clear = c.clear) (files : Files) :
    c'.loadAll reader files = c.loadAll reader files := by
  change c'.clear.loadAll reader files = c.clear.loadAll reader files
  rw [same]

/-! ## How the folder is listed -/

theorem loadAll_of_listed (listed : files.names c.folder = .ok names) :
    c.loadAll reader files =
      let after := c.clear.loadFiles reader files (c.documents names)
      ⟨.ok (), after.1, Log.Event.checksLoadBegin.entry [("dir", Text.ofBytes c.folder)] ::
        after.2 ++ [Log.Event.checksLoadComplete.entry
          [("loaded", toString after.1.checks.length),
           ("rejected", toString after.1.rejected.length)]]⟩ := by
  rw [loadAll, listed]

/-- Two views of a folder with the same contents hold the same documents. -/
theorem map_document_of_alike (alike : files.Alike other c.folder names) :
    (c.documents names).map other.document = (c.documents names).map files.document := by
  refine List.map_congr_left fun path member => ?_
  obtain ⟨name, listed, -, rfl⟩ := mem_documents.1 member
  rw [Files.document, Files.document, alike.read name listed]

/-- A scan of either view leaves and logs the same. -/
theorem loadAll_of_alike (alike : files.Alike other c.folder names) :
    c.loadAll reader other = c.loadAll reader files := by
  obtain ⟨shuffled, relisted, order⟩ := alike.relisted
  rw [loadAll_of_listed relisted, loadAll_of_listed alike.listed, c.documents_of_perm order,
    loadFiles_congr (map_document_of_alike alike)]

/-- **A scan depends on the contents of the folder alone.**  Two catalogues of one folder,
whatever each was told to load before, and two listings of the same files in different
orders: the scans succeed, record every document of the folder once, and agree on the
checks, the origins, the refusals and the log.  Scanning the folder again leaves and logs
the same once more. -/
theorem loadAll_depends_on_contents (reader : Markup.Reader) (folder : Bytes) (extension : String)
    (history history' : List (Files × Operation)) {names : List Bytes} {files other : Files}
    (alike : files.Alike other folder names) :
    let start : Catalogue := { folder, extension }
    let first := (start.replay reader history).loadAll reader files
    first.outcome = .ok () ∧
      (first.catalogue.origins ++ first.catalogue.refused).Perm
        ((start.documents names).map Text.ofBytes) ∧
      (start.replay reader history').loadAll reader other = first ∧
      first.catalogue.loadAll reader other = first := by
  intro start first
  have forgets : ∀ (before : List (Files × Operation)) (files : Files),
      (start.replay reader before).loadAll reader files = start.loadAll reader files :=
    fun before files => loadAll_eq_of_clear (start.clear_replay before) files
  have same : start.loadAll reader other = first :=
    (loadAll_of_alike (c := start) alike).trans (forgets history files).symm
  have scanned : first = start.loadAll reader files := forgets history files
  have cleared : first.catalogue.clear = start.clear := by
    rw [scanned, loadAll_eq_takeAll, clear_takeAll]
    rfl
  refine ⟨?_, ?_, (forgets history' other).trans same, ?_⟩
  · rw [scanned, loadAll_of_listed alike.listed]
  · rw [scanned]
    exact perm_origins_loadAll (c := start) alike.listed
  · exact (loadAll_eq_of_clear cleared other).trans same

namespace Example

/-- The files of `mixed`, listed in another order. -/
def shuffled : Files :=
  holding [(Text.bytes "a.xml", .ok "1"), (blurred 0xFE, .ok ""), (Text.bytes "b.xml", .ok "1"),
    (Text.bytes "c.xml", .error .notUtf8), (blurred 0xFF, .ok "2"), (Text.bytes "n.txt", .ok "")]

theorem alike_mixed : mixed.Alike shuffled (Text.bytes "d") listing where
  listed := rfl
  relisted := ⟨[Text.bytes "a.xml", blurred 0xFE, Text.bytes "b.xml", Text.bytes "c.xml",
    blurred 0xFF, Text.bytes "n.txt"], rfl, by decide +kernel⟩
  read := by
    intro name listed
    simp only [listing, List.mem_cons, List.not_mem_nil, or_false] at listed
    rcases listed with rfl | rfl | rfl | rfl | rfl | rfl <;> rfl

end Example

/-- A catalogue that already holds a check of `mixed` under another origin, and an empty
one that sees the files in another order. -/
theorem mixed_depends_on_contents :
    Example.mixed.Alike Example.shuffled (Text.bytes "d") Example.listing ∧
    let start : Catalogue := { folder := Text.bytes "d", extension := "xml" }
    let first := (start.replay Example.readTwo [(Example.mixed, .text "inline" "1")]).loadAll
      Example.readTwo Example.mixed
    first.outcome = .ok () ∧
      (first.catalogue.origins ++ first.catalogue.refused).Perm
        ((start.documents Example.listing).map Text.ofBytes) ∧
      (start.replay Example.readTwo []).loadAll Example.readTwo Example.shuffled = first ∧
      first.catalogue.loadAll Example.readTwo Example.shuffled = first :=
  ⟨Example.alike_mixed,
    loadAll_depends_on_contents Example.readTwo (Text.bytes "d") "xml" _ _ Example.alike_mixed⟩

end Catalogue

end MapAudit
