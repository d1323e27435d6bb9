import MapAudit.Catalogue
import MapAudit.Proofs.Outcome
import Mathlib.Data.List.Induction

/-!
# Loading documents

A catalogue takes documents one after another.  Each is loaded if it compiles to a check
whose id is free, and refused otherwise, and nothing else changes (`take_cases`).  A
folder is scanned by taking its documents into a cleared catalogue, so whatever the
catalogue was told to do, it is what taking the documents since the last scan makes of
an empty one (`replay_eq_takeAll`).

The checks and their origins are kept apart, and are added to and cleared one by one.  Every
document leaves them aligned: each check is what a document compiles to, has an id of its own,
and stands in the place of the origin of that document (`Backed.take`).
-/

namespace MapAudit

set_option autoImplicit false

/-- A document: where it comes from, and its text, if that can be read. -/
structure Document where
  origin : String
  content : Except FileFault String

/-- What a document compiles to. -/
def Document.compiled (reader : Markup.Reader) (d : Document) : Except CheckError Pipeline :=
  match d.content with
  | .ok text => Pipeline.ofDocument reader text
  | .error fault => .error (.malformedDocument (.unreadableFile fault))

theorem Document.compiled_eq_ok_iff {reader : Markup.Reader} {d : Document} {p : Pipeline} :
    d.compiled reader = .ok p ↔
      ∃ text, d.content = .ok text ∧ Pipeline.ofDocument reader text = .ok p := by
  unfold compiled
  cases d.content <;> simp

def Files.document (files : Files) (path : Bytes) : Document :=
  ⟨Text.ofBytes path, files.read path⟩

namespace Catalogue

variable {reader : Markup.Reader} {c : Catalogue}

/-! ## One document -/

/-- What a catalogue makes of a document: the check that it compiles to, if its id is
free. -/
def verdict (reader : Markup.Reader) (c : Catalogue) (d : Document) :
    Except CheckError Pipeline :=
  match d.compiled reader with
  | .error e => .error e
  | .ok p => if (c.get? p.id).isSome then .error (.duplicateCheck p.id) else .ok p

/-- Record what was made of the document of an origin. -/
def record (c : Catalogue) (origin : String) : Except CheckError Pipeline → Step Pipeline
  | .ok p => c.add origin p
  | .error e => c.reject origin e

theorem loadText_eq_record (reader : Markup.Reader) (c : Catalogue) (origin text : String) :
    c.loadText reader origin text = c.record origin (c.verdict reader ⟨origin, .ok text⟩) := by
  unfold loadText verdict Document.compiled
  dsimp only
  cases Pipeline.ofDocument reader text with
  | error e => rfl
  | ok p =>
      dsimp only
      split <;> rfl

/-- Loading a file is recording the verdict on its document. -/
theorem loadFile_eq_record (reader : Markup.Reader) (files : Files) (c : Catalogue)
    (path : Bytes) :
    c.loadFile reader files path =
      c.record (Text.ofBytes path) (c.verdict reader (files.document path)) := by
  unfold loadFile Files.document
  cases files.read path with
  | ok text => exact c.loadText_eq_record reader _ text
  | error fault => rfl

theorem get?_isSome_iff {id : String} : (c.get? id).isSome ↔ ∃ p ∈ c.checks, p.id = id := by
  simp [get?, List.find?_isSome]

theorem verdict_eq_ok_iff {d : Document} {p : Pipeline} :
    c.verdict reader d = .ok p ↔ d.compiled reader = .ok p ∧ ∀ q ∈ c.checks, q.id ≠ p.id := by
  unfold verdict
  cases d.compiled reader with
  | error e => simp
  | ok q =>
      by_cases taken : (c.get? q.id).isSome
      · obtain ⟨other, member, same⟩ := get?_isSome_iff.1 taken
        simp only [if_pos taken, Except.ok.injEq, reduceCtorEq, false_iff]
        rintro ⟨rfl, free⟩
        exact free other member same
      · have free : ∀ other ∈ c.checks, other.id ≠ q.id := fun other member same =>
          taken (get?_isSome_iff.2 ⟨other, member, same⟩)
        simp only [if_neg taken, Except.ok.injEq]
        constructor
        · rintro rfl
          exact ⟨rfl, free⟩
        · exact fun own => own.1

theorem verdict_eq_error_iff {d : Document} {e : CheckError} :
    c.verdict reader d = .error e ↔ d.compiled reader = .error e ∨
      ∃ p, d.compiled reader = .ok p ∧ (∃ q ∈ c.checks, q.id = p.id) ∧ .duplicateCheck p.id = e := by
  unfold verdict
  cases d.compiled reader with
  | error e' => simp
  | ok p =>
      by_cases taken : (c.get? p.id).isSome
      · simp [if_pos taken, get?_isSome_iff.1 taken]
      · simp [if_neg taken, mt get?_isSome_iff.2 taken]

/-- A verdict depends on the checks that are loaded alone. -/
theorem verdict_congr {c' : Catalogue} (same : c'.checks = c.checks) (d : Document) :
    c'.verdict reader d = c.verdict reader d := by
  unfold verdict get?
  rw [same]

/-- What became of a document: it was loaded, because it compiles and its id was free,
and nothing was refused; or it was refused, for the error that was returned, and nothing
was loaded. -/
def Recorded (reader : Markup.Reader) (c : Catalogue) (d : Document) (step : Step Pipeline) :
    Prop :=
  (∃ text p, d.content = .ok text ∧ Pipeline.ofDocument reader text = .ok p ∧
    (∀ q ∈ c.checks, q.id ≠ p.id) ∧ step.outcome = .ok p ∧
    step.catalogue.checks = c.checks ++ [p] ∧ step.catalogue.origins = c.origins ++ [d.origin] ∧
    step.catalogue.rejected = c.rejected) ∨
  ∃ e, (∀ text p, d.content = .ok text → Pipeline.ofDocument reader text = .ok p →
      ∃ q ∈ c.checks, q.id = p.id) ∧
    step.outcome = .error e ∧ step.catalogue.rejected = c.rejected ++ [⟨d.origin, e⟩] ∧
    step.catalogue.checks = c.checks ∧ step.catalogue.origins = c.origins

theorem recorded_verdict (reader : Markup.Reader) (c : Catalogue) (d : Document) :
    Recorded reader c d (c.record d.origin (c.verdict reader d)) := by
  cases verdict : c.verdict reader d with
  | ok p =>
      obtain ⟨compiled, free⟩ := verdict_eq_ok_iff.1 verdict
      obtain ⟨text, read, compiled⟩ := Document.compiled_eq_ok_iff.1 compiled
      exact Or.inl ⟨text, p, read, compiled, free, rfl, rfl, rfl, rfl⟩
  | error e =>
      refine Or.inr ⟨e, fun text p read compiled => ?_, rfl, rfl, rfl, rfl⟩
      have compiled := Document.compiled_eq_ok_iff.2 ⟨text, read, compiled⟩
      rcases verdict_eq_error_iff.1 verdict with failed | ⟨p', compiled', taken, -⟩
      · rw [compiled] at failed
        cases failed
      · rw [compiled] at compiled'
        cases compiled'
        exact taken

/-! ## Documents in turn -/

def take (reader : Markup.Reader) (c : Catalogue) (d : Document) : Catalogue :=
  (c.record d.origin (c.verdict reader d)).catalogue

def takeAll (reader : Markup.Reader) (c : Catalogue) (documents : List Document) : Catalogue :=
  documents.foldl (take reader) c

theorem takeAll_append (c : Catalogue) (documents more : List Document) :
    c.takeAll reader (documents ++ more) = (c.takeAll reader documents).takeAll reader more :=
  List.foldl_append

/-- What taking a document may do: add its check and its origin, or refuse it. -/
theorem take_cases (reader : Markup.Reader) (c : Catalogue) (d : Document) :
    (∃ p, c.verdict reader d = .ok p ∧ c.take reader d =
      { c with checks := c.checks ++ [p], origins := c.origins ++ [d.origin] }) ∨
    ∃ e, c.verdict reader d = .error e ∧
      c.take reader d = { c with rejected := c.rejected ++ [⟨d.origin, e⟩] } := by
  unfold take
  cases c.verdict reader d with
  | ok p => exact Or.inl ⟨p, rfl, rfl⟩
  | error e => exact Or.inr ⟨e, rfl, rfl⟩

theorem catalogue_loadFile (files : Files) (c : Catalogue) (path : Bytes) :
    (c.loadFile reader files path).catalogue = c.take reader (files.document path) := by
  rw [loadFile_eq_record]
  rfl

theorem catalogue_loadText (c : Catalogue) (origin text : String) :
    (c.loadText reader origin text).catalogue = c.take reader ⟨origin, .ok text⟩ := by
  rw [loadText_eq_record]
  rfl

theorem loadFiles_eq_takeAll (files : Files) (c : Catalogue) (paths : List Bytes) :
    (c.loadFiles reader files paths).1 = c.takeAll reader (paths.map files.document) := by
  induction paths generalizing c with
  | nil => rfl
  | cons path rest ih =>
      rw [loadFiles]
      dsimp only
      rw [ih, catalogue_loadFile]
      rfl

/-- The documents in the folder of a catalogue, in the order of their names. -/
def found (files : Files) (c : Catalogue) : List Document :=
  match files.names c.folder with
  | .ok names => (c.documents names).map files.document
  | .error _ => []

/-- **A scan takes the documents of the folder**, one after another, from nothing. -/
theorem loadAll_eq_takeAll (files : Files) (c : Catalogue) :
    (c.loadAll reader files).catalogue = c.clear.takeAll reader (c.found files) := by
  unfold loadAll found
  cases files.names c.folder with
  | error fault => rfl
  | ok names => exact loadFiles_eq_takeAll files c.clear _

/-! ## Operations -/

/-- What a catalogue can be told to load. -/
inductive Operation where
  /-- Every document of the folder, into a cleared catalogue. -/
  | scan
  /-- The document in a file. -/
  | file (path : Bytes)
  /-- A document that is at hand. -/
  | text (origin text : String)

/-- The catalogue after an operation, with the files as they are then. -/
def perform (reader : Markup.Reader) (c : Catalogue) (files : Files) : Operation → Catalogue
  | .scan => (c.loadAll reader files).catalogue
  | .file path => (c.loadFile reader files path).catalogue
  | .text origin text => (c.loadText reader origin text).catalogue

/-- The catalogue after operations, each with the files as they are then. -/
def replay (reader : Markup.Reader) (c : Catalogue) (history : List (Files × Operation)) :
    Catalogue :=
  history.foldl (fun c step => c.perform reader step.1 step.2) c

/-- The documents that count after an operation, from those that count before it: a
scan starts anew. -/
def counting (c : Catalogue) (documents : List Document) (files : Files) :
    Operation → List Document
  | .scan => c.found files
  | .file path => documents ++ [files.document path]
  | .text origin text => documents ++ [⟨origin, .ok text⟩]

/-- The documents taken since the folder was last scanned, those of the scan included. -/
def current (c : Catalogue) (history : List (Files × Operation)) : List Document :=
  history.foldl (fun documents step => c.counting documents step.1 step.2) []

theorem clear_take (c : Catalogue) (d : Document) : (c.take reader d).clear = c.clear := by
  rcases c.take_cases reader d with ⟨p, -, same⟩ | ⟨e, -, same⟩ <;> rw [same] <;> rfl

theorem clear_takeAll (c : Catalogue) (documents : List Document) :
    (c.takeAll reader documents).clear = c.clear := by
  induction documents generalizing c with
  | nil => rfl
  | cons d rest ih => exact (ih (c.take reader d)).trans (c.clear_take d)

theorem found_clear (files : Files) (c : Catalogue) : c.clear.found files = c.found files := rfl

/-- One operation on what documents make of an empty catalogue. -/
theorem perform_takeAll (c : Catalogue) (documents : List Document) (files : Files)
    (operation : Operation) :
    (c.clear.takeAll reader documents).perform reader files operation =
      c.clear.takeAll reader (c.counting documents files operation) := by
  cases operation with
  | scan =>
      rw [perform, loadAll_eq_takeAll, ← found_clear, clear_takeAll]
      rfl
  | file path =>
      rw [perform, catalogue_loadFile, counting, takeAll_append]
      rfl
  | text origin text =>
      rw [perform, catalogue_loadText, counting, takeAll_append]
      rfl

/-- **A catalogue is what the documents since the last scan make of an empty one.** -/
theorem replay_eq_takeAll (c : Catalogue) (history : List (Files × Operation)) :
    c.clear.replay reader history = c.clear.takeAll reader (c.current history) := by
  induction history using List.reverseRecOn with
  | nil => rfl
  | append_singleton history step ih =>
      simp only [replay, current, List.foldl_append, List.foldl_cons, List.foldl_nil] at ih ⊢
      rw [ih]
      exact c.perform_takeAll _ step.1 step.2

/-! ## Coherence -/

/-- The checks of a catalogue that took some documents stand beside their origins. -/
structure Backed (reader : Markup.Reader) (documents : List Document) (c : Catalogue) : Prop where
  aligned : c.checks.length = c.origins.length
  /-- A check is what a document compiles to, and stands in the place of its origin. -/
  compiled : ∀ (i : Nat) (p : Pipeline), c.checks[i]? = some p →
    ∃ origin text, c.origins[i]? = some origin ∧ ⟨origin, .ok text⟩ ∈ documents ∧
      Pipeline.ofDocument reader text = .ok p
  distinct : (c.checks.map (·.id)).Nodup

theorem backed_clear (reader : Markup.Reader) (c : Catalogue) : Backed reader [] c.clear where
  aligned := rfl
  compiled := by simp [clear]
  distinct := by simp [clear]

theorem getElem?_concat_eq_some_iff {α : Type} {list : List α} {last a : α} {i : Nat} :
    (list ++ [last])[i]? = some a ↔ list[i]? = some a ∨ i = list.length ∧ last = a := by
  rcases Nat.lt_trichotomy i list.length with old | rfl | beyond
  · simp [List.getElem?_append_left old, Nat.ne_of_lt old]
  · simp
  · have outside : list[i]? = none := List.getElem?_eq_none (Nat.le_of_lt beyond)
    have further : (list ++ [last])[i]? = none :=
      List.getElem?_eq_none (by rwa [List.length_append])
    simp [outside, further, Nat.ne_of_gt beyond]

/-- One more document: its check and its origin come to stand in one place, or neither is
added. -/
theorem Backed.take {documents : List Document} (backed : Backed reader documents c)
    (d : Document) : Backed reader (documents ++ [d]) (c.take reader d) := by
  have before : ∀ (i : Nat) (p : Pipeline), c.checks[i]? = some p →
      ∃ origin text, c.origins[i]? = some origin ∧ ⟨origin, .ok text⟩ ∈ documents ++ [d] ∧
        Pipeline.ofDocument reader text = .ok p := by
    intro i p place
    obtain ⟨origin, text, beside, taken, compiled⟩ := backed.compiled i p place
    exact ⟨origin, text, beside, List.mem_append_left _ taken, compiled⟩
  rcases c.take_cases reader d with ⟨p, verdict, same⟩ | ⟨e, -, same⟩
  · obtain ⟨compiled, free⟩ := verdict_eq_ok_iff.1 verdict
    obtain ⟨text, read, compiled⟩ := Document.compiled_eq_ok_iff.1 compiled
    rw [same]
    refine ⟨by simp [backed.aligned], fun i q place => ?_, ?_⟩
    · rcases getElem?_concat_eq_some_iff.1 place with old | ⟨rfl, rfl⟩
      · obtain ⟨origin, text, beside, found⟩ := before i q old
        exact ⟨origin, text, getElem?_concat_eq_some_iff.2 (Or.inl beside), found⟩
      · refine ⟨d.origin, text, getElem?_concat_eq_some_iff.2 (Or.inr ⟨backed.aligned, rfl⟩), ?_,
          compiled⟩
        rw [← read]
        exact List.mem_append_right _ List.mem_cons_self
    · rw [List.map_append, List.nodup_append]
      refine ⟨backed.distinct, by simp, ?_⟩
      intro id taken other own
      obtain ⟨q, member, rfl⟩ := List.mem_map.1 taken
      obtain rfl := List.mem_singleton.1 own
      exact free q member
  · rw [same]
    exact ⟨backed.aligned, before, backed.distinct⟩

/-- **Run lemma**: every document that is taken leaves checks and origins side by side. -/
theorem backed_takeAll (reader : Markup.Reader) (c : Catalogue) (documents : List Document) :
    Backed reader documents (c.clear.takeAll reader documents) := by
  induction documents using List.reverseRecOn with
  | nil => exact backed_clear reader c
  | append_singleton documents d ih =>
      rw [takeAll_append]
      exact ih.take d

/-- What holds of the checks and the origins of a catalogue that took some documents. -/
structure Coherent (reader : Markup.Reader) (documents : List Document) (c : Catalogue) : Prop
    extends Backed reader documents c where
  /-- Looking up the id of a check leads to it and its origin. -/
  known : ∀ (i : Nat) (p : Pipeline) (origin : String), c.checks[i]? = some p →
    c.origins[i]? = some origin → c.get? p.id = some p ∧ c.origin? p.id = some origin
  unknown : ∀ id, (∀ p ∈ c.checks, p.id ≠ id) → c.get? id = none ∧ c.origin? id = none

theorem Backed.coherent {documents : List Document} (backed : Backed reader documents c) :
    Coherent reader documents c := by
  refine ⟨backed, fun i p origin place beside => ?_, fun id absent => ?_⟩
  · have own : ∀ other ∈ c.checks, decide (other.id = p.id) = true ↔ other.id = p.id := by simp
    have found := findIdx?_of_key backed.distinct own place
    rw [get?, origin?, List.find?_eq_bind_findIdx?_getElem?, found]
    exact ⟨place, beside⟩
  · have none : c.checks.findIdx? (fun p => p.id = id) = none := by
      rw [List.findIdx?_eq_none_iff]
      intro p member
      simp [absent p member]
    rw [get?, origin?, List.find?_eq_bind_findIdx?_getElem?, none]
    exact ⟨rfl, rfl⟩

/-- **Whatever a catalogue was told to load, it is coherent.**  Each of its checks is
what a document since the last scan compiles to, beside the origin of that document and
under an id of its own; and the next document is loaded or refused, and recorded as
such. -/
theorem replay_coherent (reader : Markup.Reader) (folder : Bytes) (extension : String)
    (history : List (Files × Operation)) :
    let start : Catalogue := { folder, extension }
    let c := start.replay reader history
    Coherent reader (start.current history) c ∧
      (∀ (files : Files) (path : Bytes),
        Recorded reader c (files.document path) (c.loadFile reader files path)) ∧
      ∀ origin text : String,
        Recorded reader c ⟨origin, .ok text⟩ (c.loadText reader origin text) := by
  intro start c
  have taken : c = start.clear.takeAll reader (start.current history) :=
    start.replay_eq_takeAll history
  refine ⟨?_, fun files path => ?_, fun origin text => ?_⟩
  · rw [taken]
    exact (backed_takeAll reader start _).coherent
  · rw [loadFile_eq_record]
    exact recorded_verdict reader c (files.document path)
  · rw [loadText_eq_record]
    exact recorded_verdict reader c ⟨origin, .ok text⟩

end Catalogue

end MapAudit
