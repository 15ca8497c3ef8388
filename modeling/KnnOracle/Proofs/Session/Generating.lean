/-
Generated corpora load back.

A request to generate makes its corpus from the seed, writes it under its
path and prints the fingerprint of the corpus. It succeeds if there is
room for such a corpus and the file system takes the file (`Saves`); whoever
then loads the path with the same dimension is given back what the format of
the file can hold (`Restores`): the corpus itself, or its components narrowed,
with new ids. The writer and the reader each have a table of extensions.
That the two agree is proved here and not taken for granted, and so is that
a path which the one refuses is refused by the other (`Refuses`).

Nothing is asked of the path or of what stands where it leads, and nothing
of the file system but that it gives back what it took.
-/
import Mathlib
import KnnOracle.Proofs.Dataset.Format
import KnnOracle.Session.Command
import KnnOracle.Storage.Disk

namespace KnnOracle

open Storage Dataset

-- ============================================================ statements

/-- What is loaded of a corpus that was written in a format. Lines and
tables give back the corpus, and so its fingerprint. Rows give back as
many records in the same order, each with its number as its id and its
components narrowed to binary32 and widened again. -/
def Restores (corpus : Corpus) (loaded : List Record) : Format → Prop
  | .fvecs =>
      loaded.length = corpus.records.length ∧
      ∀ (i : Nat) (r : Record), corpus.records[i]? = some r →
        ∃ s : Record, loaded[i]? = some s ∧ s.id.value.toNat = i ∧
          s.values = r.values.map Decimal.BinaryFormat.binary32.roundTo
  | .lines | .columns =>
      loaded = corpus.records ∧
      ∃ again, Corpus.make? corpus.dimension loaded = .ok again ∧
        again.fingerprint = corpus.fingerprint

/-- Whether all that is printed is one notice that ends in a fingerprint. -/
def ShowsFingerprint (notices : List Notice) (fingerprint : String) : Prop :=
  ∀ elapsed, ∃ opening,
    notices.map (Notice.text elapsed)
      = [opening ++ "\nFingerprint: " ++ fingerprint ++ "\n"]

/-- The records that a request asks for. -/
def GenerateRequest.records (r : GenerateRequest) : List Record :=
  Synthetic.corpusOf r.seed r.count r.dimension

/-- What a run comes to whose path has an extension of a format. -/
structure Saves {σ : Type} [FileSystem σ] (r : GenerateRequest)
    (format : Format) (files after : σ) (notices : List Notice)
    (result : Except Failure Unit) : Prop where
  /-- It succeeds exactly if there is room for the records, they make a
  corpus and the file system takes the file. -/
  succeeds_iff : result = .ok () ↔ Synthetic.Fits r.count r.dimension ∧
    Corpus.Obeys r.dimension r.records ∧
    ∃ written,
      FileSystem.write files r.path (render format r.records) = .ok written
  /-- Then the file restores the corpus of these records, whose fingerprint
  is printed. -/
  restores : result = .ok () → ∃ (corpus : Corpus) (loaded : List Record),
    corpus.records = r.records ∧ corpus.dimension = r.dimension ∧
    ShowsFingerprint notices corpus.fingerprint ∧
    Dataset.load (FileSystem.read after) r.path r.dimension = .ok loaded ∧
    Restores corpus loaded format

/-- What a run comes to whose path has no extension of any format: it
fails, it writes nothing, and nothing can be loaded from the path. -/
structure Refuses {σ : Type} (r : GenerateRequest) (files after : σ)
    (result : Except Failure Unit) : Prop where
  fails : ∃ e, result = .error e
  unchanged : after = files
  unloadable : ∀ (read : Reader) (dimension : Nat), ∃ e,
    Dataset.load read r.path dimension = .error e

-- ============================================================ extensions

/-- The writer knows the extensions that the reader knows, and takes them
for the same formats. -/
theorem outputFormat?_eq (extension : String) :
    outputFormat? extension = Format.ofExtension? extension := by
  unfold outputFormat? Format.ofExtension?
  split <;> simp_all

-- ============================================================== the file

/-- The ids of a corpus are different 64-bit numbers, so there are not
more of them than there are such numbers. -/
theorem Corpus.length_le (c : Corpus) : c.records.length ≤ 2 ^ 64 := by
  have hinjective : Function.Injective fun id : RecordId => id.value.toFin :=
    fun a b h =>
    congrArg RecordId.mk (UInt64.toFin_inj.mp h)
  have hnodup :
      ((c.records.map Record.id).map fun id => id.value.toFin).Nodup :=
    c.nodup.map hinjective
  simpa [UInt64.size] using hnodup.length_le_card

/-- What a format restores of the records of a corpus: all of them, in their
order, with their ids and components as far as the format keeps these. -/
theorem restores_restored (c : Corpus) (format : Format) :
    Restores c (format.restored c.records) format := by
  have hall : c.records = c.records ∧
      ∃ again, Corpus.make? c.dimension c.records = .ok again ∧
      again.fingerprint = c.fingerprint :=
        ⟨rfl, c, Corpus.make?_records c, rfl⟩
  cases format with
  | lines => exact hall
  | columns => exact hall
  | fvecs =>
      refine ⟨Fvecs.length_restored 0 c.records, fun i r hr => ?_⟩
      have hi : i < 2 ^ 64 :=
        Nat.lt_of_lt_of_le (List.getElem?_eq_some_iff.mp hr).1 c.length_le
      have hrestored : (Fvecs.restored 0 c.records)[i]? = some
          ⟨⟨UInt64.ofNat (0 + i)⟩,
            r.values.map Decimal.BinaryFormat.binary32.roundTo⟩ := by
        rw [Fvecs.getElem?_restored, hr, Option.map_some]
      refine ⟨_, hrestored, ?_, rfl⟩
      rw [Nat.zero_add, UInt64.toNat_ofNat', Nat.mod_eq_of_lt hi]

-- =========================================================== the request

variable {r : GenerateRequest}

/-- A corpus is ready if there is room for its records, they can be its
records, and the extension is known. -/
theorem prepare_eq_ok_iff {g : Generated} :
    r.prepare = .ok g ↔ Synthetic.Fits r.count r.dimension ∧
      ∃ corpus format, Corpus.make? r.dimension r.records = .ok corpus ∧
        extension r.path ∈ Format.extensions format ∧
        g = ⟨r, corpus, format⟩ := by
  unfold GenerateRequest.prepare Synthetic.corpus?
  rw [← GenerateRequest.records]
  constructor
  · intro h
    split at h
    · cases h
    next records hrecords =>
    split at hrecords
    · next hfits =>
        cases hrecords
        split at h
        · cases h
        next corpus hcorpus =>
        dsimp only at h
        split at h
        · cases h
        next format hformat =>
        cases h
        rw [outputFormat?_eq, Format.ofExtension?_eq_some_iff] at hformat
        exact ⟨hfits, corpus, format, hcorpus, hformat, rfl⟩
    · cases hrecords
  · rintro ⟨hfits, corpus, format, hcorpus, hformat, hg⟩
    rw [← Format.ofExtension?_eq_some_iff, ← outputFormat?_eq] at hformat
    simp only [if_pos hfits, hcorpus, hformat, hg]

/-- A path with the extension of no format is refused before anything is
generated. -/
private theorem prepare_unsupported
    (h : ∀ format : Format, extension r.path ∉ format.extensions) :
    ∃ e, r.prepare = .error e := by
  cases hprepare : r.prepare with
  | error e => exact ⟨e, rfl⟩
  | ok g =>
      obtain ⟨-, _, format, -, hformat, -⟩ := prepare_eq_ok_iff.mp hprepare
      exact absurd hformat (h format)

-- =============================================================== the run

/-- How a run ends whose corpus is ready. -/
def Generated.ending (g : Generated) : Ending Unit :=
  ⟨[], some (.dataset g.request.path g.content), [.wrote g], .ok ()⟩

section Run

variable {σ : Type} [FileSystem σ] {files after : σ} {read : Reader}
  {g : Generated} {ending : Ending Unit} {moment : Nat}
  {notices : List Notice} {result : Except Failure Unit}

/-- Once a corpus is prepared, no service is asked: what is left is to write
the file. -/
private theorem conversation_of_prepare (h : r.prepare = .ok g) :
    (Command.generate r).conversation read = .done g.ending := by
  obtain ⟨-, corpus, format, -, -, rfl⟩ := prepare_eq_ok_iff.mp h
  simp only [Command.conversation, h, Generated.ending]

/-- The corpus is announced once it is written, and not before. -/
theorem settleIn_of_write
    (h : FileSystem.write files g.request.path g.content = .ok after) :
    g.ending.settleIn files moment = (([.wrote g], .ok ()), after) := by
  simp only [Generated.ending, Ending.settleIn, Output.path, Output.content, h,
    Ending.settle, List.nil_append]

/-- If the file cannot be written, the run fails and names the path and the
cause. -/
private theorem settleIn_of_write_error {cause : FileFault}
    (h : FileSystem.write files g.request.path g.content = .error cause)
    (moment : Nat) :
    (g.ending.settleIn files moment).1.2 =
      .error (.outputNotWritten g.request.path (.file cause)) := by
  simp only [Generated.ending, Ending.settleIn, Output.path, Output.content, h,
    Ending.settle, Output.failure]

/-- A run that succeeds has written the corpus that it announces. So success
says something about the disk. -/
theorem settled_of_ok
    (hending : (Command.generate r).conversation read = .done ending)
    (hsettle : ending.settleIn files moment = ((notices, .ok ()), after)) :
    ∃ g, r.prepare = .ok g ∧ notices = [.wrote g] ∧
      FileSystem.write files g.request.path g.content = .ok after := by
  cases hprepare : r.prepare with
  | error e =>
      simp only [Command.conversation, hprepare, Conversation.done.injEq]
        at hending
      subst hending
      cases hsettle
  | ok g =>
      rw [conversation_of_prepare hprepare, Conversation.done.injEq] at hending
      subst hending
      cases hwrite : FileSystem.write files g.request.path g.content with
      | error cause =>
          have hfailed := settleIn_of_write_error hwrite moment
          rw [hsettle] at hfailed
          cases hfailed
      | ok written =>
          rw [settleIn_of_write hwrite] at hsettle
          cases hsettle
          exact ⟨g, rfl, rfl, hwrite⟩

/-- A run that has no corpus to write fails and writes nothing. -/
theorem settled_of_error {e : Failure} (hprepare : r.prepare = .error e)
    (hending : (Command.generate r).conversation read = .done ending)
    (hsettle : ending.settleIn files moment = ((notices, result), after)) :
    result = .error e ∧ after = files := by
  simp only [Command.conversation, hprepare, Conversation.done.injEq]
    at hending
  subst hending
  cases hsettle
  exact ⟨rfl, rfl⟩

private theorem showsFingerprint_wrote (g : Generated) :
    ShowsFingerprint [.wrote g] g.corpus.fingerprint := fun _ => ⟨_, rfl⟩

/-- Under an extension of a format all that can go wrong is the corpus or the
writing of the file. -/
theorem saves_of_extension {format : Format}
    (hformat : extension r.path ∈ format.extensions)
    (hdim : r.dimension < 2 ^ 31)
    (hending : (Command.generate r).conversation read = .done ending)
    (hsettle : ending.settleIn files moment = ((notices, result), after)) :
    Saves r format files after notices result := by
  -- an extension belongs to one format only
  have hsame : ∀ written : Format, extension r.path ∈ written.extensions →
      written = format := by
    intro written hwritten
    rw [← Format.ofExtension?_eq_some_iff] at hformat hwritten
    exact Option.some.inj (hwritten.symm.trans hformat)
  -- what a run that succeeds has done
  have hdone : result = .ok () → Synthetic.Fits r.count r.dimension ∧
      ∃ corpus, Corpus.make? r.dimension r.records = .ok corpus ∧
      notices = [.wrote ⟨r, corpus, format⟩] ∧
      FileSystem.write files r.path (render format corpus.records)
        = .ok after := by
    intro hok
    subst hok
    obtain ⟨g, hprepare, hnotices, hwrite⟩ := settled_of_ok hending hsettle
    obtain ⟨hfits, corpus, written, hcorpus, hwritten, rfl⟩ :=
      prepare_eq_ok_iff.mp hprepare
    obtain rfl := hsame written hwritten
    exact ⟨hfits, corpus, hcorpus, hnotices, hwrite⟩
  refine ⟨⟨fun hok => ?_, fun ⟨hfits, hobeys, written, hwrite⟩ => ?_⟩,
    fun hok => ?_⟩
  · obtain ⟨hfits, corpus, hcorpus, -, hwrite⟩ := hdone hok
    rw [(Corpus.records_of_make? hcorpus).1] at hwrite
    exact ⟨hfits, Corpus.exists_make?_iff.mp ⟨corpus, hcorpus⟩, after, hwrite⟩
  · obtain ⟨corpus, hcorpus⟩ := Corpus.exists_make?_iff.mpr hobeys
    have hprepare : r.prepare = .ok ⟨r, corpus, format⟩ :=
      prepare_eq_ok_iff.mpr ⟨hfits, corpus, format, hcorpus, hformat, rfl⟩
    rw [← (Corpus.records_of_make? hcorpus).1] at hwrite
    rw [conversation_of_prepare hprepare, Conversation.done.injEq] at hending
    subst hending
    rw [settleIn_of_write hwrite] at hsettle
    cases hsettle
    rfl
  · obtain ⟨-, corpus, hcorpus, rfl, hwrite⟩ := hdone hok
    obtain ⟨hrecords, hdimension⟩ := Corpus.records_of_make? hcorpus
    have hrules : ∀ s ∈ corpus.records, s.dimension = r.dimension ∧
        s.firstNonFinite? = none :=
      fun s hs => ⟨(corpus.dimension_eq s hs).trans hdimension,
        corpus.finite s hs⟩
    exact ⟨corpus, _, hrecords, hdimension, showsFingerprint_wrote _,
      load_of_write hformat hdim hrules hwrite,
        restores_restored corpus format⟩

/-- A path with the extension of no format is refused with nothing written,
whatever the rest of the request. -/
private theorem refuses_of_no_extension
    (hnone : ∀ format : Format, extension r.path ∉ format.extensions)
    (hending : (Command.generate r).conversation read = .done ending)
    (hsettle : ending.settleIn files moment = ((notices, result), after)) :
    Refuses r files after result := by
  obtain ⟨e, hprepare⟩ := prepare_unsupported hnone
  obtain ⟨hresult, hafter⟩ := settled_of_error hprepare hending hsettle
  exact ⟨⟨e, hresult⟩, hafter, fun read _ => ⟨_, load_unsupported hnone read⟩⟩

-- ==================================================== the main statement

/-- Under the extensions of a format, in whatever case, a run that
succeeds leaves a file that restores the generated corpus, whose
fingerprint it prints. Under any other extension the run fails and
nothing can be loaded. -/
theorem generate_restores (hdim : r.dimension < 2 ^ 31)
    (hending : (Command.generate r).conversation read = .done ending)
    (hsettle : ending.settleIn files moment = ((notices, result), after)) :
    (∀ format : Format, extension r.path ∈ format.extensions →
      Saves r format files after notices result) ∧
    ((∀ format : Format, extension r.path ∉ format.extensions) →
      Refuses r files after result) :=
  ⟨fun _ hformat => saves_of_extension hformat hdim hending hsettle,
    fun hnone => refuses_of_no_extension hnone hending hsettle⟩

/-- A disk with a folder in a folder. -/
def shelves : Disk where
  entries := ⟨[(["data".toList], .folder),
    (["data".toList, "sets".toList], .folder)]⟩
  here := ["data".toList]
  nested := by decide
  begins := by decide

/-- Two records of one component, written as lines into a folder. -/
theorem generate_restores_lines :
    let request : GenerateRequest := ⟨"/data/sets/Corpus.JsonL", 2, 1, 42⟩
    ∃ (ending : Ending Unit) (notices : List Notice) (after : Disk)
      (corpus : Corpus) (loaded : List Record),
      request.dimension < 2 ^ 31 ∧
      (Command.generate request).conversation shelves.read = .done ending ∧
      ending.settleIn shelves 0 = ((notices, .ok ()), after) ∧
      corpus.records = Synthetic.corpusOf 42 2 1 ∧
      ShowsFingerprint notices corpus.fingerprint ∧
      Dataset.load after.read "/data/sets/Corpus.JsonL" 1 = .ok loaded ∧
      loaded = corpus.records := by
  intro request
  have hextension : extension request.path ∈ Format.lines.extensions := by
    decide +kernel
  have hobeys : Corpus.Obeys request.dimension request.records :=
    Corpus.obeys_iff.mpr ⟨by decide +kernel, by decide +kernel⟩
  obtain ⟨corpus, hcorpus⟩ := Corpus.exists_make?_iff.mpr hobeys
  have hprepare : request.prepare = .ok ⟨request, corpus, .lines⟩ :=
    prepare_eq_ok_iff.mpr ⟨by decide, corpus, .lines, hcorpus, hextension, rfl⟩
  obtain ⟨after, hwrite⟩ : ∃ after, shelves.write request.path
      (render .lines corpus.records) = .ok after := by
    have hlocate : shelves.locate request.path =
        .ok (["data".toList, "sets".toList], some "Corpus.JsonL".toList) :=
      eq_ok_of_toOption (by decide +kernel)
    exact Disk.exists_write_iff.mpr
      ⟨_, _, hlocate, by decide +kernel, by decide +kernel, by decide⟩
  have hending : (Command.generate request).conversation shelves.read =
      .done (Generated.ending ⟨request, corpus, .lines⟩) :=
    conversation_of_prepare hprepare
  have hsettle : (Generated.ending ⟨request, corpus, .lines⟩).settleIn
      shelves 0 =
      (([.wrote ⟨request, corpus, .lines⟩], .ok ()), after) :=
    settleIn_of_write hwrite
  have hsaves :=
    (generate_restores (by decide) hending hsettle).1 .lines hextension
  obtain ⟨written, loaded, hrecords, -, hshown, hload, hrestores⟩ :=
    hsaves.restores rfl
  exact ⟨_, _, after, written, loaded, by decide, hending, hsettle, hrecords,
    hshown, hload, hrestores.1⟩

end Run

end KnnOracle
