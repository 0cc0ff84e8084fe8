import Khefin.KeyfileAgreement
import Khefin.Main
import Khefin.OpeningRuns

/-! # What is stored when an enrolment ends

The keyfile is emptied when it is opened and written through a buffer. Nobody
looks whether the last of the buffer got to the file. -/

namespace Khefin
open CLibrary ExitingPrograms

theorem World.store_store (w : World) (path : CString) (a b : Bytes) :
    (w.store path a).store path b = w.store path b := by
  simp only [store, World.mk.injEq, and_true]
  funext p
  by_cases h : p = path <;> simp [h]

/-! ## Outcomes of `write_file` -/

/-- `fwrite` does not report one item of this many bytes. -/
def WriteOutcomes.FwriteFails (writing : WriteOutcomes) (data : Bytes) : Prop :=
  writing.accepted < data.length ∨ data = []

/-- What has reached the file when its stream is closed. -/
def WriteOutcomes.written (writing : WriteOutcomes) (data : Bytes) : Bytes :=
  (Stream.opened.write data writing.accepted writing.flushed).close writing.closeFlushed

/-- The four ways in which `write_file` ends, and what it leaves in the file. -/
theorem writeFile_cases (P : Platform) (file : EncodedFile) (w : World) :
    (P.writing.fopen = false ∧ ∃ m, writeFile P file w = .error (.exit .deserializationError m) w) ∨
    (P.writing.fopen = true ∧ P.writing.fseek = false ∧
      ∃ m, writeFile P file w =
        .error (.exit .deserializationError m) (w.store file.path [])) ∨
    (P.writing.fopen = true ∧ P.writing.fseek = true ∧ P.writing.FwriteFails file.data ∧
      ∃ m, writeFile P file w = .error (.exit .deserializationError m)
        (w.store file.path (P.writing.written file.data))) ∨
    (P.writing.fopen = true ∧ P.writing.fseek = true ∧ ¬P.writing.FwriteFails file.data ∧
      writeFile P file w = .ok () (w.store file.path (P.writing.written file.data))) := by
  cases ho : P.writing.fopen with
  | false =>
    refine Or.inl ⟨rfl, ⟨"Unable to open file at %s", [.string file.path]⟩, ?_⟩
    simp [writeFile, bind_apply, stopIf, ho]
  | true =>
    cases hs : P.writing.fseek with
    | false =>
      refine Or.inr (Or.inl ⟨rfl, rfl,
        ⟨"Unable to seek to start of file at %s", [.string file.path]⟩, ?_⟩)
      simp [writeFile, bind_apply, stopIf, ho, hs, Stream.opened]
    | true =>
      by_cases hw : P.writing.FwriteFails file.data
      · have hw' : P.writing.accepted < file.data.length ∨ file.data = [] := hw
        refine Or.inr (Or.inr (Or.inl ⟨rfl, rfl, hw,
          ⟨"Unable to write file at %s", [.string file.path]⟩, ?_⟩))
        simp [writeFile, bind_apply, stopIf, ho, hs, if_pos hw', World.store_store, errx,
          WriteOutcomes.written]
      · have hw' : ¬(P.writing.accepted < file.data.length ∨ file.data = []) := hw
        refine Or.inr (Or.inr (Or.inr ⟨rfl, rfl, hw, ?_⟩))
        simp [writeFile, bind_apply, stopIf, ho, hs, if_neg hw', World.store_store,
          WriteOutcomes.written]

theorem not_fwriteFails_of_ok {P : Platform} {file : EncodedFile} {w w' : World}
    (h : writeFile P file w = .ok () w') : ¬P.writing.FwriteFails file.data := by
  rcases writeFile_cases P file w with
    ⟨-, m, hw⟩ | ⟨-, -, m, hw⟩ | ⟨-, -, -, m, hw⟩ | ⟨-, -, hall, -⟩
  · simp [h] at hw
  · simp [h] at hw
  · simp [h] at hw
  · exact hall

/-- Everything accepted reaches the file exactly when the two flushes make up for it. -/
theorem written_eq_iff {writing : WriteOutcomes} {data : Bytes}
    (h : data.length ≤ writing.accepted) :
    writing.written data = data ↔ data.length ≤ writing.flushed + writing.closeFlushed := by
  have hall : data.take writing.accepted = data := List.take_of_length_le h
  have hcontents := Stream.write_contents Stream.opened data writing.accepted writing.flushed
  simp only [Stream.opened, List.nil_append, hall] at hcontents
  have hclose := Stream.close_eq_contents_iff
    (Stream.opened.write data writing.accepted writing.flushed) writing.closeFlushed
  simp only [Stream.opened, hcontents] at hclose
  rw [WriteOutcomes.written, Stream.opened, hclose]
  simp only [Stream.write, List.nil_append, hall, List.length_drop]
  omega

/-! ## A failed enrolment -/

/-- The run opened the file and then failed to seek or to write. -/
def WriteInterrupted (P : Platform) (argv : List CString) (w : World) : Prop :=
  ∃ invocation w₁, parseArgumentsAndGetPassphrase P argv w = .ok invocation w₁ ∧
    ∃ run : EnrolRun P invocation, run.start = w₁ ∧ P.writing.fopen = true ∧
      (P.writing.fseek = false ∨ P.writing.FwriteFails run.file.data)

/-- A run that does not end in success leaves every file as it was, unless the file had been
opened for writing and seeking or writing then failed. -/
theorem files_kept_or_interrupted {P : Platform} {argv : List CString} {w : World}
    (hfail : ∀ w', main P argv w ≠ .ok .success w') :
    SameFiles w (finalState (main P argv w)) ∨ WriteInterrupted P argv w := by
  rcases main_cases P argv w with hsame | ⟨invocation, w₁, hparse, -, hsame, hmain⟩
  · exact Or.inl hsame
  rcases enrolDevice_cases P invocation w₁ with ⟨h, w', he, hq⟩ | ⟨run, rfl, he⟩
  · rw [hmain, bind_of_error he]
    exact Or.inl (trans_of SameFiles hsame hq.1)
  have hfinish : SameFiles w run.finish := trans_of SameFiles hsame run.quietly.1
  rcases writeFile_cases P run.file run.finish with
    ⟨-, m, hw⟩ | ⟨ho, hs, -⟩ | ⟨ho, -, hf, -⟩ | ⟨-, -, -, hw⟩
  · rw [hmain, bind_of_error (he.trans hw)]
    exact Or.inl hfinish
  · exact Or.inr ⟨invocation, _, hparse, run, rfl, ho, Or.inl hs⟩
  · exact Or.inr ⟨invocation, _, hparse, run, rfl, ho, Or.inr hf⟩
  · exact absurd (hmain.trans (bind_of_ok (he.trans hw) _)) (hfail _)

/-- A command line for the reference invocation. -/
def enrolArguments : List CString :=
  [literal "khefin", literal "enrol", literal "-d", literal "/dev/hidraw0", literal "-f",
    literal "keyfile", literal "-p", literal "correct horse", literal "-k", literal "low"]

/-- The reference host with that command line and these outcomes of writing. -/
def enrolHost (writing : WriteOutcomes) : Platform :=
  { referenceHost referenceDevice with
    getoptLong := fun _ => ⟨[⟨'d', literal "/dev/hidraw0"⟩, ⟨'f', literal "keyfile"⟩,
      ⟨'p', literal "correct horse"⟩, ⟨'k', literal "low"⟩], [literal "enrol"]⟩
    writing }

/-- What the parser makes of the command line. -/
theorem parse_enrolArguments (writing : WriteOutcomes) (w : World) :
    parseArgumentsAndGetPassphrase (enrolHost writing) enrolArguments w =
      .ok referenceInvocation w := rfl

/-- The end of a run: the status it returned or stopped with, and the content of the keyfile. -/
def outcome (writing : WriteOutcomes) : (ExitStatus ⊕ Option ExitStatus) × Option Bytes :=
  match main (enrolHost writing) enrolArguments (storedWorld [0x6b]) with
  | .ok status w => (.inl status, w.files (literal "keyfile"))
  | .error (.exit status _) w => (.inr (some status), w.files (literal "keyfile"))
  | .error (.fault _) w => (.inr none, w.files (literal "keyfile"))

theorem files_kept_unopened :
    SameFiles (storedWorld [0x6b]) (finalState (main (enrolHost ⟨false, true, 4096, 0, 4096⟩)
      enrolArguments (storedWorld [0x6b]))) := by
  have hend : (outcome ⟨false, true, 4096, 0, 4096⟩).1 = .inr (some .deserializationError) := by
    decide +kernel
  have hfail : ∀ w', main (enrolHost ⟨false, true, 4096, 0, 4096⟩) enrolArguments
      (storedWorld [0x6b]) ≠ .ok .success w' := by
    intro w' h
    unfold outcome at hend
    rw [h] at hend
    exact Sum.inl_ne_inr hend
  rcases files_kept_or_interrupted hfail with h | ⟨_, _, -, _, -, ho, -⟩
  · exact h
  · exact absurd ho (by decide)

/-- When the seek fails the file has already been emptied. -/
theorem files_not_kept_unsought : ∃ m w',
    main (enrolHost ⟨true, false, 4096, 0, 4096⟩) enrolArguments (storedWorld [0x6b]) =
      .error (.exit .deserializationError m) w' ∧
    (storedWorld [0x6b]).files (literal "keyfile") = some [0x6b] ∧
    w'.files (literal "keyfile") = some [] := by
  have hend : outcome ⟨true, false, 4096, 0, 4096⟩ =
    (.inr (some .deserializationError), some []) := by decide +kernel
  unfold outcome at hend
  split at hend
  · simp at hend
  · next status m w' hrun =>
    obtain ⟨hs, hw⟩ := Prod.mk.inj hend
    obtain rfl := Option.some.inj (Sum.inr.inj hs)
    exact ⟨m, w', hrun, rfl, hw⟩
  · simp at hend

/-! ## A successful enrolment -/

/-- A success that changes a file is an enrolment that wrote its keyfile. -/
theorem exists_run_of_success {P : Platform} {argv : List CString} {w w' : World}
    (h : main P argv w = .ok .success w') (hchanged : ¬SameFiles w w') :
    ∃ invocation, ∃ run : EnrolRun P invocation, invocation.subcommand = .enrol ∧
      parseArgumentsAndGetPassphrase P argv w = .ok invocation run.start ∧
      writeFile P run.file run.finish = .ok () w' := by
  rcases main_cases P argv w with hsame | ⟨invocation, w₁, hparse, henrol, -, hmain⟩
  · rw [h] at hsame
    exact absurd hsame hchanged
  rw [h] at hmain
  rcases enrolDevice_cases P invocation w₁ with ⟨e, w'', he, -⟩ | ⟨run, rfl, he⟩
  · rw [bind_of_error he] at hmain
    simp at hmain
  · obtain ⟨_, w'', hw, hret⟩ := bind_eq_ok.mp hmain.symm
    obtain rfl := (EStateM.Result.ok.inj hret).2
    exact ⟨invocation, run, henrol, hparse, he.symm.trans hw⟩

/-- The file has this content, and generation gets the keyfile `c` out of it. -/
structure KeyfileStored (P : Platform) (path : CString) (data : Bytes) (c : DeserializedCleartext)
    (w : World) : Prop where
  content : w.files path = some data
  loads : ∃ f, readFile P path w = .ok f w ∧ loadCleartext P f = .ok c

theorem keyfileStored_iff {P P' : Platform} {invocation : InvocationState}
    (run : EnrolRun P invocation) (hf : P.cbor.FollowsFormat) (hf' : P'.cbor.FollowsFormat)
    (hreading : P'.reading = .faithful) (hmemory : P'.Allocates largestValidPayloadSizeBytes)
    (hpath : P'.malloc (run.path.length + 1) = true) {w : World} :
    KeyfileStored P' run.path run.file.data run.keyfile w ↔
      w.files run.path = some run.file.data ∧
        run.file.data.length ≤ largestValidPayloadSizeBytes := by
  constructor
  · rintro ⟨hcontent, f, hread, -⟩
    simp only [readFile, bind_eq_ok, get_apply, lift_eq_ok] at hread
    obtain ⟨_, _, hw, hread, -⟩ := hread
    obtain ⟨rfl, -⟩ := EStateM.Result.ok.inj hw
    obtain ⟨hdata, -, -, hl⟩ := readContent_spec hread
    rw [Option.some.inj (hcontent.symm.trans hdata)]
    exact ⟨hdata, hl⟩
  · rintro ⟨hcontent, hl⟩
    have hload : loadCleartext P' ⟨run.path, run.file.data⟩ = .ok run.keyfile :=
      run.loadCleartext_eq hf hf' hmemory hl run.path
    have hread : readContent P' run.path (some run.file.data) = _ :=
      readContent_of hreading hmemory hpath (ne_nil_of_loadCleartext hf' hload) hl
    refine ⟨hcontent, _, ?_, hload⟩
    simp [readFile, bind_apply, hcontent, hread]

/-- A success of an enrolment means that its keyfile is stored exactly when a call that is looked
at fails, or the last flush is complete and the file is not too big to be read. -/
theorem success_stores_iff {P P' : Platform} (hsodium : P.sodiumInit = true)
    {argv : List CString} {w : World} {invocation : InvocationState} (run : EnrolRun P invocation)
    (hparse : parseArgumentsAndGetPassphrase P argv w = .ok invocation run.start)
    (henrol : invocation.subcommand = .enrol) (hf : P.cbor.FollowsFormat)
    (hf' : P'.cbor.FollowsFormat) (hreading : P'.reading = .faithful)
    (hmemory : P'.Allocates largestValidPayloadSizeBytes)
    (hpath : P'.malloc (run.path.length + 1) = true) :
    (∀ w', main P argv w = .ok .success w' →
        KeyfileStored P' run.path run.file.data run.keyfile w') ↔
      P.writing.fopen = false ∨ P.writing.fseek = false ∨
        P.writing.accepted < run.file.data.length ∨
        (run.file.data.length ≤ P.writing.flushed + P.writing.closeFlushed ∧
          run.file.data.length ≤ largestValidPayloadSizeBytes) := by
  have hmain : main P argv w = _ :=
    (main_of_sodiumInit hsodium argv w).trans (bind_of_ok hparse _)
  rw [runSubcommand_enrol henrol] at hmain
  have hdevice := run.enrolDevice_eq
  have hne : run.file.data ≠ [] := by
    have hnonce := run.length_le_data hf (b := run.keyfile.nonce)
      (by simp [DeserializedCleartext.byteStrings])
    rw [run.keyfile_nonce_length] at hnonce
    intro h
    simp [h, cryptoSecretboxNoncebytes] at hnonce
  rcases writeFile_cases P run.file run.finish with
    ⟨ho, m, hw⟩ | ⟨-, hs, m, hw⟩ | ⟨-, -, hfail, m, hw⟩ | ⟨ho, hs, hall, hw⟩
  · rw [hmain, bind_of_error (hdevice.trans hw)]
    simp [ho]
  · rw [hmain, bind_of_error (hdevice.trans hw)]
    simp [hs]
  · rw [hmain, bind_of_error (hdevice.trans hw)]
    simp [hfail.resolve_right hne]
  · have haccepted : run.file.data.length ≤ P.writing.accepted :=
      not_lt.mp fun h => hall (Or.inl h)
    rw [hmain, bind_of_ok (hdevice.trans hw)]
    have hiff : KeyfileStored P' run.path run.file.data run.keyfile
        (run.finish.store run.file.path (P.writing.written run.file.data)) ↔
        run.file.data.length ≤ P.writing.flushed + P.writing.closeFlushed ∧
          run.file.data.length ≤ largestValidPayloadSizeBytes := by
      rw [keyfileStored_iff run hf hf' hreading hmemory hpath, ← written_eq_iff haccepted,
        run.path_eq hf, World.store_files_self, Option.some.injEq]
    simp only [ho, hs, Bool.true_eq_false, false_or, haccepted.not_gt, ← hiff]
    constructor
    · exact fun h => h _ rfl
    · intro h w' hw'
      obtain rfl := (EStateM.Result.ok.inj hw').2
      exact h

theorem success_stores_flushed : ∃ invocation,
    ∃ run : EnrolRun (enrolHost ⟨true, true, 4096, 0, 4096⟩) invocation, ∃ w',
      main (enrolHost ⟨true, true, 4096, 0, 4096⟩) enrolArguments (storedWorld [0x6b]) =
        .ok .success w' ∧
      KeyfileStored (enrolHost ⟨true, true, 4096, 0, 4096⟩) run.path run.file.data run.keyfile
        w' := by
  have hend : (outcome ⟨true, true, 4096, 0, 4096⟩).1 = .inl .success ∧
      (outcome ⟨true, true, 4096, 0, 4096⟩).2 ≠ some [0x6b] := by decide +kernel
  unfold outcome at hend
  split at hend
  · next status w' hrun =>
    obtain ⟨hs, hw⟩ := hend
    obtain rfl := Sum.inl.inj hs
    obtain ⟨invocation, run, henrol, hparse, hwrite⟩ :=
      exists_run_of_success hrun fun h => hw (by rw [h]; rfl)
    obtain ⟨rfl, -⟩ := EStateM.Result.ok.inj ((parse_enrolArguments _ _).symm.trans hparse)
    have hpath : literal "keyfile" = run.path := Option.some.inj run.fileNamed
    have hl : run.file.data.length ≤ 4096 :=
      not_lt.mp fun h => not_fwriteFails_of_ok hwrite (Or.inl h)
    have hm : (enrolHost ⟨true, true, 4096, 0, 4096⟩).Allocates largestValidPayloadSizeBytes :=
      referencePlatform_allocates_payload referenceBox.sodium referenceDevice
    have hstores := success_stores_iff rfl run hparse henrol referenceCbor_followsFormat
      referenceCbor_followsFormat rfl hm
      (hm _ (hpath ▸ (by decide :
        (literal "keyfile").length + 1 ≤ largestValidPayloadSizeBytes)))
    refine ⟨_, run, w', hrun, hstores.mpr (Or.inr (Or.inr (Or.inr ⟨hl, hl.trans ?_⟩))) w' hrun⟩
    decide
  · simp at hend
  · simp at hend

/-- When the flush by `fclose` fails, success is reported for an empty file. -/
theorem success_not_stored_unflushed : ∃ invocation,
    ∃ run : EnrolRun (enrolHost ⟨true, true, 4096, 0, 0⟩) invocation, ∃ w',
      main (enrolHost ⟨true, true, 4096, 0, 0⟩) enrolArguments (storedWorld [0x6b]) =
        .ok .success w' ∧
      w'.files run.path = some [] ∧
      ∀ P', ¬KeyfileStored P' run.path run.file.data run.keyfile w' := by
  have hend : outcome ⟨true, true, 4096, 0, 0⟩ = (.inl .success, some []) := by decide +kernel
  unfold outcome at hend
  split at hend
  · next status w' hrun =>
    obtain ⟨hs, hw⟩ := Prod.mk.inj hend
    obtain rfl := Sum.inl.inj hs
    obtain ⟨invocation, run, henrol, hparse, hwrite⟩ := exists_run_of_success hrun fun h => by
      have hk := congrFun h (literal "keyfile")
      rw [hw] at hk
      simp [storedWorld] at hk
    obtain ⟨rfl, -⟩ := EStateM.Result.ok.inj ((parse_enrolArguments _ _).symm.trans hparse)
    have hpath : literal "keyfile" = run.path := Option.some.inj run.fileNamed
    rw [hpath] at hw
    refine ⟨_, run, w', hrun, hw, fun P' hstored => ?_⟩
    refine not_fwriteFails_of_ok hwrite (Or.inr ?_)
    exact Option.some.inj (hstored.content.symm.trans hw)
  · simp at hend
  · simp at hend

end Khefin
