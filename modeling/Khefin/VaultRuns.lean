import Khefin.GenerationOutcomes
import Khefin.KeyfileStorage
import Khefin.KeyfileVault

/-! # Runs of the program as deeds on a vault

Each start of the program leaves the files as the next one finds them. What a start amounts to is
a deed on the registers of the keyfiles, and a run of any length is a run of the registers. -/

namespace Khefin
open CLibrary ExitingPrograms Registers Simulations

/-! ## Deeds -/

/-- Starts find the files as they are, and leave them for the next. -/
structure Launch.Step (lib : Libraries) (files : CString → Option Bytes) (l : Launch)
    (files' : CString → Option Bytes) : Prop where
  libraries : l.platform.Has lib
  found : l.files = files
  left : l.filesAfter = files'

/-- The file of an enrolment that gets to writing one, and the sealing it is for. -/
def enrolled (P : Platform) (invocation : InvocationState) (w : World) :
    Option (EncodedFile × Sealing) :=
  match enrolCredential P invocation w with
  | .error _ _ => none
  | .ok (params, deviceInfo) w₁ =>
    match sealKeyfile P invocation params deviceInfo w₁ with
    | .error _ _ => none
    | .ok f _ => some (f, {
        passphrase := invocation.passphrase.getD (literal "")
        relyingPartyId := params.relyingPartyId
        credentialId := params.credentialId
        salt := params.salt
        deviceAaguid := deviceInfo.aaguid })

/-- A generation that has succeeded, as a use of its keyfile. -/
def useOf (invocation : InvocationState) :
    EStateM.Result Halt World ExitStatus → Deed CString Sealing Use
  | .ok .success w =>
    match invocation.file, invocation.passphrase, lastRequest w.trace with
    | some path, some passphrase, some request =>
      .use path ⟨passphrase, invocation.mixin, request.challenge⟩
    | _, _, _ => .other
  | _ => .other

/-- What a start amounts to for the keyfiles. A file is known to hold a sealing when all of it was
stored and it is not too big to be read. -/
def Launch.deed (l : Launch) : Deed CString Sealing Use :=
  match l.parsed with
  | none => .other
  | some (invocation, w) =>
    match invocation.subcommand with
    | .enrol =>
      match enrolled l.platform invocation w with
      | none => .other
      | some (f, s) =>
        if l.filesAfter f.path = some f.data ∧ f.data.length ≤ largestValidPayloadSizeBytes then
          .write f.path s
        else .lose f.path
    | .generate => useOf invocation l.result
    | _ => .other

/-- Where a sealing is known to be held, there are bytes that hold it. -/
def Represents (lib : Libraries) (files : CString → Option Bytes)
    (held : CString → Option Sealing) : Prop :=
  ∀ path s, held path = some s → ∃ data, files path = some data ∧ Holds lib data s

/-! ## What a start does -/

theorem enrolled_eq_some {P : Platform} {invocation : InvocationState} {w : World}
    {f : EncodedFile} {s : Sealing} (h : enrolled P invocation w = some (f, s)) :
    ∃ run : EnrolRun P invocation, run.start = w ∧ run.file = f ∧ run.sealing = s := by
  unfold enrolled at h
  split at h
  · simp at h
  · next params deviceInfo w₁ hc =>
    split at h
    · simp at h
    · next f' w₂ hs =>
      obtain ⟨rfl, rfl⟩ := Prod.mk.inj (Option.some.inj h)
      obtain ⟨run, hstart, rfl, rfl, hfile, -⟩ := EnrolRun.of_sealKeyfile hc hs
      refine ⟨run, hstart, hfile, ?_⟩
      simp [EnrolRun.sealing, run.passphrase_eq]

theorem sameFiles_of_not_enrolled {P : Platform} {invocation : InvocationState} {w : World}
    (h : enrolled P invocation w = none) :
    SameFiles w (finalState (enrolDevice P invocation w)) := by
  unfold enrolled at h
  rcases enrolDevice_cases P invocation w with ⟨e, w', he, hquiet⟩ | ⟨run, rfl, -⟩
  · rw [he]
    exact hquiet.1
  · simp [run.credential, run.sealKeyfile_eq] at h

/-- Writing a file leaves all others as they are. -/
theorem files_writeFile (P : Platform) (f : EncodedFile) (w : World) {path : CString}
    (h : path ≠ f.path) : (finalState (writeFile P f w)).files path = w.files path := by
  have hother : ∀ content, (w.store f.path content).files path = w.files path :=
    fun content => if_neg h
  rcases writeFile_cases P f w with ⟨-, m, hw⟩ | ⟨-, -, m, hw⟩ | ⟨-, -, -, m, hw⟩ | ⟨-, -, -, hw⟩
  all_goals rw [hw]
  all_goals first | rfl | exact hother _

section Launches

variable {l : Launch} {invocation : InvocationState} {w : World}

/-- An enrolment leaves the files as writing its file leaves them. -/
theorem Launch.filesAfter_of_enrol (hparsed : l.parsed = some (invocation, w))
    (hsub : invocation.subcommand = .enrol) :
    l.filesAfter = (finalState (enrolDevice l.platform invocation w)).files := by
  rw [Launch.filesAfter, (Launch.result_of_parsed hparsed).1, runSubcommand_enrol hsub]
  cases henrol : enrolDevice l.platform invocation w with
  | ok u w' =>
    rw [bind_of_ok henrol]
    rfl
  | error h w' =>
    rw [bind_of_error henrol]
    rfl

/-- No other start changes a file. -/
theorem Launch.filesAfter_of_not_enrol
    (h : ∀ invocation w, l.parsed = some (invocation, w) → invocation.subcommand ≠ .enrol) :
    l.filesAfter = l.files := by
  cases hparsed : l.parsed with
  | none =>
    obtain ⟨e, w, hresult, hfiles, -⟩ := Launch.result_of_not_parsed hparsed
    rw [Launch.filesAfter, hresult]
    exact hfiles
  | some parsed =>
    obtain ⟨invocation, w⟩ := parsed
    rw [Launch.filesAfter, (Launch.result_of_parsed hparsed).1,
      sameFiles_runSubcommand l.platform _ (h invocation w hparsed) w]
    exact Launch.files_eq hparsed

theorem useOf_cases (invocation : InvocationState) (r : EStateM.Result Halt World ExitStatus) :
    useOf invocation r = .other ∨ ∃ w' path passphrase request, r = .ok .success w' ∧
      invocation.file = some path ∧ invocation.passphrase = some passphrase ∧
      lastRequest w'.trace = some request ∧
      useOf invocation r = .use path ⟨passphrase, invocation.mixin, request.challenge⟩ := by
  unfold useOf
  split
  · next w' =>
    split
    · next path passphrase request hfile hpassphrase hrequest =>
      exact .inr ⟨w', path, passphrase, request, rfl, hfile, hpassphrase, hrequest, rfl⟩
    · exact .inl rfl
  · exact .inl rfl

end Launches

/-! ## The simulation -/

variable {lib : Libraries} {files files' : CString → Option Bytes} {held : CString → Option Sealing}

theorem Represents.of_sameFiles (h : Represents lib files held) (hsame : files' = files) :
    Represents lib files' held := hsame ▸ h

/-- A changed file is as good as a file nothing is known of, unless it holds a sealing. -/
theorem Represents.update (h : Represents lib files held) {path : CString}
    (hother : ∀ p ≠ path, files' p = files p) {value : Option Sealing}
    (hvalue : ∀ s, value = some s → ∃ data, files' path = some data ∧ Holds lib data s) :
    Represents lib files' (Function.update held path value) :=
  held_update h (fun p hp _ hbacked => (hother p hp).symm ▸ hbacked) hvalue

theorem step_of_enrolment {l : Launch} {invocation : InvocationState} {w : World}
    (hP : l.platform.Has lib) (hR : Represents lib l.files held)
    (hparsed : l.parsed = some (invocation, w)) (hsub : invocation.subcommand = .enrol) :
    ∃ held', Registers.Step (Sealing.Fits lib.sodium) held l.deed held' ∧
      Represents lib l.filesAfter held' := by
  have hsame := Launch.files_eq hparsed
  have hend := Launch.filesAfter_of_enrol hparsed hsub
  cases henrolled : enrolled l.platform invocation w with
  | none =>
    have hdeed : l.deed = .other := by simp [Launch.deed, hparsed, hsub, henrolled]
    rw [hdeed]
    refine ⟨held, .other, hR.of_sameFiles ?_⟩
    rw [hend, sameFiles_of_not_enrolled henrolled]
    exact hsame
  | some fs =>
    obtain ⟨f, s⟩ := fs
    obtain ⟨run, rfl, rfl, rfl⟩ := enrolled_eq_some henrolled
    have hother : ∀ p ≠ run.file.path, l.filesAfter p = l.files p := by
      intro p hp
      rw [hend, run.enrolDevice_eq, files_writeFile _ _ _ hp, run.quietly.1]
      exact congrFun hsame p
    by_cases hstored : l.filesAfter run.file.path = some run.file.data ∧
        run.file.data.length ≤ largestValidPayloadSizeBytes
    · have hdeed : l.deed = .write run.file.path run.sealing := by
        simp [Launch.deed, hparsed, hsub, henrolled, hstored]
      rw [hdeed]
      refine ⟨_, .write _ _, hR.update hother ?_⟩
      rintro s hs
      obtain rfl := Option.some.inj hs
      exact ⟨_, hstored.1, hstored.2, _, _, run, hP, rfl, rfl⟩
    · have hdeed : l.deed = .lose run.file.path := by
        simp only [Launch.deed, hparsed, hsub, henrolled, if_neg hstored]
      rw [hdeed]
      refine ⟨_, .lose _, hR.update hother ?_⟩
      rintro s hs
      simp at hs

/-- A generation uses its keyfile as what is held there allows, if opening it does. -/
theorem step_of_useOf {l : Launch} {invocation : InvocationState} {w : World}
    (hparsed : l.parsed = some (invocation, w)) (hsub : invocation.subcommand = .generate)
    (hfits : ∀ path s c params w', held path = some s → invocation.file = some path →
      openKeyfile l.platform invocation w = .ok (c, params) w' →
      ∃ passphrase, invocation.passphrase = some passphrase ∧ s.Fits lib.sodium
        ⟨passphrase, invocation.mixin, params.assertionRequest.challenge⟩) :
    Registers.Step (Sealing.Fits lib.sodium) held (useOf invocation l.result) held := by
  rcases useOf_cases invocation l.result with
    hother | ⟨w', path, passphrase, request, hok, hfile, hpassphrase, hrequest, huse⟩
  · rw [hother]
    exact .other
  · rw [huse]
    refine .use fun s hs => ?_
    have hrun := Launch.generationRun hparsed hsub
    rw [hok] at hrun
    cases hrun with | found listed hopen searched =>
    obtain ⟨a, -, request', secret, -, hchallenge, hlast, -⟩ :=
      GenerationRun.spec_of_found hopen searched
    obtain rfl := Option.some.inj (hrequest.symm.trans hlast)
    obtain ⟨passphrase', hgiven, hfits⟩ := hfits path s _ _ _ hs hfile hopen
    obtain rfl := Option.some.inj (hpassphrase.symm.trans hgiven)
    rw [hchallenge]
    exact hfits

theorem step_of_generation {l : Launch} {invocation : InvocationState} {w : World}
    (hP : l.platform.Has lib) (hlib : lib.Ideal) (hR : Represents lib l.files held)
    (hparsed : l.parsed = some (invocation, w)) (hsub : invocation.subcommand = .generate) :
    Registers.Step (Sealing.Fits lib.sodium) held l.deed held := by
  have hdeed : l.deed = useOf invocation l.result := by simp [Launch.deed, hparsed, hsub]
  rw [hdeed]
  refine step_of_useOf hparsed hsub fun path s c params w' hs hfile hopen => ?_
  obtain ⟨data, hdata, hholds⟩ := hR path s hs
  have hfound : w.files path = some data :=
    (congrFun (Launch.files_eq hparsed) path).trans hdata
  exact fits_of_openKeyfile hlib hP hfile hfound hholds hopen

/-- Every start of the program is a step of the registers. -/
theorem simulates_deed (hlib : lib.Ideal) : Simulates (Represents lib) Launch.deed
    (Launch.Step lib) (Registers.Step (Sealing.Fits lib.sodium)) := by
  rintro files l files' held hR ⟨hP, rfl, rfl⟩
  cases hparsed : l.parsed with
  | none =>
    have hdeed : l.deed = .other := by simp [Launch.deed, hparsed]
    rw [hdeed]
    exact ⟨held, .other, hR.of_sameFiles (Launch.filesAfter_of_not_enrol (by simp [hparsed]))⟩
  | some parsed =>
    obtain ⟨invocation, w⟩ := parsed
    by_cases henrol : invocation.subcommand = .enrol
    · exact step_of_enrolment hP hR hparsed henrol
    · have hkept : l.filesAfter = l.files :=
        Launch.filesAfter_of_not_enrol (by simpa [hparsed] using henrol)
      refine ⟨held, ?_, hR.of_sameFiles hkept⟩
      by_cases hgenerate : invocation.subcommand = .generate
      · exact step_of_generation hP hlib hR hparsed hgenerate
      · have hdeed : l.deed = .other := by
          unfold Launch.deed
          rw [hparsed]
          cases hsub : invocation.subcommand <;> simp_all
        rw [hdeed]
        exact .other

end Khefin
