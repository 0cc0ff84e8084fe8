import Khefin.ReachedDevices
import Khefin.StartReports
import Khefin.VaultRuns

/-! # What a keyfile means through any history

Whatever is started between an enrolment and a generation, the keyfile gives its key for its own
passphrase only, and it is the same key each time. -/

namespace Khefin
open CLibrary ExitingPrograms Registers Simulations

/-- The start is a generation with these. -/
def Launch.Generates (l : Launch) (path passphrase : CString) (mixin : Option CString) : Prop :=
  ∃ invocation w, l.Runs .generate invocation w ∧ invocation.file = some path ∧
    invocation.passphrase = some passphrase ∧ invocation.mixin = mixin

/-- A device that is connected answers the challenge. -/
def Launch.AnsweredBy (l : Launch) (challenge : Challenge) (secret : Bytes) : Prop :=
  ∃ devices, listDevices l.platform = .ok devices ∧ ∃ a ∈ devices, ∃ request,
    request.challenge = challenge ∧ a.fidoDevGetAssert request = (fidoOk, secret)

/-! ## Such a history -/

def referenceLibraries : Libraries := ⟨referenceBox.sodium, referenceCbor⟩

theorem ideal_of_box (b : OneBox) : (Libraries.mk b.sodium referenceCbor).Ideal where
  followsFormat := referenceCbor_followsFormat
  boxes := b.boxes
  pwhash_injective _ _ _ := b.pwhash_injective
  opens_only _ _ _ _ _ _ he ho := (b.opens_only he ho).1

theorem referenceLibraries_ideal : referenceLibraries.Ideal := ideal_of_box referenceBox

/-- An enrolment where there are no files. -/
def enrolStart : Launch where
  platform := enrolHost ⟨true, true, 4096, 0, 4096⟩
  argv := enrolArguments
  files := fun _ => none

def generateHost : Platform :=
  { referenceHost referenceDevice with
    getoptLong := fun _ => ⟨[⟨'f', literal "keyfile"⟩, ⟨'p', literal "correct horse"⟩],
      [literal "generate"]⟩ }

/-- A generation from what it left there. -/
def generateStart : Launch where
  platform := generateHost
  argv := [literal "khefin", literal "generate", literal "-f", literal "keyfile", literal "-p",
    literal "correct horse"]
  files := enrolStart.filesAfter

def referenceSealing : Sealing where
  passphrase := literal "correct horse"
  relyingPartyId :=
    literal "aaaaaaaaaaaaaaaaaaaaaaaaaaaaaaaa.v1.fido2-hmac-secret.localhost"
  credentialId := [0xc1, 0xc2]
  salt := referenceEntropy.hmacSalt.toList
  deviceAaguid := List.replicate 16 0x2f

/-- The same once more. -/
def generateAgain : Launch := { generateStart with files := generateStart.filesAfter }

theorem enrolStart_deed : enrolStart.deed = .write (literal "keyfile") referenceSealing := by
  decide +kernel

theorem generateStart_generates :
    generateStart.Generates (literal "keyfile") (literal "correct horse") none :=
  ⟨_, _, ⟨rfl, rfl⟩, rfl, rfl, rfl⟩

theorem generateStart_status : generateStart.status = some .success := by decide +kernel

theorem generateStart_deed : generateStart.deed = .use (literal "keyfile")
    ⟨literal "correct horse", none, ⟨referenceSealing.relyingPartyId,
      List.replicate clientDataHashSizeBytes 0x41, [0xc1, 0xc2], referenceSealing.salt⟩⟩ := by
  decide +kernel

theorem step_of_has {lib : Libraries} {l : Launch} (h : l.platform.Has lib)
    {files : CString → Option Bytes} (hfiles : l.files = files) :
    Launch.Step lib files l l.filesAfter := ⟨h, hfiles, rfl⟩

theorem generateStart_files : generateStart.files = enrolStart.filesAfter := by rw [generateStart]

theorem generateAgain_files : generateAgain.files = generateStart.filesAfter := by
  rw [generateAgain]

/-- The reference device has one answer. -/
theorem answered_reference {l : Launch} {challenge : Challenge} {secret : Bytes}
    (hlisted : listDevices l.platform = .ok [referenceDevice]) (h : l.AnsweredBy challenge secret) :
    secret = [0x5e, 0xc3] := by
  obtain ⟨devices, hdevices, a, ha, request, -, hanswer⟩ := h
  obtain rfl := Except.ok.inj (hlisted.symm.trans hdevices)
  obtain rfl := List.mem_singleton.mp ha
  exact (congrArg Prod.snd hanswer).symm

theorem run_enrolStart_generateStart : Run (Launch.Step referenceLibraries) (fun _ => none)
    [enrolStart, generateStart] generateStart.filesAfter :=
  .cons (step_of_has ⟨rfl, rfl⟩ rfl) (.cons (step_of_has ⟨rfl, rfl⟩ generateStart_files) (.nil _))

section Histories

variable {lib : Libraries} {files files' : CString → Option Bytes} {held : CString → Option Sealing}

/-- Every history of starts is a history of the registers. -/
theorem history_of_registers (hlib : lib.Ideal) {starts : List Launch}
    (hrun : Run (Launch.Step lib) files starts files') (hR : Represents lib files held) :
    ∃ held', Run (Registers.Step (Sealing.Fits lib.sodium)) held (starts.map Launch.deed) held' ∧
      Represents lib files' held' := (simulates_deed hlib).run hrun hR

theorem represents_nothing (lib : Libraries) (files : CString → Option Bytes) :
    Represents lib files fun _ => none := fun path s h => by simp at h

theorem history_of_registers_reference : ∃ held',
    Run (Registers.Step (Sealing.Fits referenceLibraries.sodium)) (fun _ => none)
      [.write (literal "keyfile") referenceSealing, .use (literal "keyfile")
        ⟨literal "correct horse", none, ⟨referenceSealing.relyingPartyId,
          List.replicate clientDataHashSizeBytes 0x41, [0xc1, 0xc2], referenceSealing.salt⟩⟩] held' ∧
      Represents referenceLibraries generateStart.filesAfter held' := by
  have hhistory := history_of_registers referenceLibraries_ideal run_enrolStart_generateStart
    (represents_nothing _ _)
  rwa [List.map_cons, List.map_cons, enrolStart_deed, generateStart_deed] at hhistory

variable {path passphrase : CString} {mixin : Option CString} {l : Launch} {s : Sealing}

/-- A generation that succeeds is a use of its keyfile, and prints an answer to what it asked. -/
theorem use_of_generates (h : l.Generates path passphrase mixin)
    (hstatus : l.status = some .success) : ∃ challenge secret,
      l.deed = .use path ⟨passphrase, mixin, challenge⟩ ∧ l.AnsweredBy challenge secret ∧
        l.output = hexLine secret := by
  obtain ⟨invocation, w, hruns, hfile, hpassphrase, rfl⟩ := h
  obtain ⟨w', hresult, hrun⟩ := Launch.found_of_success hruns hstatus
  cases hrun with | @found devices _ _ _ _ listed opened searched =>
  obtain ⟨a, ha, request, secret, hanswer, -, hlast, hout⟩ :=
    GenerationRun.spec_of_found opened searched
  refine ⟨request.challenge, secret, ?_, ⟨devices, listed, a, ha, request, rfl, hanswer⟩, ?_⟩
  · simp [Launch.deed, hruns.1, hruns.2, useOf, hresult, hfile, hpassphrase, hlast]
  · rw [Launch.output, hresult, finalState_ok, hout, Launch.output_eq hruns.1, List.nil_append]

/-- As long as no start changes the file, each use of it is one that its sealing allows. -/
theorem fits_of_kept (hlib : lib.Ideal) {first : Launch} {starts : List Launch}
    (hrun : Run (Launch.Step lib) files (first :: starts) files')
    (hwritten : first.deed = .write path s) (hkept : ∀ l ∈ starts, ¬l.deed.Changes path)
    (hl : l ∈ starts) {u : Use} (huse : l.deed = .use path u) : s.Fits lib.sodium u := by
  obtain ⟨held', hregisters, -⟩ := (simulates_deed hlib).run hrun (represents_nothing lib files)
  rw [List.map_cons, hwritten] at hregisters
  refine Registers.fits_of_mem hregisters ?_ (List.mem_map.mpr ⟨l, hl, huse⟩)
  intro d hd
  obtain ⟨l', hl', rfl⟩ := List.mem_map.mp hd
  exact hkept l' hl'

/-- As long as no start changes the file, a generation that succeeds has the passphrase of the
sealing that was written, and prints what a connected device answers to its challenge. -/
theorem generation_fits_sealing (hlib : lib.Ideal) {first : Launch} {starts : List Launch}
    (hrun : Run (Launch.Step lib) files (first :: starts) files')
    (hwritten : first.deed = .write path s) (hkept : ∀ l ∈ starts, ¬l.deed.Changes path)
    (hl : l ∈ starts) (h : l.Generates path passphrase mixin) (hstatus : l.status = some .success) :
    passphrase = s.passphrase ∧ ∃ challenge secret, s.challenge lib.sodium mixin = some challenge ∧
      l.AnsweredBy challenge secret ∧ l.output = hexLine secret := by
  obtain ⟨challenge, secret, hdeed, hanswered, hout⟩ := use_of_generates h hstatus
  obtain ⟨hpassphrase, hchallenge⟩ := fits_of_kept hlib hrun hwritten hkept hl hdeed
  exact ⟨hpassphrase, challenge, secret, hchallenge, hanswered, hout⟩

theorem generation_fits_sealing_reference : literal "correct horse" = referenceSealing.passphrase ∧
    ∃ challenge secret,
      referenceSealing.challenge referenceLibraries.sodium none = some challenge ∧
        generateStart.AnsweredBy challenge secret ∧ generateStart.output = hexLine secret :=
  generation_fits_sealing referenceLibraries_ideal run_enrolStart_generateStart enrolStart_deed
    (by simp [generateStart_deed, Deed.Changes]) List.mem_cons_self generateStart_generates
    generateStart_status

/-- The devices of these starts answer a challenge in one way. -/
def Consistent (starts : List Launch) : Prop :=
  ∀ l ∈ starts, ∀ l' ∈ starts, ∀ challenge secret secret',
    l.AnsweredBy challenge secret → l'.AnsweredBy challenge secret' → secret = secret'

/-- Two generations that succeed with the same mixin print the same key. -/
theorem generations_print_one_key (hlib : lib.Ideal) {first : Launch} {starts : List Launch}
    (hrun : Run (Launch.Step lib) files (first :: starts) files')
    (hwritten : first.deed = .write path s) (hkept : ∀ l ∈ starts, ¬l.deed.Changes path)
    (hdevices : Consistent starts) {l l' : Launch} (hl : l ∈ starts) (hl' : l' ∈ starts)
    {passphrase passphrase' : CString} (h : l.Generates path passphrase mixin)
    (h' : l'.Generates path passphrase' mixin) (hstatus : l.status = some .success)
    (hstatus' : l'.status = some .success) : passphrase = passphrase' ∧ l.output = l'.output := by
  obtain ⟨challenge, secret, hdeed, hanswered, hout⟩ := use_of_generates h hstatus
  obtain ⟨challenge', secret', hdeed', hanswered', hout'⟩ := use_of_generates h' hstatus'
  obtain ⟨rfl, hchallenge⟩ := fits_of_kept hlib hrun hwritten hkept hl hdeed
  obtain ⟨rfl, hchallenge'⟩ := fits_of_kept hlib hrun hwritten hkept hl' hdeed'
  obtain rfl := Option.some.inj (hchallenge.symm.trans hchallenge')
  obtain rfl := hdevices l hl l' hl' challenge secret secret' hanswered hanswered'
  exact ⟨rfl, hout.trans hout'.symm⟩

theorem generations_print_one_key_reference :
    literal "correct horse" = literal "correct horse" ∧
      generateStart.output = generateAgain.output := by
  have hagain : generateAgain.deed = generateStart.deed := by decide +kernel
  have hanswer : ∀ l ∈ [generateStart, generateAgain], ∀ challenge secret,
      l.AnsweredBy challenge secret → secret = [0x5e, 0xc3] := by
    intro l hl challenge secret h
    rcases List.mem_pair.mp hl with rfl | rfl <;> exact answered_reference rfl h
  refine generations_print_one_key referenceLibraries_ideal
    (.cons (step_of_has ⟨rfl, rfl⟩ rfl) (.cons (step_of_has ⟨rfl, rfl⟩ generateStart_files)
      (.cons (step_of_has ⟨rfl, rfl⟩ generateAgain_files) (.nil _)))) enrolStart_deed ?_
    (fun l hl l' hl' challenge secret secret' h h' =>
      (hanswer l hl _ _ h).trans (hanswer l' hl' _ _ h').symm)
    List.mem_cons_self (List.mem_cons_of_mem _ List.mem_cons_self) generateStart_generates
    ⟨_, _, ⟨rfl, rfl⟩, rfl, rfl, rfl⟩ generateStart_status (by decide +kernel)
  simp [hagain, generateStart_deed, Deed.Changes]

end Histories

/-! ## When a key is given -/

/-- The request for a challenge, without a PIN. -/
def Challenge.request (challenge : Challenge) : AssertionRequest where
  salt := challenge.salt
  relyingPartyId := challenge.relyingPartyId
  clientDataHash := challenge.clientDataHash
  credentialId := challenge.credentialId
  pin := none

theorem eq_request_of_challenge {request : AssertionRequest} {challenge : Challenge}
    (h : request.challenge = challenge) (hpin : request.pin = none) :
    request = challenge.request := by
  obtain ⟨_, _, _, _, _⟩ := request
  subst h hpin
  rfl

/-- The PIN that was given on the command line. -/
def Launch.pin (l : Launch) : Option CString :=
  l.parsed.bind fun parsed => parsed.1.authenticatorPin

/-- The device has the credential of the sealing; if it has a PIN, this is the right one. -/
def Authenticator.HoldsCredential (a : Authenticator) (s : Sealing) (challenge : Challenge)
    (given : Option CString) (secret : Bytes) : Prop :=
  ∀ c : DeserializedCleartext, c.deviceAaguid = s.deviceAaguid →
    a.Gives c challenge.request given secret

/-- The search passes the device by. -/
def Authenticator.PassedBy (a : Authenticator) (s : Sealing) (challenge : Challenge)
    (given : Option CString) : Prop :=
  ∀ c : DeserializedCleartext, c.deviceAaguid = s.deviceAaguid → a.PassesOn c challenge.request given

/-- The device of the sealing is connected, and the search gets to it. -/
structure Launch.Reaches (l : Launch) (s : Sealing) (challenge : Challenge) (secret : Bytes) :
    Prop where
  devices : ∃ before a after, listDevices l.platform = .ok (before ++ a :: after) ∧
    a.HoldsCredential s challenge l.pin secret ∧ ∀ b ∈ before, b.PassedBy s challenge l.pin
  secret : secret.length ≤ largestValidPayloadSizeBytes

/-- Calls that read the keyfile succeed, and memory is not short. -/
structure Launch.Capable (l : Launch) (path passphrase : CString) : Prop where
  reading : l.platform.reading = .faithful
  memory : l.platform.Allocates largestValidPayloadSizeBytes
  path : path.length < largestValidPayloadSizeBytes
  passphrase : passphrase.length < largestValidPayloadSizeBytes

section Availability

variable {lib : Libraries} {files : CString → Option Bytes} {path passphrase : CString}
  {mixin : Option CString} {l : Launch} {s : Sealing} {challenge : Challenge} {secret : Bytes}

/-- A generation that succeeds on a file with a sealing is a use that the sealing allows. -/
theorem fits_of_success (hlib : lib.Ideal) (hP : l.platform.Has lib) {data : Bytes}
    (hdata : l.files path = some data) (hholds : Holds lib data s)
    (h : l.Generates path passphrase mixin) (hstatus : l.status = some .success) :
    passphrase = s.passphrase ∧ ∃ challenge secret, s.challenge lib.sodium mixin = some challenge ∧
      l.AnsweredBy challenge secret ∧ l.output = hexLine secret := by
  obtain ⟨invocation, w, hruns, hfile, hpassphrase, rfl⟩ := h
  obtain ⟨w', hresult, hrun⟩ := Launch.found_of_success hruns hstatus
  cases hrun with | @found devices _ _ _ _ listed opened searched =>
  have hfound : w.files path = some data := (congrFun (Launch.files_eq hruns.1) path).trans hdata
  obtain ⟨passphrase', hgiven, hfits, hasked⟩ :=
    fits_of_openKeyfile hlib hP hfile hfound hholds opened
  obtain ⟨a, ha, request, secret, hanswer, hchallenge, -, hout⟩ :=
    GenerationRun.spec_of_found opened searched
  refine ⟨(Option.some.inj (hpassphrase.symm.trans hgiven)).trans hfits, request.challenge, secret,
    ?_, ⟨devices, listed, a, ha, request, rfl, hanswer⟩, ?_⟩
  · rw [hasked, hchallenge]
  · rw [Launch.output, hresult, finalState_ok, hout, Launch.output_eq hruns.1, List.nil_append]

/-- Limits that derive a key from one passphrase derive one from each. -/
def Libraries.DerivesEach (lib : Libraries) : Prop :=
  ∀ i key passwd, lib.sodium.cryptoPwhash i = some key →
    lib.sodium.cryptoPwhash { i with passwd } ≠ none

/-- Any other passphrase is told to be wrong. -/
theorem badPassphrase_of_other (hlib : lib.Ideal) (hderives : lib.DerivesEach)
    (hP : l.platform.Has lib) {data : Bytes} (hdata : l.files path = some data)
    (hholds : Holds lib data s) (h : l.Generates path passphrase mixin)
    (hcapable : l.Capable path passphrase) {devices : List Authenticator}
    (hlisted : listDevices l.platform = .ok devices) (hne : passphrase ≠ s.passphrase) :
    l.status = some .badPassphrase := by
  obtain ⟨hsize, Q, enrolled, run, hQ, rfl, rfl⟩ := hholds
  obtain ⟨invocation, w, hruns, hfile, hpassphrase, rfl⟩ := h
  have hfound : w.files path = some run.file.data :=
    (congrFun (Launch.files_eq hruns.1) path).trans hdata
  have hf : Q.cbor.FollowsFormat := hQ.cbor ▸ hlib.followsFormat
  have hopening : Opening l.platform invocation w passphrase run.file.data :=
    ⟨hpassphrase, ⟨path, hfile, hfound, hcapable.memory _ hcapable.path⟩, hcapable.reading,
      hcapable.memory, hcapable.memory _ hcapable.passphrase⟩
  have hown : lib.sodium.cryptoPwhash (run.keyfile.pwhashInput run.keySpec.passphrase) =
      some run.key := by
    rw [run.keyfile_pwhashInput, ← hQ.sodium]
    exact run.derived
  obtain ⟨key, hkey⟩ := Option.ne_none_iff_exists'.mp
    (hderives (run.keyfile.pwhashInput run.keySpec.passphrase) run.key passphrase.bytes hown)
  have hclosed : Q.sodium.cryptoSecretboxOpenEasy run.keyfile.encryptedData run.keyfile.nonce key =
      none := by
    rw [hQ.sodium]
    by_contra hopens
    obtain ⟨m, hm⟩ := Option.ne_none_iff_exists'.mp hopens
    have hsealed := run.easy_eq hf
    rw [hQ.sodium] at hsealed
    -- the run's key would have been derived from two passphrases
    obtain rfl := hlib.opens_only _ _ _ _ _ _ hsealed hm
    exact hne (CString.ext (congrArg PwhashInput.passwd (hlib.pwhash_injective _ _ _ hkey hown)))
  rw [← hQ.sodium] at hkey
  obtain ⟨m, w', hopened⟩ := run.openKeyfile_of_other_key (hP.sodium.trans hQ.sodium.symm)
    (hP.cbor.trans hQ.cbor.symm) hf (hQ.sodium ▸ hlib.boxes) hsize hopening hkey hclosed
  rw [Launch.status, Launch.result_of_unopened hruns hlisted hopened]

/-- A keyfile that is known to hold a sealing gives the key of its device for its passphrase. -/
theorem output_of_generates (hlib : lib.Ideal) (hP : l.platform.Has lib) {data : Bytes}
    (hdata : l.files path = some data) (hholds : Holds lib data s)
    (h : l.Generates path s.passphrase mixin)
    (hchallenge : s.challenge lib.sodium mixin = some challenge)
    (hcapable : l.Capable path s.passphrase) (hreaches : l.Reaches s challenge secret) :
    l.status = some .success ∧ l.output = hexLine secret := by
  obtain ⟨invocation, w, hruns, hfile, hpassphrase, rfl⟩ := h
  obtain ⟨hresult, hfiles, -⟩ := Launch.result_of_parsed hruns.1
  have hfound : w.files path = some data := (congrFun hfiles path).trans hdata
  have hopening : Opening l.platform invocation w s.passphrase data :=
    ⟨hpassphrase, ⟨path, hfile, hfound, hcapable.memory _ hcapable.path⟩, hcapable.reading,
      hcapable.memory, hcapable.memory _ hcapable.passphrase⟩
  obtain ⟨c, params, w₁, hopen, husable, hc, haaguid⟩ :=
    exists_openKeyfile_of_holds hlib hP hholds hopening hchallenge
  obtain ⟨_, -, -, hasked⟩ := fits_of_openKeyfile hlib hP hfile hfound hholds hopen
  have hrequest : params.assertionRequest = challenge.request :=
    eq_request_of_challenge (Option.some.inj (hasked.symm.trans hchallenge))
      (no_pin_of_openKeyfile hopen)
  have hpin : l.pin = invocation.authenticatorPin := by rw [Launch.pin, hruns.1, Option.bind_some]
  obtain ⟨⟨before, a, after, hlisted, ha, hbefore⟩, hsecret⟩ := hreaches
  rw [hpin] at ha hbefore
  have hfinds : Finds l.platform invocation w (before ++ a :: after) secret :=
    finds_of_reached hopen husable haaguid hcapable.memory hsecret
      (fun b hb => hrequest ▸ hbefore b hb c hc) (hrequest ▸ ha c hc) after
  obtain ⟨w', hprinted, hout⟩ := hfinds
  have hsuccess : l.result = .ok .success w' := by
    rw [hresult]
    simp only [runSubcommand, hruns.2]
    rw [bind_of_ok (lift_eq_ok.mpr ⟨hlisted, rfl⟩), bind_of_ok hprinted]
    rfl
  refine ⟨Launch.status_of_ok hsuccess, ?_⟩
  rw [Launch.output, hsuccess, finalState_ok, hout, Launch.output_eq hruns.1, List.nil_append]

theorem holdsCredential_reference (challenge : Challenge) (given : Option CString) :
    referenceDevice.HoldsCredential referenceSealing challenge given [0x5e, 0xc3] := by
  intro c hc
  exact ⟨⟨rfl, rfl, rfl, fun _ => rfl⟩, rfl, .inr hc.symm, rfl,
    fun hpin => absurd hpin Bool.false_ne_true, fun _ _ => ⟨rfl, rfl, rfl⟩, by decide⟩

theorem reaches_reference (hlisted : listDevices l.platform = .ok [referenceDevice])
    (challenge : Challenge) : l.Reaches referenceSealing challenge [0x5e, 0xc3] :=
  ⟨⟨[], referenceDevice, [], hlisted, holdsCredential_reference challenge l.pin, by simp⟩, by decide⟩

end Availability

end Khefin
