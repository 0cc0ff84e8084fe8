import Khefin.LuksKeys

/-! # Keyfiles in an image, and keys from it

The hook copies the keyfiles that `crypttab` names into the image. At boot the keyscript prints a key
for `cryptsetup`. -/

namespace Khefin.InitramfsTools
open CLibrary ExitingPrograms Shell

/-! ## The hook -/

abbrev Image := Bytes → Option Bytes

structure CrypttabEntry where
  /-- `CRYPTTAB_OPTION_keyscript` -/
  keyscript : Option Bytes
  /-- `CRYPTTAB_KEY` -/
  key : Option Bytes

/-- What the hook finds, and the functions it gets from elsewhere. -/
structure Build where
  /-- It is called for its prerequisites. -/
  prereqs : Bool := false
  /-- `[ -f "$TABFILE" ]` -/
  tabfile : Bool := true
  entries : List CrypttabEntry
  /-- The regular files. -/
  files : Bytes → Option Bytes
  pathToKhefin : Bytes
  copyExec : Bytes → Image → Bool × Image
  copyFile : Bytes → Image → ℕ × Image

/-- `*khefin/cryptsetup-keyscript` -/
def CrypttabEntry.usesKeyscript (entry : CrypttabEntry) : Bool :=
  (text "khefin/cryptsetup-keyscript").isSuffixOf (entry.keyscript.getD [])

/-- `${CRYPTTAB_KEY-none}` -/
def CrypttabEntry.keyOrNone (entry : CrypttabEntry) : Bytes := entry.key.getD (text "none")

namespace Build

def copyApp (b : Build) (image : Image) : Except ℕ Image :=
  if (b.copyExec b.pathToKhefin image).1 = false then .error 1
  else .ok (b.copyExec b.pathToKhefin image).2

def copyKey (b : Build) (image : Image) (entry : CrypttabEntry) : Except ℕ Image :=
  if entry.usesKeyscript = false then .ok image
  else if entry.keyOrNone = text "none" ∨ b.files entry.keyOrNone = none then .error 1
  else do
    let image ← b.copyApp image
    if 1 < (b.copyFile entry.keyOrNone image).1 then .error 1
    else .ok (b.copyFile entry.keyOrNone image).2

/-- The image that is left, or the status that stops the build. -/
def hook (b : Build) (image : Image) : Except ℕ Image :=
  if b.prereqs = true ∨ b.tabfile = false then .ok image else b.entries.foldlM b.copyKey image

/-! ## What the hook leaves -/

/-- What is there stays, and what is new is a copy. -/
structure Grows (b : Build) (image image' : Image) : Prop where
  kept : ∀ path data, image path = some data → image' path = some data
  copied : ∀ path data, image' path = some data →
    image path = some data ∨ b.files path = some data

/-- As `copy_exec` and `copy_file` are documented; the status 1 is that of a file that is there. -/
structure Copies (b : Build) : Prop where
  copyExec : ∀ path image, b.Grows image (b.copyExec path image).2
  copyExec_there : ∀ path image, (b.copyExec path image).1 = true →
    (b.copyExec path image).2 path ≠ none
  copyFile : ∀ path image, b.Grows image (b.copyFile path image).2
  copyFile_there : ∀ path image, (b.copyFile path image).1 ≤ 1 → (b.copyFile path image).2 path ≠ none

end Build

section Hook

variable {b : Build} {image image' image'' : Image} {entry : CrypttabEntry}

theorem Build.Grows.refl (b : Build) (image : Image) : b.Grows image image :=
  ⟨fun _ _ h => h, fun _ _ h => .inl h⟩

theorem Build.Grows.trans (h : b.Grows image image') (h' : b.Grows image' image'') :
    b.Grows image image'' where
  kept path data hdata := h'.kept path data (h.kept path data hdata)
  copied path data hdata := by
    rcases h'.copied path data hdata with hbefore | hnew
    · exact h.copied path data hbefore
    · exact .inr hnew

/-- The entry has its keyfile and the program in the image. -/
structure Build.Serves (b : Build) (image : Image) (entry : CrypttabEntry) : Prop where
  program : image b.pathToKhefin ≠ none
  key : ∃ key, entry.key = some key ∧ b.files key ≠ none ∧ image key ≠ none

theorem Build.Serves.mono (h : b.Serves image entry) (hgrows : b.Grows image image') :
    b.Serves image' entry := by
  have hstays : ∀ path, image path ≠ none → image' path ≠ none := by
    intro path hpath
    obtain ⟨data, hdata⟩ := Option.ne_none_iff_exists'.mp hpath
    rw [hgrows.kept path data hdata]
    exact Option.some_ne_none _
  obtain ⟨key, hkey, hfile, hthere⟩ := h.key
  exact ⟨hstays _ h.program, key, hkey, hfile, hstays _ hthere⟩

theorem Build.Copies.copyApp (hcopies : b.Copies) (h : b.copyApp image = .ok image') :
    b.Grows image image' ∧ image' b.pathToKhefin ≠ none := by
  unfold Build.copyApp at h
  split at h
  · cases h
  · next hcopied =>
    obtain rfl := Except.ok.inj h
    exact ⟨hcopies.copyExec _ _, hcopies.copyExec_there _ _ (Bool.not_eq_false _ ▸ hcopied)⟩

theorem Build.Copies.copyKey (hcopies : b.Copies) (h : b.copyKey image entry = .ok image') :
    b.Grows image image' ∧ (entry.usesKeyscript = true → b.Serves image' entry) := by
  unfold Build.copyKey at h
  split_ifs at h with hother hmissing
  · obtain rfl := Except.ok.inj h
    exact ⟨.refl b image, fun huses => by simp [hother] at huses⟩
  · obtain ⟨hnamed, hfile⟩ := not_or.mp hmissing
    obtain ⟨image₁, hprogram, hcopied⟩ := except_bind_eq_ok.mp h
    obtain ⟨hgrows, hthere⟩ := hcopies.copyApp hprogram
    split at hcopied
    · cases hcopied
    · next hstatus =>
      obtain rfl := Except.ok.inj hcopied
      have hgrows' := hcopies.copyFile entry.keyOrNone image₁
      refine ⟨hgrows.trans hgrows', fun _ => ⟨?_, ?_⟩⟩
      · obtain ⟨data, hdata⟩ := Option.ne_none_iff_exists'.mp hthere
        rw [hgrows'.kept _ data hdata]
        exact Option.some_ne_none _
      · cases hkey : entry.key with
        | none => exact absurd (by rw [CrypttabEntry.keyOrNone, hkey]; rfl) hnamed
        | some key =>
          have hpath : entry.keyOrNone = key := by rw [CrypttabEntry.keyOrNone, hkey]; rfl
          rw [hpath] at hfile hstatus ⊢
          exact ⟨key, rfl, hfile, hcopies.copyFile_there key image₁ (Nat.not_lt.mp hstatus)⟩

theorem Build.Copies.foldlM (hcopies : b.Copies) {entries : List CrypttabEntry}
    (h : entries.foldlM b.copyKey image = .ok image') :
    b.Grows image image' ∧ ∀ entry ∈ entries, entry.usesKeyscript = true → b.Serves image' entry := by
  induction entries generalizing image with
  | nil =>
    obtain rfl := Except.ok.inj h
    exact ⟨.refl b image, by simp⟩
  | cons entry entries ih =>
    rw [List.foldlM_cons] at h
    obtain ⟨image₁, hfirst, hrest⟩ := except_bind_eq_ok.mp h
    obtain ⟨hgrows, hserves⟩ := hcopies.copyKey hfirst
    obtain ⟨hgrows', hserves'⟩ := ih hrest
    refine ⟨hgrows.trans hgrows', fun e he huses => ?_⟩
    rcases List.mem_cons.mp he with rfl | he
    · exact (hserves huses).mono hgrows'
    · exact hserves' e he huses

theorem usesKeyscript_of_copyKey {status : ℕ} (h : b.copyKey image entry = .error status) :
    status = 1 ∧ entry.usesKeyscript = true := by
  unfold Build.copyKey at h
  split_ifs at h with hother hmissing
  · cases h
    exact ⟨rfl, Bool.not_eq_false _ ▸ hother⟩
  · refine ⟨?_, Bool.not_eq_false _ ▸ hother⟩
    unfold Build.copyApp at h
    split_ifs at h
    · cases h
      rfl
    · change (if _ then _ else _) = _ at h
      split_ifs at h
      cases h
      rfl

theorem usesKeyscript_of_foldlM {entries : List CrypttabEntry} {status : ℕ}
    (h : entries.foldlM b.copyKey image = .error status) :
    status = 1 ∧ ∃ entry ∈ entries, entry.usesKeyscript = true := by
  induction entries generalizing image with
  | nil => cases h
  | cons entry entries ih =>
    rw [List.foldlM_cons] at h
    cases hfirst : b.copyKey image entry with
    | error status' =>
      rw [hfirst] at h
      cases h
      obtain ⟨hstatus, huses⟩ := usesKeyscript_of_copyKey hfirst
      exact ⟨hstatus, entry, List.mem_cons_self, huses⟩
    | ok image₁ =>
      rw [hfirst] at h
      obtain ⟨hstatus, e, he, huses⟩ := ih h
      exact ⟨hstatus, e, List.mem_cons_of_mem _ he, huses⟩

/-- No other file stands at the path. -/
def Build.Free (b : Build) (image : Image) (path : Bytes) : Prop :=
  ∀ data, image path = some data → b.files path = some data

theorem hook_eq (hprereqs : b.prereqs = false) (htabfile : b.tabfile = true) (image : Image) :
    b.hook image = b.entries.foldlM b.copyKey image := if_neg (by simp [hprereqs, htabfile])

/-- Where no other file stood, what is there now is the copy. -/
theorem Build.Grows.eq_files (h : b.Grows image image') {path : Bytes} (hthere : image' path ≠ none)
    (hfree : b.Free image path) : image' path = b.files path := by
  obtain ⟨data, hdata⟩ := Option.ne_none_iff_exists'.mp hthere
  rw [hdata, (h.copied path data hdata).elim (hfree data) id]

theorem Build.Copies.hook (hcopies : b.Copies) (hprereqs : b.prereqs = false)
    (htabfile : b.tabfile = true) (h : b.hook image = .ok image') : b.Grows image image' ∧
      ∀ entry ∈ b.entries, entry.usesKeyscript = true → b.Serves image' entry := by
  rw [hook_eq hprereqs htabfile] at h
  exact hcopies.foldlM h

/-- The file is copied, if there is none. -/
def copied (files : Bytes → Option Bytes) (path : Bytes) (image : Image) : Image := fun p =>
  (image p).or (if p = path then files p else none)

/-- A disk with another key, and one that the keyscript unlocks. -/
def copyingBuild (files : Bytes → Option Bytes) : Build where
  entries := [⟨none, some (text "none")⟩,
    ⟨some (text "/usr/lib/khefin/cryptsetup-keyscript"), some (text "keyfile")⟩]
  files := files
  pathToKhefin := text "/usr/bin/khefin"
  copyExec path image := ((copied files path image path).isSome, copied files path image)
  copyFile path image :=
    (if image path ≠ none then 1 else if files path ≠ none then 0 else 2, copied files path image)

theorem files_copyingBuild (files : Bytes → Option Bytes) : (copyingBuild files).files = files := rfl

/-- What another hook has made before. -/
def cryptrootImage : Image := fun path =>
  if path = text "/cryptroot/crypttab" then some (text "disk") else none

def copyingImage (files : Bytes → Option Bytes) : Image :=
  copied files (text "keyfile") (copied files (text "/usr/bin/khefin") cryptrootImage)

section Copying

variable {files : Bytes → Option Bytes}

theorem grows_copied (path : Bytes) (image : Image) :
    (copyingBuild files).Grows image (copied files path image) where
  kept p data hdata := by rw [copied, hdata, Option.some_or]
  copied p data hdata := by
    unfold copied at hdata
    split at hdata
    · cases hp : image p with
      | none =>
        rw [hp, Option.none_or] at hdata
        exact .inr hdata
      | some data' =>
        rw [hp, Option.some_or] at hdata
        exact .inl hdata
    · rw [Option.or_none] at hdata
      exact .inl hdata

theorem copies_copyingBuild : (copyingBuild files).Copies where
  copyExec := grows_copied
  copyExec_there path image h := Option.isSome_iff_ne_none.mp h
  copyFile := grows_copied
  copyFile_there path image h := by
    simp only [copyingBuild, copied, if_true] at h ⊢
    split_ifs at h with himage hfile
    · obtain ⟨data, hdata⟩ := Option.ne_none_iff_exists'.mp himage
      simp [hdata]
    · cases image path <;> simp [hfile]
    · omega

theorem hook_copyingBuild {program data : Bytes}
    (hprogram : files (text "/usr/bin/khefin") = some program)
    (hdata : files (text "keyfile") = some data) :
    (copyingBuild files).hook cryptrootImage = .ok (copyingImage files) := by
  have hpaths : text "keyfile" ≠ text "/usr/bin/khefin" := by decide
  have hempty : cryptrootImage (text "/usr/bin/khefin") = none ∧
      cryptrootImage (text "keyfile") = none := by decide
  have hnone : text "keyfile" ≠ text "none" := by decide
  have hother : CrypttabEntry.usesKeyscript ⟨none, some (text "none")⟩ = false := by decide
  have huses : CrypttabEntry.usesKeyscript
      ⟨some (text "/usr/lib/khefin/cryptsetup-keyscript"), some (text "keyfile")⟩ = true := by decide
  rw [hook_eq rfl rfl]
  simp [copyingBuild, copyingImage, Build.copyKey, Build.copyApp, CrypttabEntry.keyOrNone, copied,
    hother, huses, hnone, hpaths, hempty, hprogram, hdata, bind, Except.bind, pure, Except.pure]

end Copying

def referenceFiles (path : Bytes) : Option Bytes :=
  if path = text "/usr/bin/khefin" then some [0x7f] else enrolStart.filesAfter (cString path)

theorem referenceFiles_keyfile : ∃ data, referenceFiles (text "keyfile") = some data ∧
    Holds referenceLibraries data referenceSealing := by
  obtain ⟨data, hdata, hholds⟩ := BootHook.holds_enrolStart
  exact ⟨data, (if_neg (by decide)).trans hdata, hholds⟩

theorem free_cryptrootImage (files : Bytes → Option Bytes) :
    (copyingBuild files).Free cryptrootImage (text "keyfile") := by
  intro data hdata
  rw [cryptrootImage, if_neg (by decide)] at hdata
  cases hdata

theorem hook_reference : (copyingBuild referenceFiles).hook cryptrootImage =
    .ok (copyingImage referenceFiles) := by
  obtain ⟨data, hdata, -⟩ := referenceFiles_keyfile
  exact hook_copyingBuild (if_pos rfl) hdata

/-- A hook that does not stop the build leaves what is in the image, and adds nothing but copies. It
has put the program and the keyfile of each entry with the keyscript there, where no other files
stood, and it stops the build over such an entry only. -/
theorem hook_copies_keyfiles (hcopies : b.Copies) (hprereqs : b.prereqs = false)
    (htabfile : b.tabfile = true) :
    (∀ image', b.hook image = .ok image' → b.Grows image image' ∧
      ∀ entry ∈ b.entries, entry.usesKeyscript = true →
        (image' b.pathToKhefin ≠ none ∧
          (b.Free image b.pathToKhefin → image' b.pathToKhefin = b.files b.pathToKhefin)) ∧
        ∃ key, entry.key = some key ∧ b.files key ≠ none ∧ image' key ≠ none ∧
          (b.Free image key → image' key = b.files key)) ∧
    (∀ status, b.hook image = .error status →
      status = 1 ∧ ∃ entry ∈ b.entries, entry.usesKeyscript = true) := by
  refine ⟨fun image' h => ?_, fun status h => ?_⟩
  · obtain ⟨hgrows, hserves⟩ := hcopies.hook hprereqs htabfile h
    refine ⟨hgrows, fun entry he huses => ?_⟩
    obtain ⟨hprogram, key, hkey, hfile, hthere⟩ := hserves entry he huses
    exact ⟨⟨hprogram, hgrows.eq_files hprogram⟩, key, hkey, hfile, hthere, hgrows.eq_files hthere⟩
  · rw [hook_eq hprereqs htabfile] at h
    exact usesKeyscript_of_foldlM h

theorem hook_copies_keyfiles_reference :
    copyingImage referenceFiles (text "/cryptroot/crypttab") = some (text "disk") ∧
      copyingImage referenceFiles (text "keyfile") = referenceFiles (text "keyfile") := by
  have hcopies : (copyingBuild referenceFiles).Copies := copies_copyingBuild
  obtain ⟨hcopied, -⟩ := @hook_copies_keyfiles _ cryptrootImage hcopies rfl rfl
  obtain ⟨hgrows, hserved⟩ := hcopied _ hook_reference
  obtain ⟨-, key, hkey, -, -, hcopy⟩ :=
    hserved _ (List.mem_cons_of_mem _ List.mem_cons_self) (by decide)
  have hgenerated : cryptrootImage (text "/cryptroot/crypttab") = some (text "disk") := if_pos rfl
  obtain rfl := Option.some.inj hkey
  rw [files_copyingBuild] at hcopy
  exact ⟨hgrows.kept _ _ hgenerated, hcopy (free_cryptrootImage _)⟩

end Hook

/-! ## The keyscript -/

/-- A run of the keyscript, and what the program finds that it starts. -/
structure Keyscript where
  /-- `command -v khefin` -/
  available : Bool
  argument : CString
  enumerateStatus : ℕ
  platform : Platform
  scans : platform.getoptLong = getoptLong
  files : CString → Option Bytes
  stdin : Bytes := []

namespace Keyscript

def generation (k : Keyscript) : Launch where
  platform := k.platform
  argv := (keyfileLine k.argument).argv
  files := k.files
  stdin := k.stdin

/-- Standard output and the status. -/
def decrypt (k : Keyscript) : Bytes × ℕ :=
  if k.enumerateStatus = ExitStatus.noDevices.code then ([], 1)
  else (k.generation.output, if k.generation.status = some .success then 0 else 1)

def run (k : Keyscript) : Bytes × ℕ :=
  if k.available = false then ([], 1)
  else if k.argument = literal "" then ([], 1)
  else k.decrypt

end Keyscript

theorem followsManual_keyfileLine (keyfile : CString) : (keyfileLine keyfile).FollowsManual :=
  @followsManual_generateWith [(.file, keyfile)] ⟨_, List.mem_cons_self⟩
    (by simp [Subcommand.allowedOptions])

section Keys

variable {k : Keyscript} {lib : Libraries} {sealing : Sealing}

theorem Keyscript.run_cases (k : Keyscript) : k.run = ([], 1) ∨
    k.run = (k.generation.output, 0) ∧ k.generation.status = some .success := by
  unfold Keyscript.run Keyscript.decrypt
  split_ifs with _ _ _ hstatus
  · exact .inl rfl
  · exact .inl rfl
  · exact .inl rfl
  · exact .inr ⟨rfl, hstatus⟩
  · rw [output_of_failed k.scans rfl rfl rfl (followsManual_keyfileLine _) hstatus]
    exact .inl rfl

/-- At boot the keyscript prints the key that was added for the keyfile, or it fails and prints
nothing. -/
theorem keyscript_prints_added_key {h : AddLuksKey.Host} {arguments : List CString} {key : Bytes}
    (hlib : lib.Ideal) (hP : h.platform.Has lib) (hclean : h.Cleans) (hsealed : h.Sealed lib sealing)
    (hadded : .luksAddKey arguments key true ∈ (AddLuksKey.addLuksKey h).1.trace)
    {b : Build} {image image' : Image} {entry : CrypttabEntry} {keyfile : Bytes}
    (hcopies : b.Copies) (hprereqs : b.prereqs = false) (htabfile : b.tabfile = true)
    (hfree : b.Free image keyfile) (hhook : b.hook image = .ok image') (hentry : entry ∈ b.entries)
    (huses : entry.usesKeyscript = true) (hkeyfile : entry.key = some keyfile)
    (hfile : ∀ data, b.files keyfile = some data → Holds lib data sealing)
    (hK : k.platform.Has lib) (himage : k.files k.argument = image' keyfile)
    (hdevices : ∀ challenge secret secret', h.generation.AnsweredBy challenge secret →
      k.generation.AnsweredBy challenge secret' → secret = secret') :
    k.run = ([], 1) ∨ k.run = (key, 0) := by
  rcases k.run_cases with hfailed | ⟨hrun, hstatus⟩
  · exact .inl hfailed
  · obtain ⟨hgrows, hserved⟩ := hcopies.hook hprereqs htabfile hhook
    obtain ⟨-, _, hkey, hthere, hcopied⟩ := hserved entry hentry huses
    obtain rfl := Option.some.inj (hkeyfile.symm.trans hkey)
    obtain ⟨data, hdata⟩ := Option.ne_none_iff_exists'.mp hthere
    have hcopy := (hgrows.eq_files hcopied hfree).trans hdata
    obtain ⟨challenge, secret, hchallenge, hanswered, rfl⟩ :=
      AddLuksKey.challenged_of_added hlib hP hclean hsealed hadded
    obtain ⟨passphrase, hgenerates⟩ := generates_of_keyfileLine k.scans rfl hstatus
    obtain ⟨-, challenge', secret', hchallenge', hanswered', hout⟩ := fits_of_success hlib hK
      (himage.trans hcopy) (hfile data hdata) hgenerates hstatus
    obtain rfl := Option.some.inj (hchallenge.symm.trans hchallenge')
    rw [hrun, hout, hdevices _ _ _ hanswered hanswered']
    exact .inr rfl

/-- The keyscript in an image, with the passphrase on standard input. -/
def keyscriptIn (image : Image) : Keyscript where
  available := true
  argument := literal "keyfile"
  enumerateStatus := ExitStatus.success.code
  platform := { referenceHost referenceDevice with getoptLong := getoptLong }
  scans := AddLuksKey.referenceScript.scans
  files path := image path.bytes
  stdin := text "correct horse\n"

theorem keyscriptIn_files (image : Image) :
    (keyscriptIn image).files (keyscriptIn image).argument = image (text "keyfile") := rfl

theorem keyscript_prints_added_key_reference :
    (keyscriptIn (copyingImage referenceFiles)).run = (hexLine [0x5e, 0xc3], 0) := by
  have hworks : (keyscriptIn (copyingImage referenceFiles)).run ≠ ([], 1) := by decide +kernel
  have hfile : ∀ data, (copyingBuild referenceFiles).files (text "keyfile") = some data →
      Holds referenceLibraries data referenceSealing := by
    intro data hdata
    obtain ⟨data', hdata', hholds⟩ := referenceFiles_keyfile
    rw [files_copyingBuild, hdata'] at hdata
    obtain rfl := Option.some.inj hdata
    exact hholds
  have hentry : ⟨some (text "/usr/lib/khefin/cryptsetup-keyscript"), some (text "keyfile")⟩ ∈
      (copyingBuild referenceFiles).entries := List.mem_cons_of_mem _ List.mem_cons_self
  have hkeyfile : CrypttabEntry.key ⟨some (text "/usr/lib/khefin/cryptsetup-keyscript"),
      some (text "keyfile")⟩ = some (text "keyfile") := rfl
  have hdevices : ∀ challenge secret secret',
      AddLuksKey.referenceScript.generation.AnsweredBy challenge secret →
      (keyscriptIn (copyingImage referenceFiles)).generation.AnsweredBy challenge secret' →
        secret = secret' := fun challenge secret secret' h h' =>
    (answered_reference rfl h).trans (answered_reference rfl h').symm
  have hprints := keyscript_prints_added_key referenceLibraries_ideal ⟨rfl, rfl⟩
    AddLuksKey.cleans_referenceScript AddLuksKey.sealed_referenceScript
    AddLuksKey.added_referenceScript copies_copyingBuild rfl rfl (free_cryptrootImage _)
    hook_reference hentry (by decide) hkeyfile hfile ⟨rfl, rfl⟩ (keyscriptIn_files _) hdevices
  exact hprints.resolve_left hworks

end Keys

end Khefin.InitramfsTools
