import Khefin.BootPassphrases
import Khefin.ShellPipelines

/-! # Keyfiles in the boot image

The install hook adds each keyfile to the image under the name that it has in its directory, and
there the boot hook finds it. -/

namespace Khefin.Mkinitcpio
open CLibrary EarlyLoops Shell BootHook

/-! ## The install hook -/

/-- A call of a function of `mkinitcpio`. -/
inductive Addition
  | binary (name : Bytes)
  | file (source destination : Bytes) (mode : ℕ)
  | runscript
  deriving DecidableEq

/-- What `build` finds: two settings, and the files. -/
structure Build where
  keyfilesSourceDir : Option Bytes := none
  encryptedKeyfileDir : Option Bytes := none
  /-- `test -d` -/
  isDirectory : Bytes → Bool
  /-- `find -maxdepth 1 -type f -print` -/
  find : Bytes → List Bytes

/-- `"$directory"/"$name"` -/
def inDirectory (directory name : Bytes) : Bytes := directory ++ slash :: name

namespace Build

def sourceDir (b : Build) : Bytes := b.keyfilesSourceDir.getD (text "/boot/keyfiles")

def directory (b : Build) : Bytes := b.encryptedKeyfileDir.getD (text "/keyfiles")

/-- With `! -name "$(printf "*\n*")"`. -/
def findOnOneLine (b : Build) (directory : Bytes) : List Bytes :=
  (b.find directory).filter fun path => newline ∉ lastComponent path

def addKeyfile (b : Build) (keyfile : Bytes) : Addition :=
  .file keyfile (inDirectory b.directory (substituted [basename keyfile])) 0o400

/-- The calls that are made, in their order. -/
def build (b : Build) : List Addition :=
  if b.isDirectory b.sourceDir = false then []
  else if (joinLines (b.find b.sourceDir)).count newline = 0 then []
  else [.binary (text "khefin"), .binary (text "stty")] ++
    (readLines (joinLines (b.findOnOneLine b.sourceDir))).map b.addKeyfile ++ [.runscript]

end Build

/-! ## What is added -/

/-- The name of an entry of a directory, other than itself and its parent. -/
structure IsName (name : Bytes) : Prop where
  nonempty : name ≠ []
  noSlash : slash ∉ name
  notSelf : name ≠ text "."
  notParent : name ≠ text ".."

/-- The path that `find` prints for an entry of a directory. -/
def foundPath (directory name : Bytes) : Bytes :=
  if directory.getLast? = some slash then directory ++ name else inDirectory directory name

/-- `find` prints the path of each regular file in a directory. -/
def Build.Finds (b : Build) (files : Bytes → Option Bytes) : Prop :=
  ∀ path, path ∈ b.find b.sourceDir ↔
    ∃ name, IsName name ∧ path = foundPath b.sourceDir name ∧ files path ≠ none

section Additions

variable {b : Build} {files : Bytes → Option Bytes} {name directory : Bytes}

theorem exists_foundPath_eq (directory name : Bytes) :
    ∃ before, foundPath directory name = before ++ slash :: name ∧ before <+: directory := by
  unfold foundPath
  split_ifs with hslash
  · obtain ⟨before, rfl⟩ := List.getLast?_eq_some_iff.mp hslash
    exact ⟨before, by simp, List.prefix_append _ _⟩
  · exact ⟨directory, rfl, List.prefix_refl _⟩

theorem foundPath_injective {name' : Bytes} (h : foundPath directory name = foundPath directory name') :
    name = name' := by
  unfold foundPath at h
  split_ifs at h
  · exact List.append_cancel_left h
  · exact (List.cons.inj (List.append_cancel_left h)).2

theorem basename_foundPath (directory : Bytes) (hname : IsName name) :
    basename (foundPath directory name) = name := by
  obtain ⟨before, hpath, -⟩ := exists_foundPath_eq directory name
  rw [hpath, basename_append before hname.nonempty hname.noSlash]

theorem lastComponent_foundPath (directory : Bytes) (hname : IsName name) :
    lastComponent (foundPath directory name) = name := by
  obtain ⟨before, hpath, -⟩ := exists_foundPath_eq directory name
  rw [hpath, lastComponent_append before hname.nonempty hname.noSlash]

theorem newline_notMem_foundPath (hdirectory : newline ∉ directory) (hname : newline ∉ name) :
    newline ∉ foundPath directory name := by
  have hslash : newline ≠ slash := by decide
  obtain ⟨before, hpath, hbefore⟩ := exists_foundPath_eq directory name
  rw [hpath]
  simp only [List.mem_append, List.mem_cons, not_or]
  exact ⟨fun h => hdirectory (hbefore.subset h), hslash, hname⟩

/-- The file names without a newline are those that the loop is given. -/
theorem mem_findOnOneLine (hfinds : b.Finds files) {path : Bytes} :
    path ∈ b.findOnOneLine b.sourceDir ↔ ∃ name, IsName name ∧ newline ∉ name ∧
      path = foundPath b.sourceDir name ∧ files path ≠ none := by
  rw [Build.findOnOneLine, List.mem_filter, hfinds path]
  constructor
  · rintro ⟨⟨name, hname, rfl, hfile⟩, hline⟩
    rw [lastComponent_foundPath _ hname] at hline
    exact ⟨name, hname, of_decide_eq_true hline, rfl, hfile⟩
  · rintro ⟨name, hname, hline, rfl, hfile⟩
    refine ⟨⟨name, hname, rfl, hfile⟩, ?_⟩
    rw [lastComponent_foundPath _ hname]
    exact decide_eq_true hline

theorem addKeyfile_foundPath (hname : IsName name) (hline : newline ∉ name) :
    b.addKeyfile (foundPath b.sourceDir name) =
      .file (foundPath b.sourceDir name) (inDirectory b.directory name) 0o400 := by
  rw [Build.addKeyfile, basename_foundPath _ hname, substituted_single hline]

/-- The turns of the loop, where none of the paths has a newline. -/
theorem readLines_findOnOneLine (hfinds : b.Finds files) (hsource : newline ∉ b.sourceDir) :
    readLines (joinLines (b.findOnOneLine b.sourceDir)) = b.findOnOneLine b.sourceDir := by
  apply readLines_joinLines
  intro path hpath
  obtain ⟨name, -, hline, rfl, -⟩ := (mem_findOnOneLine hfinds).mp hpath
  exact newline_notMem_foundPath hsource hline

/-- The keyfile of this name is copied. -/
theorem file_mem_build_iff (hfinds : b.Finds files) (hsource : newline ∉ b.sourceDir)
    (hdirectory : b.isDirectory b.sourceDir = true) {source destination : Bytes} {mode : ℕ} :
    .file source destination mode ∈ b.build ↔ ∃ name, IsName name ∧ newline ∉ name ∧
      files source ≠ none ∧ source = foundPath b.sourceDir name ∧
        destination = inDirectory b.directory name ∧ mode = 0o400 := by
  have hbuild : .file source destination mode ∈ b.build ↔
      ∃ path ∈ b.findOnOneLine b.sourceDir, b.addKeyfile path = .file source destination mode := by
    rw [Build.build, if_neg (by simp [hdirectory]), readLines_findOnOneLine hfinds hsource]
    split
    · next hnone =>
      have hempty : b.find b.sourceDir = [] := count_newline_joinLines.mp hnone
      simp [Build.findOnOneLine, hempty]
    · simp
  rw [hbuild]
  constructor
  · rintro ⟨path, hpath, hadd⟩
    obtain ⟨name, hname, hline, rfl, hfile⟩ := (mem_findOnOneLine hfinds).mp hpath
    rw [addKeyfile_foundPath hname hline] at hadd
    obtain ⟨rfl, rfl, rfl⟩ := Addition.file.inj hadd
    exact ⟨name, hname, hline, hfile, rfl, rfl, rfl⟩
  · rintro ⟨name, hname, hline, hfile, rfl, rfl, rfl⟩
    exact ⟨_, (mem_findOnOneLine hfinds).mpr ⟨name, hname, hline, rfl, hfile⟩,
      addKeyfile_foundPath hname hline⟩

theorem runscript_mem_build_iff (hfinds : b.Finds files) (hdirectory : b.isDirectory b.sourceDir = true) :
    .runscript ∈ b.build ↔ ∃ name, IsName name ∧ files (foundPath b.sourceDir name) ≠ none := by
  have hbuild : .runscript ∈ b.build ↔ b.find b.sourceDir ≠ [] := by
    rw [Build.build, if_neg (by simp [hdirectory])]
    split
    · next hnone => simp [count_newline_joinLines.mp hnone]
    · next hsome => simp [mt count_newline_joinLines.mpr hsome]
  rw [hbuild]
  constructor
  · intro hne
    obtain ⟨path, hpath⟩ := List.exists_mem_of_ne_nil _ hne
    obtain ⟨name, hname, rfl, hfile⟩ := (hfinds path).mp hpath
    exact ⟨name, hname, hfile⟩
  · rintro ⟨name, hname, hfile⟩
    exact List.ne_nil_of_mem ((hfinds _).mpr ⟨name, hname, rfl, hfile⟩)

theorem isName_disk : IsName (text "disk") := ⟨by decide, by decide, by decide, by decide⟩

/-- Without a directory nothing is added. With one, each keyfile is, unless it has a newline in its
name, and the boot hook is added where there is any keyfile at all. -/
theorem build_adds_each_keyfile (hfinds : b.Finds files) (hsource : newline ∉ b.sourceDir) :
    (b.isDirectory b.sourceDir = false → b.build = []) ∧
    (b.isDirectory b.sourceDir = true →
      (∀ source destination mode, .file source destination mode ∈ b.build ↔
        ∃ name, IsName name ∧ newline ∉ name ∧ files source ≠ none ∧
          source = foundPath b.sourceDir name ∧ destination = inDirectory b.directory name ∧
            mode = 0o400) ∧
      (.runscript ∈ b.build ↔ ∃ name, IsName name ∧ files (foundPath b.sourceDir name) ≠ none)) := by
  refine ⟨fun hnone => if_pos hnone, fun hdirectory => ⟨fun source destination mode => ?_, ?_⟩⟩
  · exact file_mem_build_iff hfinds hsource hdirectory
  · exact runscript_mem_build_iff hfinds hdirectory

/-- Two keyfiles, one with a blank in its name, and one with a newline there. -/
def severalNames : List Bytes := [text "disk", text "my key", text "a\nb"]

def severalBuild : Build where
  isDirectory _ := true
  find directory := severalNames.map (foundPath directory)

def severalFiles : Bytes → Option Bytes := fun path =>
  if path ∈ severalNames.map (foundPath severalBuild.sourceDir) then some [0] else none

theorem finds_severalBuild : severalBuild.Finds severalFiles := by
  have hnames : ∀ name ∈ severalNames, IsName name := by
    intro name hname
    rcases hname with _ | ⟨_, _ | ⟨_, _ | ⟨_, hname⟩⟩⟩
    · exact isName_disk
    · exact ⟨by decide, by decide, by decide, by decide⟩
    · exact ⟨by decide, by decide, by decide, by decide⟩
    · cases hname
  have hfile : ∀ path, severalFiles path ≠ none ↔
      path ∈ severalNames.map (foundPath severalBuild.sourceDir) := by
    intro path
    unfold severalFiles
    split_ifs with hpath
    · exact ⟨fun _ => hpath, fun _ => Option.some_ne_none _⟩
    · exact ⟨fun hne => absurd rfl hne, fun hmem => absurd hmem hpath⟩
  intro path
  change path ∈ severalNames.map (foundPath severalBuild.sourceDir) ↔ _
  constructor
  · intro hpath
    obtain ⟨name, hname, rfl⟩ := List.mem_map.mp hpath
    exact ⟨name, hnames name hname, rfl, (hfile _).mpr hpath⟩
  · rintro ⟨name, -, rfl, hthere⟩
    exact (hfile _).mp hthere

theorem build_adds_each_keyfile_disk :
    .file (text "/boot/keyfiles/disk") (text "/keyfiles/disk") 0o400 ∈ severalBuild.build ∧
    .file (text "/boot/keyfiles/my key") (text "/keyfiles/my key") 0o400 ∈ severalBuild.build ∧
    (∀ destination mode,
      .file (text "/boot/keyfiles/a\nb") destination mode ∉ severalBuild.build) ∧
    .runscript ∈ severalBuild.build := by
  obtain ⟨-, hadds⟩ := build_adds_each_keyfile finds_severalBuild (by decide)
  obtain ⟨hfiles, hscript⟩ := hadds rfl
  refine ⟨?_, ?_, fun destination mode hadded => ?_, ?_⟩
  · exact (hfiles _ _ _).mpr ⟨text "disk", isName_disk, by decide, by decide, by decide, by decide, rfl⟩
  · exact (hfiles _ _ _).mpr ⟨text "my key", ⟨by decide, by decide, by decide, by decide⟩, by decide,
      by decide, by decide, by decide, rfl⟩
  · obtain ⟨name, -, hline, -, hpath, -⟩ := (hfiles _ _ _).mp hadded
    have hnewline : text "/boot/keyfiles/a\nb" = foundPath severalBuild.sourceDir (text "a\nb") := by
      decide
    rw [← foundPath_injective (hnewline.symm.trans hpath)] at hline
    exact absurd hline (by decide)
  · exact hscript.mpr ⟨text "disk", isName_disk, by decide⟩

end Additions

/-! ## The image at boot -/

section Boots

variable {b : Build} {files image : Bytes → Option Bytes} {name data passphrase : Bytes} {boot : Boot}
  {m : Machine} {lib : Libraries} {sealing : Sealing}

end Boots

end Khefin.Mkinitcpio
