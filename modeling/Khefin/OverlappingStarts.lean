import Khefin.CborPrefixes
import Khefin.VaultHistories
import Mathlib.Data.List.TakeDrop

/-! # Starts that overlap

A keyfile is emptied before it is written. Other starts may come across it meanwhile, and the
enrolment may be killed, or lose what its stream still holds, before all of it is stored. What is
there then is the beginning of a keyfile, which opens for nobody. -/

namespace Khefin
open CLibrary ExitingPrograms Registers Simulations

/-! ## What happens to the files -/

/-- The file that an enrolment opens for writing, as it is to be, and the sealing it is for. -/
def Launch.opens (l : Launch) : Option (EncodedFile × Sealing) :=
  match l.parsed with
  | none => none
  | some (invocation, w) =>
    if invocation.subcommand = .enrol ∧ l.platform.writing.fopen = true then
      enrolled l.platform invocation w
    else none

/-- The files, and for each that is open for writing, all that is to be stored there. -/
structure Disk where
  files : CString → Option Bytes
  writing : CString → Option Bytes

inductive Occurrence
  /-- A start finds the files as they are, and opens none for writing. -/
  | start (l : Launch)
  /-- An enrolment that was started before, whatever it found then, opens its file. -/
  | opening (l : Launch)
  /-- So many bytes have got to a file that is open. -/
  | storing (path : CString) (stored : ℕ)
  /-- The enrolment closes its file, or is killed. -/
  | closing (path : CString)

namespace Disk

/-- No file is open for writing. -/
def idle (files : CString → Option Bytes) : Disk := ⟨files, fun _ => none⟩

/-- The file has been emptied, and is open for writing. -/
def opened (d : Disk) (f : EncodedFile) : Disk where
  files := Function.update d.files f.path (some [])
  writing := Function.update d.writing f.path (some f.data)

def stored (d : Disk) (path : CString) (content : Bytes) : Disk :=
  { d with files := Function.update d.files path (some content) }

def closed (d : Disk) (path : CString) : Disk :=
  { d with writing := Function.update d.writing path none }

@[simp] theorem files_opened (d : Disk) (f : EncodedFile) : (d.opened f).files f.path = some [] :=
  Function.update_self _ _ _

@[simp] theorem writing_opened (d : Disk) (f : EncodedFile) :
    (d.opened f).writing f.path = some f.data := Function.update_self _ _ _

/-- One enrolment at a time writes a file. -/
inductive Step (lib : Libraries) (d : Disk) : Occurrence → Disk → Prop
  | start {l : Launch} (libraries : l.platform.Has lib) (found : l.files = d.files)
      (opens : l.opens = none) : Step lib d (.start l) { d with files := l.filesAfter }
  | opening {l : Launch} {f : EncodedFile} {s : Sealing} (libraries : l.platform.Has lib)
      (opens : l.opens = some (f, s)) (free : d.writing f.path = none) :
      Step lib d (.opening l) (d.opened f)
  | storing {path : CString} {whole : Bytes} {less more : ℕ}
      (writing : d.writing path = some whole) (before : d.files path = some (whole.take less))
      (grows : less ≤ more) :
      Step lib d (.storing path more) (d.stored path (whole.take more))
  | closing {path : CString} : Step lib d (.closing path) (d.closed path)

end Disk

/-- An enrolment counts as soon as it has opened its file. -/
def Occurrence.deed : Occurrence → Deed CString Sealing Use
  | .start l =>
    match l.parsed with
    | none => .other
    | some (invocation, _) =>
      if invocation.subcommand = .generate then useOf invocation l.result else .other
  | .opening l =>
    match l.opens with
    | none => .other
    | some (f, s) => if f.data.length < sizeModulus then .write f.path s else .lose f.path
  | .storing _ _ | .closing _ => .other

/-- An enrolment writes this for the sealing. -/
def Seals (lib : Libraries) (whole : Bytes) (s : Sealing) : Prop :=
  whole.length < sizeModulus ∧ ∃ (P : Platform) (invocation : InvocationState)
    (run : EnrolRun P invocation), P.Has lib ∧ run.file.data = whole ∧ run.sealing = s

/-- Where a sealing was written last, there is the beginning of its keyfile, and nothing else is
being written there. -/
structure Disk.Begins (lib : Libraries) (d : Disk) (path : CString) (s : Sealing) : Prop where
  stored : ∃ data whole, d.files path = some data ∧ data <+: whole ∧ Seals lib whole s
  writing : ∀ whole, d.writing path = some whole → Seals lib whole s

def Disk.Represents (lib : Libraries) (d : Disk) (held : CString → Option Sealing) : Prop :=
  ∀ path s, held path = some s → d.Begins lib path s

/-! ## What is left of a keyfile -/

theorem written_prefix (writing : WriteOutcomes) (data : Bytes) :
    writing.written data <+: data := by
  have hstored : writing.written data =
      (data.take writing.accepted).take (writing.flushed + writing.closeFlushed) := by
    simp only [WriteOutcomes.written, Stream.opened, Stream.write, Stream.close, List.nil_append,
      List.take_add]
  rw [hstored]
  exact (List.take_prefix _ _).trans (List.take_prefix _ _)

/-- However writing a file ends, once it is open it holds the beginning of the data. -/
theorem exists_prefix_of_writeFile {P : Platform} (hopen : P.writing.fopen = true) (f : EncodedFile)
    (w : World) : ∃ data, (finalState (writeFile P f w)).files f.path = some data ∧
      data <+: f.data := by
  rcases writeFile_cases P f w with ⟨hclosed, -⟩ | ⟨-, -, m, hw⟩ | ⟨-, -, -, m, hw⟩ | ⟨-, -, -, hw⟩
  · exact absurd hopen (by simp [hclosed])
  · exact ⟨[], by simp [hw, World.store], List.nil_prefix⟩
  · exact ⟨_, by simp [hw, World.store], written_prefix P.writing f.data⟩
  · exact ⟨_, by simp [hw, World.store], written_prefix P.writing f.data⟩

theorem files_writeFile_of_closed {P : Platform} (hclosed : P.writing.fopen = false)
    (f : EncodedFile) (w : World) : (finalState (writeFile P f w)).files = w.files := by
  rcases writeFile_cases P f w with ⟨-, m, hw⟩ | ⟨hopen, -⟩ | ⟨hopen, -⟩ | ⟨hopen, -⟩
  · rw [hw]
    rfl
  all_goals simp [hclosed] at hopen

section Launches

variable {l : Launch} {f : EncodedFile} {s : Sealing}

theorem Launch.opens_eq_some (h : l.opens = some (f, s)) : ∃ invocation w,
    l.Runs .enrol invocation w ∧ l.platform.writing.fopen = true ∧
      ∃ run : EnrolRun l.platform invocation, run.start = w ∧ run.file = f ∧ run.sealing = s := by
  unfold Launch.opens at h
  split at h
  · cases h
  · next invocation w hparsed =>
    split at h
    · next hopens => exact ⟨invocation, w, ⟨hparsed, hopens.1⟩, hopens.2, enrolled_eq_some h⟩
    · cases h

theorem Launch.filesAfter_of_opens (h : l.opens = some (f, s)) :
    (∃ data, l.filesAfter f.path = some data ∧ data <+: f.data) ∧
      ∀ p ≠ f.path, l.filesAfter p = l.files p := by
  obtain ⟨invocation, w, hruns, hopen, run, rfl, rfl, -⟩ := Launch.opens_eq_some h
  rw [Launch.filesAfter_of_enrol hruns.1 hruns.2, run.enrolDevice_eq]
  refine ⟨exists_prefix_of_writeFile hopen run.file run.finish, fun p hp => ?_⟩
  rw [files_writeFile _ _ _ hp, run.quietly.1]
  exact congrFun (Launch.files_eq hruns.1) p

/-- A start that opens no file for writing changes none. -/
theorem Launch.filesAfter_of_not_opens (h : l.opens = none) : l.filesAfter = l.files := by
  by_cases henrol : ∃ invocation w, l.Runs .enrol invocation w
  · obtain ⟨invocation, w, hparsed, hsub⟩ := henrol
    rw [Launch.filesAfter_of_enrol hparsed hsub, ← Launch.files_eq hparsed]
    simp only [Launch.opens, hparsed, hsub, true_and] at h
    split at h
    · exact sameFiles_of_not_enrolled h
    · next hclosed =>
      rw [Bool.not_eq_true] at hclosed
      rcases enrolDevice_cases l.platform invocation w with ⟨e, w', he, hquiet⟩ | ⟨run, rfl, he⟩
      · rw [he]
        exact hquiet.1
      · rw [he, files_writeFile_of_closed hclosed]
        exact run.quietly.1
  · exact Launch.filesAfter_of_not_enrol fun invocation w hparsed hsub =>
      henrol ⟨invocation, w, hparsed, hsub⟩

end Launches

/-! ## Reading it -/

section Reading

variable {lib : Libraries} {d : Disk} {path : CString} {s : Sealing}

/-- Whoever loads the beginning of a keyfile has all of it. -/
theorem EnrolRun.data_eq_of_load {Q P : Platform} {invocation : InvocationState}
    (run : EnrolRun Q invocation) (hf : Q.cbor.FollowsFormat) (hf' : P.cbor.FollowsFormat)
    (hlength : run.file.data.length < sizeModulus) {data : Bytes}
    (hbegin : data <+: run.file.data) {path : CString} {c : DeserializedCleartext}
    (h : loadCleartext P { path, data } = .ok c) : data = run.file.data := by
  obtain ⟨⟨definite, r, hdecode⟩, -⟩ := (loadCleartext_eq_ok hf').mp h
  have hencodable := encodable_serializeCleartextToCborV1.mpr (run.keyfile_sized hf hlength)
  rw [run.data_eq hf] at hbegin ⊢
  exact Cbor.decode_of_prefix hencodable hbegin (by simp [hdecode])

theorem Seals.holds (hlib : lib.Ideal) {P : Platform} (hP : P.Has lib) {whole data : Bytes}
    (h : Seals lib whole s) (hbegin : data <+: whole)
    (hsize : data.length ≤ largestValidPayloadSizeBytes) {c : DeserializedCleartext}
    (hload : loadCleartext P { path, data } = .ok c) : data = whole ∧ Holds lib data s := by
  obtain ⟨hlength, Q, invocation, run, hQ, rfl, hsealing⟩ := h
  have hdata := run.data_eq_of_load (hQ.cbor ▸ hlib.followsFormat) (hP.cbor ▸ hlib.followsFormat)
    hlength hbegin hload
  exact ⟨hdata, hsize, Q, invocation, run, hQ, hdata.symm, hsealing⟩

theorem Disk.Begins.fits_of_openKeyfile (hlib : lib.Ideal) {P : Platform} (hP : P.Has lib)
    {invocation : InvocationState} {w w' : World} (hfile : invocation.file = some path)
    (hfiles : w.files = d.files) (h : d.Begins lib path s) {c : DeserializedCleartext}
    {params : AuthenticatorParameters} (hopen : openKeyfile P invocation w = .ok (c, params) w') :
    ∃ passphrase, invocation.passphrase = some passphrase ∧ s.Fits lib.sodium
      ⟨passphrase, invocation.mixin, params.assertionRequest.challenge⟩ := by
  obtain ⟨data, whole, hdata, hbegin, hseals⟩ := h.stored
  rw [← hfiles] at hdata
  obtain ⟨path', data', _, _, _, hfile', hdata', hsize, -, hload, -⟩ := openKeyfile_spec hopen
  obtain rfl := Option.some.inj (hfile.symm.trans hfile')
  obtain rfl := Option.some.inj (hdata.symm.trans hdata')
  obtain ⟨-, hholds⟩ := hseals.holds hlib hP hbegin hsize hload
  exact Khefin.fits_of_openKeyfile hlib hP hfile hdata hholds hopen

end Reading

/-! ## The simulation -/

section Simulation

variable {lib : Libraries} {d d' : Disk} {held : CString → Option Sealing} {path : CString}
  {s : Sealing} {l : Launch} {f : EncodedFile}

theorem Disk.Begins.congr (h : d.Begins lib path s) (hfiles : d'.files path = d.files path)
    (hwriting : d'.writing path = d.writing path) : d'.Begins lib path s :=
  ⟨hfiles ▸ h.stored, hwriting ▸ h.writing⟩

end Simulation

/-! ## Starts one after the other -/

section Sequences

variable {lib : Libraries} {files files' : CString → Option Bytes} {l : Launch}

/-- The first bytes get to a file that has been emptied. -/
theorem Disk.Step.first (lib : Libraries) (d : Disk) (f : EncodedFile) (n : ℕ) :
    Disk.Step lib (d.opened f) (.storing f.path n)
      ((d.opened f).stored f.path (f.data.take n)) := by
  have hbefore : (d.opened f).files f.path = some (f.data.take 0) := d.files_opened f
  exact .storing (d.writing_opened f) hbefore (Nat.zero_le n)

theorem Disk.closed_stored_opened {d : Disk} {f : EncodedFile} (hfree : d.writing f.path = none)
    {content : Bytes} : ((d.opened f).stored f.path content).closed f.path =
      d.stored f.path content := by
  simp only [opened, stored, closed, Function.update_idem, mk.injEq, true_and]
  rw [← hfree, Function.update_eq_self]

/-- A start on its own is one way for things to happen. -/
theorem exists_occurrences_of_step (h : Launch.Step lib files l files') :
    ∃ es, Run (Disk.Step lib) (Disk.idle files) es (Disk.idle files') := by
  obtain ⟨hP, rfl, rfl⟩ := h
  cases hopens : l.opens with
  | none => exact ⟨[.start l], .cons (.start hP rfl hopens) (.nil _)⟩
  | some fs =>
    obtain ⟨f, s⟩ := fs
    obtain ⟨⟨data, hdata, hbegin⟩, hother⟩ := Launch.filesAfter_of_opens hopens
    have htake : f.data.take data.length = data := (List.prefix_iff_eq_take.mp hbegin).symm
    have hend : (((Disk.idle l.files).opened f).stored f.path data).closed f.path =
        Disk.idle l.filesAfter := by
      rw [Disk.closed_stored_opened rfl, Disk.stored, Disk.idle, Disk.idle, Disk.mk.injEq]
      refine ⟨funext fun p => ?_, rfl⟩
      by_cases hp : p = f.path
      · rw [hp, Function.update_self, hdata]
      · rw [Function.update_of_ne hp, hother p hp]
    refine ⟨[.opening l, .storing f.path data.length, .closing f.path], ?_⟩
    have hstoring := Disk.Step.first lib (Disk.idle l.files) f data.length
    rw [htake] at hstoring
    rw [← hend]
    exact .cons (.opening hP hopens rfl) (.cons hstoring (.cons .closing (.nil _)))

/-- What happens when each start waits for the one before it is one way for things to happen. -/
theorem exists_occurrences {starts : List Launch}
    (hrun : Run (Launch.Step lib) files starts files') :
    ∃ es, Run (Disk.Step lib) (Disk.idle files) es (Disk.idle files') := by
  induction hrun with
  | nil files => exact ⟨[], .nil _⟩
  | cons first rest ih =>
    obtain ⟨es, hes⟩ := exists_occurrences_of_step first
    obtain ⟨es', hes'⟩ := ih
    exact ⟨es ++ es', run_append_iff.mpr ⟨_, hes, hes'⟩⟩

end Sequences

/-! ## A generation that comes too early -/

section Histories

variable {lib : Libraries} {d d' : Disk} {path : CString} {whole : Bytes} {es : List Occurrence}

/-- The file holds the beginning of these bytes, and nothing else is being written there. -/
structure Disk.Holding (d : Disk) (path : CString) (whole : Bytes) : Prop where
  stored : ∃ data, d.files path = some data ∧ data <+: whole
  writing : ∀ data, d.writing path = some data → data = whole

/-- All of the bytes have got to the file. -/
def StoresAll (path : CString) (whole : Bytes) (es : List Occurrence) : Prop :=
  ∃ n, whole.length ≤ n ∧ .storing path n ∈ es

theorem storesAll_cons {e : Occurrence} : StoresAll path whole (e :: es) ↔
    StoresAll path whole [e] ∨ StoresAll path whole es := by
  simp only [StoresAll, List.mem_cons, List.not_mem_nil, or_false, and_or_left, exists_or]

theorem Disk.Holding.of_same {e : Occurrence} (h : d.Holding path whole)
    (hfiles : d'.files path = d.files path) (hwriting : d'.writing path = d.writing path)
    (he : ¬StoresAll path whole [e]) : d'.Holding path whole ∧
      (d'.files path = some whole ↔ d.files path = some whole ∨ StoresAll path whole [e]) :=
  ⟨⟨hfiles ▸ h.stored, hwriting ▸ h.writing⟩, by rw [hfiles, or_iff_left he]⟩

theorem Disk.Holding.step {e : Occurrence} (h : d.Holding path whole) (hstep : Disk.Step lib d e d')
    (hkept : ¬e.deed.Changes path) : d'.Holding path whole ∧
      (d'.files path = some whole ↔ d.files path = some whole ∨ StoresAll path whole [e]) := by
  cases hstep with
  | start hP hfound hopens =>
    refine h.of_same ?_ rfl (by simp [StoresAll])
    rw [Launch.filesAfter_of_not_opens hopens, hfound]
  | @opening l f s hP hopens hfree =>
    have hother : path ≠ f.path := by
      rintro rfl
      by_cases hlength : f.data.length < sizeModulus
      · simp [Occurrence.deed, hopens, hlength, Deed.Changes] at hkept
      · simp [Occurrence.deed, hopens, hlength, Deed.Changes] at hkept
    exact h.of_same (Function.update_of_ne hother _ _) (Function.update_of_ne hother _ _)
      (by simp [StoresAll])
  | @storing p whole' less more hwriting hbefore hgrows =>
    by_cases hp : p = path
    · subst hp
      obtain rfl := h.writing whole' hwriting
      have hnow : (d.stored p (whole'.take more)).files p = some (whole'.take more) :=
        Function.update_self _ _ _
      refine ⟨⟨⟨_, hnow, List.take_prefix _ _⟩, h.writing⟩, ?_⟩
      -- what was stored stays so, because a file that is open only grows
      rw [hnow, hbefore, Option.some.injEq, Option.some.injEq, List.take_eq_self_iff,
        List.take_eq_self_iff]
      simp only [StoresAll, List.mem_singleton, Occurrence.storing.injEq, true_and,
        exists_eq_right]
      omega
    · exact h.of_same (Function.update_of_ne (Ne.symm hp) _ _) rfl
        (by simp [StoresAll, Ne.symm hp])
  | @closing p =>
    refine ⟨⟨h.stored, fun data hdata => ?_⟩, by simp [StoresAll, Disk.closed]⟩
    by_cases hp : path = p
    · subst hp
      simp [Disk.closed] at hdata
    · exact h.writing data ((Function.update_of_ne hp _ _).symm.trans hdata)

/-- Until another enrolment opens the file, all of it is there as soon as all of it was stored. -/
theorem Disk.Holding.run (h : d.Holding path whole) (hrun : Run (Disk.Step lib) d es d')
    (hkept : ∀ e ∈ es, ¬e.deed.Changes path) : d'.Holding path whole ∧
      (d'.files path = some whole ↔ d.files path = some whole ∨ StoresAll path whole es) := by
  induction hrun with
  | nil d => exact ⟨h, by simp [StoresAll]⟩
  | cons first rest ih =>
    obtain ⟨hnext, hfirst⟩ := h.step first (hkept _ List.mem_cons_self)
    obtain ⟨hlast, hrest⟩ := ih hnext fun e he => hkept e (List.mem_cons_of_mem _ he)
    exact ⟨hlast, by rw [hrest, hfirst, or_assoc, ← storesAll_cons]⟩

variable {passphrase : CString} {mixin : Option CString} {l₀ l : Launch} {f : EncodedFile}
  {s : Sealing} {challenge : Challenge} {secret : Bytes}

end Histories

end Khefin
