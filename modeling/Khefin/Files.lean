import Khefin.World

/-! # Reading and writing whole files -/

namespace Khefin
open CLibrary ExitingPrograms

def largestValidPayloadSizeBytes : ℕ := 10485760

structure EncodedFile where
  path : CString
  data : Bytes
  deriving DecidableEq

def sizeofEncodedFile : ℕ := 24

/-- `read_file` on the stored content of its path; `fread` of no bytes reports no item. -/
def readContent (P : Platform) (path : CString) (content : Option Bytes) :
    Except Halt EncodedFile := do
  mallocOrExit P sizeofEncodedFile "encoded file structure"
  match content with
  | none => errx .deserializationError "Unable to open file at %s" [.string path]
  | some data => do
    stopIf (P.reading.fopen = false)
      (.exit .deserializationError ⟨"Unable to open file at %s", [.string path]⟩)
    stopIf (P.reading.fseekEnd = false)
      (.exit .deserializationError ⟨"Unable to seek to end of file at %s", [.string path]⟩)
    stopIf (P.reading.ftell = false)
      (.exit .deserializationError ⟨"Unable to get size of file at %s", [.string path]⟩)
    stopIf (P.reading.fseekSet = false)
      (.exit .deserializationError ⟨"Unable to seek to start of file at %s", [.string path]⟩)
    stopIf (largestValidPayloadSizeBytes < data.length)
      (.exit .deserializationError
        ⟨"File at %s is too big (more than %d bytes); refusing to load it",
          [.string path, .number largestValidPayloadSizeBytes]⟩)
    mallocOrExit P data.length "buffer for reading keyfile"
    stopIf (P.reading.fread = false ∨ data = [])
      (.exit .deserializationError ⟨"Unable to read file at %s into buffer", [.string path]⟩)
    mallocOrExit P (path.length + 1) "encoded file path"
    return { path, data }

def readFile (P : Platform) (path : CString) : Program EncodedFile := do
  let w ← get
  lift (readContent P path (w.files path))

def writeFile (P : Platform) (file : EncodedFile) : Program Unit := do
  lift (stopIf (P.writing.fopen = false)
    (.exit .deserializationError ⟨"Unable to open file at %s", [.string file.path]⟩))
  let stream := Stream.opened
  modify (World.store file.path stream.stored)
  lift (stopIf (P.writing.fseek = false)
    (.exit .deserializationError ⟨"Unable to seek to start of file at %s", [.string file.path]⟩))
  let stream := stream.write file.data P.writing.accepted P.writing.flushed
  modify (World.store file.path stream.stored)
  if P.writing.accepted < file.data.length ∨ file.data = [] then do
    -- exiting flushes the stream as well
    modify (World.store file.path (stream.close P.writing.closeFlushed))
    lift (errx .deserializationError "Unable to write file at %s" [.string file.path])
  else
    modify (World.store file.path (stream.close P.writing.closeFlushed))

theorem largestValidPayloadSizeBytes_lt : largestValidPayloadSizeBytes < ptrdiffMax := by decide

/-! ## Reading -/

/-- Every call of `read_file` on an existing file succeeds. -/
def ReadOutcomes.faithful : ReadOutcomes := {}

theorem readContent_of {P : Platform} {path : CString} {data : Bytes}
    (hr : P.reading = .faithful) (hm : P.Allocates largestValidPayloadSizeBytes)
    (hp : P.malloc (path.length + 1) = true) (hne : data ≠ [])
    (hl : data.length ≤ largestValidPayloadSizeBytes) :
    readContent P path (some data) = .ok { path, data } := by
  have hs := mallocOrExit_of (hm sizeofEncodedFile (by decide)) "encoded file structure"
  have hd := mallocOrExit_of (hm data.length hl) "buffer for reading keyfile"
  have hn := mallocOrExit_of hp "encoded file path"
  simp [readContent, hr, ReadOutcomes.faithful, hs, hd, hn, hne, stopIf, hl.not_gt]

theorem readContent_spec {P : Platform} {path : CString} {content : Option Bytes}
    {f : EncodedFile} (h : readContent P path content = .ok f) :
    content = some f.data ∧ f.path = path ∧ f.data ≠ [] ∧
      f.data.length ≤ largestValidPayloadSizeBytes := by
  simp only [readContent, except_bind_eq_ok, mallocOrExit_eq_ok] at h
  obtain ⟨_, -, h⟩ := h
  cases content with
  | none => simp [errx] at h
  | some data =>
    simp only [except_bind_eq_ok, stopIf_eq_ok, mallocOrExit_eq_ok, except_pure,
      Except.ok.injEq] at h
    obtain ⟨_, -, _, -, _, -, _, -, _, hl, _, -, _, hr, _, -, rfl⟩ := h
    exact ⟨rfl, rfl, fun e => hr (Or.inr e), Nat.le_of_not_lt hl⟩

theorem keeps_readFile {R : World → World → Prop} [IsPreorder World R] (P : Platform)
    (path : CString) : Keeps R (readFile P path) :=
  keeps_bind keeps_get fun w => keeps_lift (readContent P path (w.files path))

theorem keeps_writeFile {R : World → World → Prop} [IsPreorder World R]
    (hstore : ∀ w path content, R w (World.store path content w)) (P : Platform)
    (file : EncodedFile) : Keeps R (writeFile P file) := by
  have hstored : ∀ content, Keeps R (modify (World.store file.path content) : Program Unit) :=
    fun content => keeps_modify fun w => hstore w file.path content
  refine keeps_bind (keeps_lift _) fun _ => keeps_bind (hstored _) fun _ => ?_
  refine keeps_bind (keeps_lift _) fun _ => keeps_bind (hstored _) fun _ => ?_
  exact keeps_ite (fun _ => keeps_bind (hstored _) fun _ => keeps_lift _) fun _ => hstored _

end Khefin
