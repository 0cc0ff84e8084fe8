import Khefin.CommandLines
import Khefin.ReferencePlatform

/-! # Three ways to give a passphrase

An argument is cut at the longest valid passphrase. So is a file, but one without any
bytes is refused. A line of standard input is cut one byte earlier, where `fgets` needs
room for its terminator. -/

namespace Khefin
open CLibrary ExitingPrograms

/-- The arguments are accepted, with this passphrase. -/
def Gives (P : Platform) (argv : List CString) (w : World) (passphrase : CString) : Prop :=
  ∃ invocation w', parseArgumentsAndGetPassphrase P argv w = .ok invocation w' ∧
    invocation.passphrase = some passphrase

/-- As much of a passphrase as is documented to be used. -/
def usedPart (s : CString) : CString := strndup s.bytes longestValidPassphrase

theorem usedPart_bytes (s : CString) : (usedPart s).bytes = s.bytes.take longestValidPassphrase :=
  strndup_bytes s.noNul _

private theorem letter_p : Char.ofNat (lowercase 'p'.toNat) = 'p' := by decide

private theorem letter_r : Char.ofNat (lowercase 'r'.toNat) = 'r' := by decide

section Channels

variable {P : Platform} {w : World} {s : CString} {subcommand : Subcommand}
  {before after : List ReportedOption} {operands : List CString} {result : InvocationState}

theorem supplyDefaults_of_passphrase {passphrase : CString}
    (h : result.passphrase = some passphrase) :
    ∃ invocation, supplyDefaults P result w = .ok invocation w ∧
      invocation.passphrase = some passphrase := by
  by_cases hhard : result.subcommand = .enrol ∧ result.kdfHardness = .unspecified
  · exact ⟨{ result with kdfHardness := automaticHardness P }, by simp [supplyDefaults, hhard, h], h⟩
  · exact ⟨result, by simp [supplyDefaults, hhard, h], h⟩

/-- With an option that gives a passphrase in place, the arguments give that passphrase. -/
theorem gives_of_option (hm : P.malloc sizeofInvocationState = true)
    (hvalid : ValidOptions P w subcommand (before ++ after) operands result) {o : ReportedOption}
    {passphrase : CString}
    (ho : ∀ state, parseOption P state o w = .ok (withPassphrase passphrase state) w)
    {argv : List CString} (h : SplitsInto P argv subcommand (before ++ o :: after) operands) :
    Gives P argv w passphrase := by
  have hparsed := parseOptions_insert hvalid.noPassphrase hvalid.parsed ho
  have hrequired : breaksRequirements (withPassphrase passphrase (result, false)).1 = false := by
    rw [← hvalid.required, withPassphrase]
    unfold breaksRequirements
    rcases hvalid.subcommand with hsub | hsub <;> simp [hsub]
  have hlate := parseArguments_of_parsed hm h hparsed hvalid.subcommand hvalid.operands hrequired
  obtain ⟨invocation, hrun, hp⟩ := supplyDefaults_of_passphrase (P := P) (w := w)
    (show (withPassphrase passphrase (result, false)).1.passphrase = some passphrase from rfl)
  exact ⟨invocation, w, hlate.trans hrun, hp⟩

/-! ## An argument -/

theorem parseOption_passphraseArgument (hm : P.malloc ((usedPart s).length + 1) = true)
    (state : InvocationState × Bool) :
    parseOption P state ⟨'p', s⟩ w = .ok (withPassphrase (usedPart s) state) w := by
  have hdup : strndupOrExit P s.bytes longestValidPassphrase "passphrase in invocation state" =
    .ok (usedPart s) := strndupOrExit_of hm _
  obtain ⟨result, invalid⟩ := state
  have hletter : ReportedOption.letter ⟨'p', s⟩ = 'p' := letter_p
  simp [parseOption, hletter, hdup, withPassphrase]

/-! ## A file -/

theorem parseOption_passphraseFile (hm : P.malloc ((usedPart s).length + 1) = true) {path : CString}
    (hread : readFile P path w = .ok { path, data := s.bytes } w) (state : InvocationState × Bool) :
    parseOption P state ⟨'r', path⟩ w = .ok (withPassphrase (usedPart s) state) w := by
  have hused : strndup s.bytes (if s.bytes.length > longestValidPassphrase then
      longestValidPassphrase else s.bytes.length) = usedPart s := by
    apply CString.ext
    rw [usedPart_bytes, strndup_bytes s.noNul]
    split
    · rfl
    · rw [List.take_of_length_le le_rfl, List.take_of_length_le (not_lt.mp ‹_›)]
  have hdup : strndupOrExit P s.bytes (if s.bytes.length > longestValidPassphrase then
      longestValidPassphrase else s.bytes.length) "passphrase in invocation state" =
    .ok (usedPart s) := by
    rw [← hused] at hm ⊢
    exact strndupOrExit_of hm _
  obtain ⟨result, invalid⟩ := state
  have hletter : ReportedOption.letter ⟨'r', path⟩ = 'r' := letter_r
  simp only [parseOption, hletter]
  rw [bind_of_ok hread]
  simp [hdup, withPassphrase]

/-- An empty file is refused. -/
theorem parseOption_of_unreadable {path : CString} {h : Halt}
    (hread : readFile P path w = .error h w) (state : InvocationState × Bool) :
    parseOption P state ⟨'r', path⟩ w = .error h w := by
  have hletter : ReportedOption.letter ⟨'r', path⟩ = 'r' := letter_r
  simp only [parseOption, hletter]
  exact bind_of_error hread _

theorem readFile_of_stored (hreading : P.reading = .faithful)
    (hmemory : P.Allocates largestValidPayloadSizeBytes) {path : CString}
    (hpath : P.malloc (path.length + 1) = true) {data : Bytes} (hfile : w.files path = some data)
    (hl : data.length ≤ largestValidPayloadSizeBytes) (hne : data ≠ []) :
    readFile P path w = .ok { path, data } w := by
  have hcontent := readContent_of hreading hmemory hpath hne hl
  simp [readFile, bind_apply, hfile, hcontent]

theorem readFile_of_empty (hreading : P.reading = .faithful)
    (hmemory : P.Allocates largestValidPayloadSizeBytes) {path : CString}
    (hfile : w.files path = some []) : ∃ h, readFile P path w = .error h w := by
  have hs := mallocOrExit_of (hmemory sizeofEncodedFile (by decide)) "encoded file structure"
  have hd := mallocOrExit_of (hmemory 0 (by decide)) "buffer for reading keyfile"
  refine ⟨.exit .deserializationError
    ⟨"Unable to read file at %s into buffer", [.string path]⟩, ?_⟩
  simp [readFile, readContent, bind_apply, hfile, hreading, ReadOutcomes.faithful, hs, hd, stopIf]

/-! ## Standard input -/

theorem promptForSecret_of_fgets (hinput : P.standardInput = .notTerminal) {size : ℕ}
    {line rest : Bytes} (h : fgets size w.stdin = some (line, rest)) (description : CString) :
    ∃ w', promptForSecret P description size w = .ok (stripNewline (cString line)) w' := by
  by_cases hline : (cString line).length = 0
  · exact ⟨_, by simp [promptForSecret, hinput, getLine, h, lookAtLastByte, hline, readSecret,
      bind_apply, map_apply]; rfl⟩
  · exact ⟨_, by simp [promptForSecret, hinput, getLine, h, lookAtLastByte, hline, readSecret,
      bind_apply, map_apply]; rfl⟩

/-- The prompt takes what fits in front of the terminator. -/
theorem promptForSecret_of_line (hinput : P.standardInput = .notTerminal) {rest : Bytes}
    (hnewline : newline ∉ s.bytes) (hstdin : w.stdin = s.bytes ++ newline :: rest)
    (description : CString) (size : ℕ) :
    ∃ secret w', promptForSecret P description size w = .ok secret w' ∧
      secret.bytes = s.bytes.take (size - 1) := by
  have hstream : w.stdin ≠ [] := by simp [hstdin]
  by_cases hl : s.bytes.length < size - 1
  · have hread : fgets size w.stdin = some (s.bytes ++ [newline], rest) := by
      rw [fgets, if_neg hstream, hstdin, readLine_of_lt hnewline hl]
    obtain ⟨w', hrun⟩ := promptForSecret_of_fgets hinput hread description
    refine ⟨_, w', hrun, ?_⟩
    rw [stripNewline_append, List.take_of_length_le hl.le]
  · have hread : fgets size w.stdin =
        some (s.bytes.take (size - 1), s.bytes.drop (size - 1) ++ newline :: rest) := by
      rw [fgets, if_neg hstream, hstdin, readLine_of_le hnewline (not_lt.mp hl)]
    have hcut : (cString (s.bytes.take (size - 1))).bytes = s.bytes.take (size - 1) :=
      cString_of_noNul (noNul_take s.noNul _)
    obtain ⟨w', hrun⟩ := promptForSecret_of_fgets hinput hread description
    refine ⟨_, w', hrun, ?_⟩
    rw [stripNewline_of_not_mem, hcut]
    rw [hcut]
    exact fun h => hnewline (List.mem_of_mem_take h)

theorem supplyDefaults_of_prompt (hm : P.malloc (longestValidPassphrase + 1) = true)
    (hsub : result.subcommand = .enrol ∨ result.subcommand = .generate)
    (hnone : result.passphrase = none) {secret : CString} {w' : World}
    (hprompt : promptForSecret P (literal "passphrase") longestValidPassphrase w = .ok secret w') :
    ∃ invocation, supplyDefaults P result w = .ok invocation w' ∧
      invocation.passphrase = some secret := by
  have hmalloc := mallocOrExit_of hm "passphrase"
  by_cases hhard : result.subcommand = .enrol ∧ result.kdfHardness = .unspecified
  · refine ⟨{ result with kdfHardness := automaticHardness P, passphrase := some secret }, ?_, rfl⟩
    simp [supplyDefaults, hhard, hnone, hmalloc, map_apply, hprompt]
  · refine ⟨{ result with passphrase := some secret }, ?_, rfl⟩
    simp [supplyDefaults, hhard, hsub, hnone, hmalloc, map_apply, hprompt]

/-- A line gives all of its bytes but those for which `fgets` has no room. -/
theorem gives_of_line (hm : P.malloc sizeofInvocationState = true)
    (hmalloc : P.malloc (longestValidPassphrase + 1) = true) {options : List ReportedOption}
    (hvalid : ValidOptions P w subcommand options operands result)
    (hinput : P.standardInput = .notTerminal) {rest : Bytes} (hnewline : newline ∉ s.bytes)
    (hstdin : w.stdin = s.bytes ++ newline :: rest) {argv : List CString}
    (h : SplitsInto P argv subcommand options operands) :
    ∃ secret, Gives P argv w secret ∧ secret.bytes = s.bytes.take (longestValidPassphrase - 1) := by
  obtain ⟨secret, w', hprompt, hbytes⟩ := promptForSecret_of_line hinput hnewline hstdin
    (literal "passphrase") longestValidPassphrase
  obtain ⟨invocation, hrun, hp⟩ := supplyDefaults_of_prompt hmalloc hvalid.subcommand
    hvalid.passphrase_eq_none hprompt
  have hparse := parseArguments_of_parsed hm h hvalid.parsed hvalid.subcommand hvalid.operands
    hvalid.required
  exact ⟨secret, ⟨invocation, w', hparse.trans hrun, hp⟩, hbytes⟩

end Channels

theorem Gives.unique {P : Platform} {argv : List CString} {w : World} {p q : CString}
    (hp : Gives P argv w p) (hq : Gives P argv w q) : p = q := by
  obtain ⟨invocation, w', h, hi⟩ := hp
  obtain ⟨invocation', w'', h', hi'⟩ := hq
  obtain ⟨rfl, -⟩ := EStateM.Result.ok.inj (h.symm.trans h')
  exact Option.some.inj (hi.symm.trans hi')

/-- The three ways give the documented part of a passphrase exactly when it has a byte and is
shorter than the longest valid one. -/
theorem channels_agree_iff {P : Platform} {w : World} {subcommand : Subcommand}
    {before after : List ReportedOption} {operands : List CString} {result : InvocationState}
    (hvalid : ValidOptions P w subcommand (before ++ after) operands result)
    (hreading : P.reading = .faithful) (hmemory : P.Allocates largestValidPayloadSizeBytes)
    (hinput : P.standardInput = .notTerminal) {s : CString} (hnewline : newline ∉ s.bytes)
    (hl : s.length ≤ largestValidPayloadSizeBytes) {path : CString}
    (hpath : P.malloc (path.length + 1) = true) (hfile : w.files path = some s.bytes)
    {rest : Bytes} (hstdin : w.stdin = s.bytes ++ newline :: rest)
    {argument file line : List CString}
    (hargument : SplitsInto P argument subcommand (before ++ ⟨'p', s⟩ :: after) operands)
    (hfromFile : SplitsInto P file subcommand (before ++ ⟨'r', path⟩ :: after) operands)
    (hline : SplitsInto P line subcommand (before ++ after) operands) :
    (Gives P argument w (usedPart s) ∧ Gives P file w (usedPart s) ∧ Gives P line w (usedPart s)) ↔
      0 < s.length ∧ s.length < longestValidPassphrase := by
  have hm : P.malloc sizeofInvocationState = true := hmemory _ (by decide)
  have hused : P.malloc ((usedPart s).length + 1) = true := by
    refine hmemory _ ?_
    have hle : (usedPart s).length ≤ longestValidPassphrase := by
      rw [CString.length, usedPart_bytes]
      exact List.length_take_le _ _
    exact (Nat.succ_le_succ hle).trans (by decide)
  obtain ⟨secret, hsecret, hbytes⟩ := gives_of_line hm (hmemory _ (by decide)) hvalid hinput hnewline
    hstdin hline
  constructor
  · rintro ⟨-, hr, hi⟩
    refine ⟨Nat.pos_of_ne_zero fun h0 => ?_, not_le.mp fun hle => ?_⟩
    · have hempty : s.bytes = [] := List.eq_nil_of_length_eq_zero h0
      rw [hempty] at hfile
      obtain ⟨e, hread⟩ := readFile_of_empty hreading hmemory hfile
      have hstop := parseArguments_of_stop hm hfromFile
        (parseOptions_stop hvalid.noPassphrase hvalid.parsed (parseOption_of_unreadable hread))
      obtain ⟨invocation, w', hrun, -⟩ := hr
      simp [hstop] at hrun
    · -- the line was cut one byte too early
      have hcut := congrArg (fun p => p.bytes.length) (hsecret.unique hi)
      simp only [hbytes, usedPart_bytes, List.length_take] at hcut
      simp only [CString.length, longestValidPassphrase] at hcut hle
      omega
  · rintro ⟨hpos, hlt⟩
    have hne : s.bytes ≠ [] := List.ne_nil_of_length_pos hpos
    have hread := readFile_of_stored hreading hmemory hpath hfile hl hne
    refine ⟨?_, ?_, ?_⟩
    · exact gives_of_option hm hvalid (parseOption_passphraseArgument hused) hargument
    · exact gives_of_option hm hvalid (parseOption_passphraseFile hused hread) hfromFile
    · have heq : secret = usedPart s := by
        apply CString.ext
        simp only [CString.length] at hlt
        rw [hbytes, usedPart_bytes, List.take_of_length_le (by omega),
          List.take_of_length_le hlt.le]
      exact heq ▸ hsecret

/-! ## A generation -/

/-- A host that is given no more than the keyfile and, perhaps, a passphrase. -/
def channelHost : Platform :=
  { referenceHost referenceDevice with
    getoptLong := fun argv => match argv with
      | [_, _, _, _, flag, value] => ⟨[⟨'f', literal "keyfile"⟩,
          ⟨if flag = literal "-p" then 'p' else 'r', value⟩], [literal "generate"]⟩
      | _ => ⟨[⟨'f', literal "keyfile"⟩], [literal "generate"]⟩ }

def generateArguments (passphraseArguments : List CString) : List CString :=
  [literal "khefin", literal "generate", literal "-f", literal "keyfile"] ++ passphraseArguments

/-- Every file holds the passphrase, and so does the first line of standard input. -/
def channelWorld (s : CString) : World :=
  ⟨fun _ => some s.bytes, s.bytes ++ [newline], [], []⟩

def generateInvocation : InvocationState where
  subcommand := .generate
  file := some (literal "keyfile")

theorem validOptions_generate (s : CString) :
    ValidOptions channelHost (channelWorld s) .generate [⟨'f', literal "keyfile"⟩]
      [literal "generate"] generateInvocation where
  noPassphrase := by
    intro o ho
    rw [List.mem_singleton.mp ho]
    exact ⟨by decide, by decide⟩
  parsed := rfl
  subcommand := Or.inr rfl
  operands := rfl
  required := rfl

theorem splitsInto_argument (s : CString) :
    SplitsInto channelHost (generateArguments [literal "-p", s]) .generate
      ([⟨'f', literal "keyfile"⟩] ++ ⟨'p', s⟩ :: []) [literal "generate"] :=
  ⟨⟨_, _, _, rfl, by rfl⟩, rfl⟩

theorem splitsInto_file (path : CString) :
    SplitsInto channelHost (generateArguments [literal "-r", path]) .generate
      ([⟨'f', literal "keyfile"⟩] ++ ⟨'r', path⟩ :: []) [literal "generate"] :=
  ⟨⟨_, _, _, rfl, by rfl⟩, rfl⟩

theorem splitsInto_line :
    SplitsInto channelHost (generateArguments []) .generate
      ([⟨'f', literal "keyfile"⟩] ++ []) [literal "generate"] :=
  ⟨⟨_, _, _, rfl, by rfl⟩, rfl⟩

theorem channelHost_allocates : channelHost.Allocates largestValidPayloadSizeBytes :=
  referencePlatform_allocates_payload referenceBox.sodium referenceDevice

theorem channels_agree_short :
    Gives channelHost (generateArguments [literal "-p", literal "correct horse"])
      (channelWorld (literal "correct horse")) (usedPart (literal "correct horse")) ∧
    Gives channelHost (generateArguments [literal "-r", literal "passphrase"])
      (channelWorld (literal "correct horse")) (usedPart (literal "correct horse")) ∧
    Gives channelHost (generateArguments [])
      (channelWorld (literal "correct horse")) (usedPart (literal "correct horse")) := by
  have hpath : (literal "passphrase").length + 1 ≤ largestValidPayloadSizeBytes := by decide
  exact (channels_agree_iff (validOptions_generate _) rfl
    channelHost_allocates rfl (by decide) (by decide)
    (channelHost_allocates _ hpath) rfl rfl (splitsInto_argument _) (splitsInto_file _)
    splitsInto_line).mpr ⟨by decide, by decide⟩

/-- A passphrase of the greatest length. -/
def longPassphrase : CString :=
  ⟨List.replicate longestValidPassphrase 0x61, fun h => absurd (List.eq_of_mem_replicate h) (by decide)⟩

/-- Its last byte is lost on standard input alone. -/
theorem channels_disagree_long :
    Gives channelHost (generateArguments [literal "-p", longPassphrase])
      (channelWorld longPassphrase) (usedPart longPassphrase) ∧
    Gives channelHost (generateArguments [literal "-r", literal "passphrase"])
      (channelWorld longPassphrase) (usedPart longPassphrase) ∧
    ¬Gives channelHost (generateArguments []) (channelWorld longPassphrase)
      (usedPart longPassphrase) := by
  have hm := channelHost_allocates
  have hlength : longPassphrase.bytes.length = longestValidPassphrase := List.length_replicate
  have hused : (usedPart longPassphrase).bytes = longPassphrase.bytes := by
    rw [usedPart_bytes, List.take_of_length_le hlength.le]
  have hmalloc : channelHost.malloc ((usedPart longPassphrase).length + 1) = true := by
    rw [CString.length, hused, hlength]
    exact hm _ (by decide)
  have hnewline : newline ∉ longPassphrase.bytes :=
    fun h => absurd (List.eq_of_mem_replicate h) (by decide)
  have hvalid := validOptions_generate longPassphrase
  refine ⟨?_, ?_, fun h => ?_⟩
  · exact gives_of_option (hm _ (by decide)) hvalid (parseOption_passphraseArgument hmalloc)
      (splitsInto_argument _)
  · have hpath : (literal "passphrase").length + 1 ≤ largestValidPayloadSizeBytes := by decide
    have hread := readFile_of_stored (P := channelHost) (w := channelWorld longPassphrase) rfl
      hm (hm _ hpath) rfl (by rw [hlength]; decide)
      (List.ne_nil_of_length_pos (by rw [hlength]; decide))
    exact gives_of_option (hm _ (by decide)) hvalid (parseOption_passphraseFile hmalloc hread)
      (splitsInto_file _)
  · obtain ⟨secret, hsecret, hbytes⟩ := gives_of_line (hm _ (by decide)) (hm _ (by decide)) hvalid
      rfl hnewline rfl splitsInto_line
    have hcut := congrArg (fun p => p.bytes.length) (hsecret.unique h)
    simp only [hbytes, hused, List.length_take, hlength] at hcut
    exact absurd hcut (by decide)

end Khefin
