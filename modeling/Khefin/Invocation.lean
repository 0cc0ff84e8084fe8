import Khefin.Files

/-! # The command line

`getopt_long` has split the argument vector before the parser sees it; the parser
folds over the options reported, checks them against the subcommand and supplies
the KDF hardness and the passphrase where none was given. -/

namespace Khefin
open CLibrary ExitingPrograms

def longestValidPassphrase : ℕ := 1024
def longestValidPin : ℕ := 255

inductive Subcommand | unknown | help | version | enrol | generate | enumerate
  deriving DecidableEq, Repr

inductive KdfHardness | invalid | unspecified | low | medium | high
  deriving DecidableEq, Repr

structure InvocationState where
  subcommand : Subcommand
  device : Option CString := none
  file : Option CString := none
  passphrase : Option CString := none
  authenticatorPin : Option CString := none
  obfuscateDeviceInfo : Bool := false
  kdfHardness : KdfHardness := .unspecified
  mixin : Option CString := none
  deriving DecidableEq

def sizeofInvocationState : ℕ := 56

/-! ## Usage -/

/-- The name behind the last slash of a path, unless the path ends there. -/
def programBasename (name : CString) : CString :=
  let base := name.bytes.reverse.takeWhile (· != 0x2f)
  if base = [] then name else cString base.reverse

def usage (name : CString) : Bytes :=
  let name := (programBasename name).bytes
  let margin := List.replicate (max name.length 1) 0x20
  (literal "Usage: ").bytes ++ name ++ (literal " help\n       ").bytes ++ name ++
    (literal " version\n       ").bytes ++ name ++ (literal " enumerate\n       ").bytes ++ name ++
    (literal " generate -f <file> [-p <passphrase> | -r <passphrase-file>]\n       ").bytes ++
    margin ++ (literal "          [-n <pin>] [-m <data>]\n       ").bytes ++ name ++
    (literal " enrol -d <device> -f <file> [-p <passphrase> | -r <passphrase-file>]\n").bytes ++
    (literal "       ").bytes ++ margin ++ (literal "       [-n <pin>] [-o] [-k <hardness>]\n").bytes

/-- `print_usage` followed by `exit(EXIT_BAD_INVOCATION)`. -/
def usageAndExit {α : Type} (name : CString) : Program α := do
  modify (World.printf (usage name))
  throw (.exit .badInvocation ⟨"", []⟩)

/-! ## Prompting -/

/-- What `fgets` left in the buffer, without a trailing newline. -/
def readSecret (line : Bytes) : Program CString := do
  record (.secretEntered (stripNewline (cString line)))
  return stripNewline (cString line)

def unableToGet (format : String) (description : CString) : Halt :=
  .exit .unableToGetUserSecret ⟨format, [.string description]⟩

/-- `fgets` on standard input, at most `maximumSize - 1` bytes of it. -/
def getLine (description : CString) (maximumSize : ℕ) : Program Bytes := do
  let w ← get
  match fgets maximumSize w.stdin with
  | none => throw (unableToGet "Unable to get %s on STDIN: fgets error 0x%02x" description)
  | some (line, rest) => do
    modify (World.leave rest)
    return line

/-- The index of the last byte is computed without looking whether there is one. -/
def lookAtLastByte (line : Bytes) : Program Unit :=
  if (cString line).length = 0 then record (.outOfBounds "result[strlen(result) - 1]") else pure ()

def promptForSecret (P : Platform) (description : CString) (maximumSize : ℕ) :
    Program CString := do
  record (.promptForSecret description)
  match P.standardInput with
  | .terminal tcgetattr tcsetattr tcsetattrBack => do
    lift (stopIf (tcgetattr = false) (unableToGet "Unable to get %s" description))
    lift (stopIf (tcsetattr = false) (unableToGet "Unable to get %s" description))
    let line ← getLine description maximumSize
    lift (stopIf (tcsetattrBack = false)
      (unableToGet "Unable to reset terminal after getting %s" description))
    readSecret line
  | .notTerminal => do
    let line ← getLine description maximumSize
    lookAtLastByte line
    readSecret line
  | .unusable => throw (unableToGet "Unable to get %s" description)

section Prompts

variable {R : World → World → Prop} [IsPreorder World R] (hR : Tolerates Event.IsPrompt R)

theorem keeps_getLine (hleave : ∀ w rest, R w (World.leave rest w)) (description : CString)
    (maximumSize : ℕ) : Keeps R (getLine description maximumSize) := by
  refine keeps_bind keeps_get fun w => ?_
  split
  · exact keeps_throw _
  · exact keeps_bind (keeps_modify fun w => hleave w _) fun _ => keeps_pure _

include hR

theorem keeps_lookAtLastByte (line : Bytes) : Keeps R (lookAtLastByte line) :=
  keeps_ite (fun _ => keeps_record hR trivial) fun _ => keeps_pure _

theorem keeps_readSecret (line : Bytes) : Keeps R (readSecret line) :=
  keeps_bind (keeps_record hR trivial) fun _ => keeps_pure _

theorem keeps_promptForSecret (hleave : ∀ w rest, R w (World.leave rest w)) (P : Platform)
    (description : CString) (maximumSize : ℕ) :
    Keeps R (promptForSecret P description maximumSize) := by
  refine keeps_bind (keeps_record hR trivial) fun _ => ?_
  split
  · refine keeps_bind (keeps_lift _) fun _ => keeps_bind (keeps_lift _) fun _ => ?_
    refine keeps_bind (keeps_getLine hleave _ _) fun line => ?_
    exact keeps_bind (keeps_lift _) fun _ => keeps_readSecret hR line
  · refine keeps_bind (keeps_getLine hleave _ _) fun line => ?_
    exact keeps_bind (keeps_lookAtLastByte hR line) fun _ => keeps_readSecret hR line
  · exact keeps_throw _

end Prompts

theorem idly_promptForSecret (P : Platform) (description : CString) (maximumSize : ℕ) :
    Keeps Idly (promptForSecret P description maximumSize) := by
  have hidle : Tolerates Event.IsPrompt Idly := tolerates_silently fun e he => by
    cases e <;> trivial
  exact keeps_promptForSecret hidle (fun w rest => silently_leave rest w) P description maximumSize

/-- Asking for a secret stops in one way only. -/
theorem stopsIn_promptForSecret {S : Halt → Prop} {P : Platform} {description : CString}
    (hget : ∀ format, S (unableToGet format description)) (maximumSize : ℕ) :
    StopsIn S (promptForSecret P description maximumSize) := by
  have hline : StopsIn S (getLine description maximumSize) := by
    refine stopsIn_bind stopsIn_get fun w _ _ _ => ?_
    split
    · exact stopsIn_throw (hget _)
    · exact stopsIn_bind (stopsIn_modify _) fun _ _ _ _ => stopsIn_pure _
  have hread : ∀ line, StopsIn S (readSecret line) := fun line =>
    stopsIn_bind (stopsIn_modify _) fun _ _ _ _ => stopsIn_pure _
  have hstop : ∀ (c : Prop) [Decidable c] format,
      StopsIn S (lift (stopIf c (unableToGet format description)) : Program Unit) :=
    fun _ _ format => stopsIn_lift (failsIn_stopIf fun _ => hget format)
  refine stopsIn_bind (stopsIn_modify _) fun _ _ _ _ => ?_
  split
  · refine stopsIn_bind (hstop _ _) fun _ _ _ _ => stopsIn_bind (hstop _ _) fun _ _ _ _ => ?_
    refine stopsIn_bind hline fun line _ _ _ => ?_
    exact stopsIn_bind (hstop _ _) fun _ _ _ _ => hread line
  · refine stopsIn_bind hline fun line _ _ _ => stopsIn_bind ?_ fun _ _ _ _ => hread line
    exact stopsIn_ite (fun _ => stopsIn_modify _) fun _ => stopsIn_pure _
  · exact stopsIn_throw (hget _)

/-! ## Options -/

def lowercase (c : ℕ) : ℕ := c ||| 0x20

/-- The letter an option is recognised by. -/
def ReportedOption.letter (o : ReportedOption) : Char := Char.ofNat (lowercase o.c.toNat)

/-- Recognised by its first letter; the terminator stands in for an empty value. -/
def hardnessOf (optarg : CString) : KdfHardness :=
  match Char.ofNat (lowercase (optarg.bytes.headD 0).toNat) with
  | 'l' => .low
  | 'm' => .medium
  | 'h' => .high
  | _ => .invalid

/-- One turn of the option loop, on the invocation and `invalid_invocation`. -/
def parseOption (P : Platform) (state : InvocationState × Bool) (o : ReportedOption) :
    Program (InvocationState × Bool) :=
  let (result, invalid) := state
  match o.letter with
  | 'd' => do
    let device ← lift (strdupOrExit P o.optarg "device path in invocation state")
    return ({ result with device := some device }, invalid)
  | 'f' => do
    let file ← lift (strdupOrExit P o.optarg "file path in invocation state")
    return ({ result with file := some file }, invalid)
  | 'p' => do
    let passphrase ← lift (strndupOrExit P o.optarg.bytes longestValidPassphrase
      "passphrase in invocation state")
    return ({ result with passphrase := some passphrase }, invalid)
  | 'r' => do
    let f ← readFile P o.optarg
    let passphrase ← lift (strndupOrExit P f.data
      (if f.data.length > longestValidPassphrase then longestValidPassphrase else f.data.length)
      "passphrase in invocation state")
    return ({ result with passphrase := some passphrase }, invalid)
  | 'n' => do
    let pin ← lift (strndupOrExit P o.optarg.bytes longestValidPin
      "authenticator PIN in invocation state")
    return ({ result with authenticatorPin := some pin }, invalid)
  | 'm' => do
    let mixin ← lift (strdupOrExit P o.optarg "mixin data in invocation state")
    return ({ result with mixin := some mixin }, invalid)
  | 'k' => return ({ result with kdfHardness := hardnessOf o.optarg }, invalid)
  | 'o' => return ({ result with obfuscateDeviceInfo := true }, invalid)
  | 'h' => return ({ result with subcommand := .help }, invalid)
  | _ => return (result, true)

def parseOptions (P : Platform) :
    List ReportedOption → InvocationState × Bool → Program (InvocationState × Bool)
  | [], state => return state
  | o :: options, state => do
    let state ← parseOption P state o
    parseOptions P options state

/-! ## Validation -/

def subcommandOf (name : CString) : Option Subcommand :=
  if name = literal "help" then some .help
  else if name = literal "version" then some .version
  else if name = literal "enrol" then some .enrol
  else if name = literal "generate" then some .generate
  else if name = literal "enumerate" then some .enumerate
  else none

/-- The check for a subcommand behind the options, for an invocation without one. -/
def lateSubcommand (result : InvocationState) (operands : List CString) : InvocationState :=
  match result.subcommand, operands with
  | .unknown, name :: _ =>
    if name = literal "help" then { result with subcommand := .help }
    else if name = literal "enrol" then { result with subcommand := .enrol }
    else if name = literal "generate" then { result with subcommand := .generate }
    else result
  | _, _ => result

/-- The operands that are not the subcommand. -/
def extraArguments (result : InvocationState) (operands : List CString) : List CString :=
  operands.drop (if result.subcommand = .unknown then 0 else 1)

def breaksRequirements (result : InvocationState) : Bool :=
  match result.subcommand with
  | .enrol =>
    result.device.isNone || result.file.isNone || result.mixin.isSome ||
      result.kdfHardness == .invalid
  | .generate =>
    result.device.isSome || result.file.isNone || result.obfuscateDeviceInfo ||
      result.kdfHardness != .unspecified
  | _ =>
    result.device.isSome || result.file.isSome || result.mixin.isSome ||
      result.passphrase.isSome || result.obfuscateDeviceInfo || result.kdfHardness != .unspecified

/-- `pages * page_size` in `long`, converted to `size_t`. -/
def availableMemory (P : Platform) : ℕ :=
  (P.sysconfPhysPages * P.sysconfPageSize % (sizeModulus : ℤ)).toNat

def automaticHardness (P : Platform) : KdfHardness :=
  if availableMemory P > cryptoPwhashMemlimitSensitive.toNat * 2 then .high
  else if availableMemory P > cryptoPwhashMemlimitModerate.toNat * 2 then .medium
  else .low

def reportExtraArguments (name : CString) (extra : List CString) : Program Unit :=
  if extra = [] then pure ()
  else record (.diagnostic ⟨"%s: unrecognized argument%s -- ",
    [.string (programBasename name), .text (if extra.length > 1 then "s" else "")] ++
      extra.map .string⟩)

/-- The hardness and the passphrase of an accepted invocation, where they are left open. -/
def supplyDefaults (P : Platform) (result : InvocationState) : Program InvocationState :=
  let result :=
    if result.subcommand = .enrol ∧ result.kdfHardness = .unspecified then
      { result with kdfHardness := automaticHardness P }
    else result
  if (result.subcommand = .enrol ∨ result.subcommand = .generate) ∧ result.passphrase = none then do
    lift (mallocOrExit P (longestValidPassphrase + 1) "passphrase")
    let passphrase ← promptForSecret P (literal "passphrase") longestValidPassphrase
    return { result with passphrase := some passphrase }
  else return result

/-- Checks and defaults once the options are read. -/
def completeInvocation (P : Platform) (name : CString) (operands : List CString)
    (state : InvocationState × Bool) : Program InvocationState := do
  let result := lateSubcommand state.1 operands
  let extra := extraArguments result operands
  reportExtraArguments name extra
  if result.subcommand ≠ .help ∧
      (state.2 || !extra.isEmpty || breaksRequirements result) = true then usageAndExit name
  else supplyDefaults P result

def parseArgumentsAndGetPassphrase (P : Platform) (argv : List CString) :
    Program InvocationState :=
  match argv with
  | [] => throw (.fault "argv[0]")
  | [name] => usageAndExit name
  | name :: command :: _ => do
    lift (mallocOrExit P sizeofInvocationState "invocation state")
    match subcommandOf command with
    | none => usageAndExit name
    | some subcommand => do
      let scan := P.getoptLong argv
      let state ← parseOptions P scan.options ({ subcommand }, false)
      completeInvocation P name scan.operands state

end Khefin
