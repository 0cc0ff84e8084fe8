import Khefin.CommandLines
import Khefin.OptionScanning
import Khefin.ReferencePlatform

/-! # Command lines as they are written

A command line is written with the options of the manual page, and the option scanner of the
C library sees it through the program's own tables. What the loop has gathered when it ends
decides between running and printing the usage. -/

namespace Khefin
open CLibrary ExitingPrograms OptionScanning

/-! ## The options of the program -/

def shortOptions : CString := literal "d:f:p:r:m:k:n:oh"

def longOption (name : String) (takesValue : Bool) (letter : Char) : LongOption UInt8 where
  name := (literal name).bytes
  takesValue := takesValue
  letter := UInt8.ofNat letter.toNat

def longOptions : List (LongOption UInt8) :=
  [longOption "device" true 'd', longOption "file" true 'f', longOption "passphrase" true 'p',
    longOption "passphrase-file" true 'r', longOption "pin" true 'n', longOption "mixin" true 'm',
    longOption "kdf-hardness" true 'k', longOption "obfuscate-device" false 'o',
    longOption "help" false 'h']

def optionTable : Table UInt8 where
  dash := 0x2d
  equals := 0x3d
  letters := markedLetters 0x3a shortOptions.bytes
  long := longOptions
  dash_not_letter := rfl

/-- A question mark stands for an option that is not in the tables. -/
def reportedOption (r : Report UInt8) : ReportedOption where
  c := (r.letter.map fun x => Char.ofNat x.toNat).getD '?'
  optarg := cString r.value

/-- GNU `getopt_long` with these tables, called until it returns -1. -/
def getoptLong (argv : List CString) : OptionScan where
  options := ((optionTable.scan none (argv.tail.map CString.bytes)).reports).map reportedOption
  operands := ((optionTable.scan none (argv.tail.map CString.bytes)).operands).map cString

/-! ## The options of the manual page -/

inductive Flag | obfuscateDeviceInfo | help
  deriving DecidableEq

inductive ValueOption | device | file | passphrase | passphraseFile | pin | mixin | kdfHardness
  deriving DecidableEq

def Flag.letter : Flag → CString
  | .obfuscateDeviceInfo => literal "o"
  | .help => literal "h"

def Flag.name : Flag → CString
  | .obfuscateDeviceInfo => literal "obfuscate-device-info"
  | .help => literal "help"

def ValueOption.letter : ValueOption → CString
  | .device => literal "d"
  | .file => literal "f"
  | .passphrase => literal "p"
  | .passphraseFile => literal "r"
  | .pin => literal "n"
  | .mixin => literal "m"
  | .kdfHardness => literal "k"

def ValueOption.name : ValueOption → CString
  | .device => literal "device"
  | .file => literal "file"
  | .passphrase => literal "passphrase"
  | .passphraseFile => literal "passphrase-file"
  | .pin => literal "pin"
  | .mixin => literal "mixin"
  | .kdfHardness => literal "kdf-hardness"

/-- Not an option: a word without a leading dash, or the dash alone. -/
def IsStray (word : CString) : Prop := ∀ x body, word.bytes ≠ 0x2d :: x :: body

/-- One argument behind the subcommand: short flags may share a word, with an option that takes a
value at its end, and a value may stand in the word of its option or behind it. -/
inductive WrittenArgument
  | stray (word : CString) (h : IsStray word)
  | flags (first : Flag) (others : List Flag)
  | value (flags : List Flag) (option : ValueOption) (value : CString) (attached : Bool)
      (h : attached = true → value.bytes ≠ [])
  | longFlag (flag : Flag)
  | longValue (option : ValueOption) (value : CString) (attached : Bool)

/-- An occurrence of an option; of a flag, whether its long name was used. -/
inductive Given
  | flag (flag : Flag) (long : Bool)
  | value (option : ValueOption) (value : CString)
  deriving DecidableEq

namespace WrittenArgument

def spelled (flags : List Flag) (rest : CString) : CString :=
  flags.foldr (fun flag word => flag.letter ++ word) rest

def words : WrittenArgument → List CString
  | stray word _ => [word]
  | flags first others => [literal "-" ++ spelled (first :: others) (literal "")]
  | value marks option v true _ => [literal "-" ++ spelled marks (option.letter ++ v)]
  | value marks option v false _ => [literal "-" ++ spelled marks option.letter, v]
  | longFlag flag => [literal "--" ++ flag.name]
  | longValue option v true => [literal "--" ++ option.name ++ literal "=" ++ v]
  | longValue option v false => [literal "--" ++ option.name, v]

def given : WrittenArgument → List Given
  | stray _ _ => []
  | flags first others => (first :: others).map fun flag => .flag flag false
  | value marks option v _ _ => (marks.map fun flag => .flag flag false) ++ [.value option v]
  | longFlag flag => [.flag flag true]
  | longValue option v _ => [.value option v]

def strays : WrittenArgument → List CString
  | stray word _ => [word]
  | _ => []

end WrittenArgument

def Subcommand.name : Subcommand → CString
  | .unknown => literal ""
  | .help => literal "help"
  | .version => literal "version"
  | .enrol => literal "enrol"
  | .generate => literal "generate"
  | .enumerate => literal "enumerate"

structure CommandLine where
  name : CString
  subcommand : Subcommand
  known : subcommand ≠ .unknown
  arguments : List WrittenArgument

namespace CommandLine

variable (line : CommandLine)

def argv : List CString :=
  line.name :: line.subcommand.name :: line.arguments.flatMap WrittenArgument.words

def given : List Given := line.arguments.flatMap WrittenArgument.given

def strays : List CString := line.arguments.flatMap WrittenArgument.strays

end CommandLine

/-! ## What the scanner reports -/

/-- The letter an occurrence is reported with; the long name of one flag is not in the tables. -/
def Given.reported : Given → ReportedOption
  | .flag .obfuscateDeviceInfo false => ⟨'o', literal ""⟩
  | .flag .obfuscateDeviceInfo true => ⟨'?', literal ""⟩
  | .flag .help _ => ⟨'h', literal ""⟩
  | .value .device v => ⟨'d', v⟩
  | .value .file v => ⟨'f', v⟩
  | .value .passphrase v => ⟨'p', v⟩
  | .value .passphraseFile v => ⟨'r', v⟩
  | .value .pin v => ⟨'n', v⟩
  | .value .mixin v => ⟨'m', v⟩
  | .value .kdfHardness v => ⟨'k', v⟩

def Flag.byte : Flag → UInt8
  | .obfuscateDeviceInfo => 0x6f
  | .help => 0x68

def ValueOption.byte : ValueOption → UInt8
  | .device => 0x64
  | .file => 0x66
  | .passphrase => 0x70
  | .passphraseFile => 0x72
  | .pin => 0x6e
  | .mixin => 0x6d
  | .kdfHardness => 0x6b

@[simp] theorem append_bytes (s s' : CString) : (s ++ s').bytes = s.bytes ++ s'.bytes := rfl

theorem Flag.letter_bytes (flag : Flag) : flag.letter.bytes = [flag.byte] := by
  cases flag <;> rfl

theorem ValueOption.letter_bytes (option : ValueOption) : option.letter.bytes = [option.byte] := by
  cases option <;> rfl

theorem Flag.lookup (flag : Flag) : optionTable.letters.lookup flag.byte = some false := by
  cases flag <;> rfl

theorem ValueOption.lookup (option : ValueOption) :
    optionTable.letters.lookup option.byte = some true := by
  cases option <;> rfl

theorem ValueOption.named (option : ValueOption) :
    optionTable.named option.name.bytes = some ⟨option.name.bytes, true, option.byte⟩ := by
  cases option <;> rfl

/-- The long name of the manual page is longer than the one in the table. -/
theorem Flag.named (flag : Flag) : optionTable.named flag.name.bytes =
    match flag with
    | .obfuscateDeviceInfo => none
    | .help => some ⟨flag.name.bytes, false, flag.byte⟩ := by
  cases flag <;> rfl

theorem Flag.name_spec (flag : Flag) :
    flag.name.bytes ≠ [] ∧ optionTable.equals ∉ flag.name.bytes := by
  cases flag <;> decide

theorem ValueOption.name_spec (option : ValueOption) :
    option.name.bytes ≠ [] ∧ optionTable.equals ∉ option.name.bytes := by
  cases option <;> decide

namespace WrittenArgument

/-- The same argument for the scanner. -/
def scanned : WrittenArgument → Spelling UInt8
  | stray word _ => .operand word.bytes
  | flags first others => .letters first.byte (others.map Flag.byte)
  | value marks option v attached _ =>
    .letterValue (marks.map Flag.byte) option.byte v.bytes attached
  | longFlag flag => .longName flag.name.bytes
  | longValue option v attached => .longValue option.name.bytes v.bytes attached

theorem spelled_bytes (marks : List Flag) (rest : CString) :
    (spelled marks rest).bytes = marks.map Flag.byte ++ rest.bytes := by
  induction marks with
  | nil => rfl
  | cons flag marks ih =>
    change (flag.letter ++ spelled marks rest).bytes = _
    rw [append_bytes, flag.letter_bytes, ih]
    rfl

theorem words_bytes (a : WrittenArgument) :
    a.words.map CString.bytes = a.scanned.words optionTable := by
  have hdash : (literal "-").bytes = [optionTable.dash] := rfl
  have hdashes : (literal "--").bytes = [optionTable.dash, optionTable.dash] := rfl
  have hequals : (literal "=").bytes = [optionTable.equals] := rfl
  have hempty : (literal "").bytes = [] := rfl
  cases a with
  | stray word h => rfl
  | flags first others =>
    simp [words, scanned, Spelling.words, spelled_bytes, hdash, hempty]
  | value marks option v attached h =>
    cases attached <;>
      simp [words, scanned, Spelling.words, spelled_bytes, hdash, option.letter_bytes]
  | longFlag flag => simp [words, scanned, Spelling.words, hdashes]
  | longValue option v attached =>
    cases attached <;> simp [words, scanned, Spelling.words, hdashes, hequals]

theorem read_of_isStray {word : CString} (h : IsStray word) :
    optionTable.read word.bytes = .operand := by
  unfold Table.read
  split
  · next x y body hword =>
    have hx : x ≠ optionTable.dash := by
      rintro rfl
      exact h y body hword
    exact if_pos hx
  · rfl

theorem fits (a : WrittenArgument) : a.scanned.Fits optionTable := by
  have hflags : ∀ marks : List Flag, ∀ x ∈ marks.map Flag.byte,
      optionTable.letters.lookup x = some false := by
    intro marks x hx
    obtain ⟨flag, -, rfl⟩ := List.mem_map.mp hx
    exact flag.lookup
  cases a with
  | stray word h => exact read_of_isStray h
  | flags first others => exact hflags (first :: others)
  | value marks option v attached h => exact ⟨hflags marks, option.lookup, h⟩
  | longFlag flag =>
    refine ⟨flag.name_spec.1, flag.name_spec.2, fun o ho => ?_⟩
    rw [flag.named] at ho
    cases flag with
    | obfuscateDeviceInfo => simp at ho
    | help => rw [← Option.some.inj ho]
  | longValue option v attached =>
    exact ⟨option.name_spec.1, option.name_spec.2, _, option.named, rfl⟩

theorem reported_flag (flag : Flag) :
    reportedOption ⟨some flag.byte, []⟩ = (Given.flag flag false).reported := by
  cases flag <;> rfl

theorem reported_value (option : ValueOption) (v : CString) :
    reportedOption ⟨some option.byte, v.bytes⟩ = (Given.value option v).reported := by
  unfold reportedOption
  rw [cString_self]
  cases option <;> rfl

theorem reported_longFlag (flag : Flag) :
    reportedOption ⟨(optionTable.named flag.name.bytes).map LongOption.letter, []⟩ =
      (Given.flag flag true).reported := by
  rw [flag.named]
  cases flag <;> rfl

theorem reports_scanned (a : WrittenArgument) :
    (a.scanned.reports optionTable).map reportedOption = a.given.map Given.reported := by
  have hflags : ∀ marks : List Flag, (marks.map Flag.byte).map (fun x => reportedOption ⟨some x, []⟩) =
      (marks.map fun flag => Given.flag flag false).map Given.reported := by
    intro marks
    rw [List.map_map, List.map_map]
    exact List.map_congr_left fun flag _ => reported_flag flag
  cases a with
  | stray word h => rfl
  | flags first others =>
    have h := hflags (first :: others)
    simpa [scanned, Spelling.reports, given, Function.comp_def] using h
  | value marks option v attached h =>
    have h := hflags marks
    have hv := reported_value option v
    simp only [scanned, Spelling.reports, given, List.map_append, List.map_map, List.map_cons,
      List.map_nil, Function.comp_def, hv] at h ⊢
    rw [h]
  | longFlag flag =>
    simp only [scanned, Spelling.reports, given, List.map_cons, List.map_nil, reported_longFlag]
  | longValue option v attached =>
    simp only [scanned, Spelling.reports, given, List.map_cons, List.map_nil, option.named,
      Option.map_some, reported_value]

theorem operands_scanned (a : WrittenArgument) : a.scanned.operands.map cString = a.strays := by
  cases a with
  | stray word h => simp [scanned, Spelling.operands, strays]
  | _ => rfl

end WrittenArgument

theorem isStray_of_head {word : CString} (h : word.bytes.head? ≠ some 0x2d) : IsStray word :=
  fun x body hword => h (by rw [hword]; rfl)

theorem Subcommand.isStray_name (s : Subcommand) : IsStray s.name := by
  apply isStray_of_head
  cases s <;> decide

theorem subcommandOf_name {s : Subcommand} (h : s ≠ .unknown) : subcommandOf s.name = some s := by
  cases s <;> first | exact absurd rfl h | rfl

/-- The scanner reports what was given, and the subcommand with the strays behind it. -/
theorem getoptLong_argv (line : CommandLine) :
    getoptLong line.argv =
      ⟨line.given.map Given.reported, line.subcommand.name :: line.strays⟩ := by
  have hwords : (line.arguments.flatMap WrittenArgument.words).map CString.bytes =
      (line.arguments.map WrittenArgument.scanned).flatMap fun a => a.words optionTable := by
    rw [List.map_flatMap, List.flatMap_map]
    exact List.flatMap_congr fun a _ => a.words_bytes
  have hfits : ∀ a ∈ line.arguments.map WrittenArgument.scanned, a.Fits optionTable := by
    intro a ha
    obtain ⟨b, -, rfl⟩ := List.mem_map.mp ha
    exact b.fits
  have hscan : optionTable.scan none (line.argv.tail.map CString.bytes) =
      ⟨line.arguments.flatMap fun a => a.scanned.reports optionTable,
        line.subcommand.name.bytes :: line.arguments.flatMap fun a => a.scanned.operands⟩ := by
    change optionTable.scan none (line.subcommand.name.bytes :: List.map CString.bytes _) = _
    rw [scan_of_operand (WrittenArgument.read_of_isStray line.subcommand.isStray_name), hwords,
      scan_spellings hfits, List.flatMap_map, List.flatMap_map]
  unfold getoptLong
  rw [hscan]
  simp only [List.map_flatMap, List.map_cons, cString_self, CommandLine.given,
    CommandLine.strays, WrittenArgument.reports_scanned, WrittenArgument.operands_scanned]

end Khefin
