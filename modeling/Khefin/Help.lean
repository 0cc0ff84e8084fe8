import Khefin.Invocation

/-! # Version and help -/

namespace Khefin
open CLibrary ExitingPrograms

def appname : String := "khefin"
def appversion : String := "0.6.1"

def printVersion : Program Unit :=
  modify (World.printf ((literal appname).bytes ++ [0x20] ++ (literal appversion).bytes ++ [newline]))

def helpLines : List String := [
  "",
  "help       print this screen and exit.",
  "",
  "version    print version and exit.",
  "",
  "enumerate  show a list of authenticator devices currently connected.",
  "",
  "enrol       create or overwrite <file> with randomly-generated data required",
  "            to produce a secret for the given passphrase.",
  "",
  "generate   generate an HMAC across the data contained in <file>, once it has",
  "           been decrypted with the given passphrase.",
  "",
  "   -d, --device <device>           REQUIRED for enrol. The path to the",
  "                                   authenticator to enrol, e.g. /dev/hidraw0.",
  "                                   This device MUST support the FIDO2",
  "                                   hmac-secret extension (supported by most ",
  "                                   Yubico Security Keys and YubiKeys).",
  "",
  "   -f, --file <file>               REQUIRED for enrol or generate. The file to",
  "                                   write to (for enrol; this file will be",
  "                                   overwritten), or read from (for generate).",
  "",
  "   -p, --passphrase <passphrase>   The passphrase to use. If neither this nor",
  "                                   neither this nor --passphrase-file are",
  "                                   specified, you will be prompted for a",
  "                                   passphrase.",
  "",
  "   -r, --passphrase-file <file>    A file containing the passphrase to use.",
  "                                   Note that the whole file will be used,",
  "                                   including any trailing newline. If",
  "                                   neither this nor --passphrase are",
  "                                   specified, you will be prompted for a",
  "                                   passphrase.",
  "",
  "   -n, --pin <pin>                 The authenticator PIN to use. If not",
  "                                   specified, and your device requires it,",
  "                                   you will be prompted for a PIN.",
  "",
  "   -o, --obfuscate-device-info     If specified for enrol, do not store the.",
  "                                   device vendor and product ID in <file>.",
  "",
  "   -k, --kdf-hardness <hardness>   Specify the complexity of the key derivation",
  "                                   function used to derive a cryptographic key",
  "                                   from <passphrase>. Valid options are high,",
  "                                   medium or low. If not specified, a value",
  "                                   will be chosen automatically based on",
  "                                   total system RAM.",
  "",
  "   -m, --mixin <data>              Combine <data> with the encrypted salt,",
  "                                   so that the returned value depends on it.",
  "                                   Note that setting <data> to an empty",
  "                                   string behaves differently to not using",
  "                                   this argument at all.",
  "",
  "The output of this program on STDOUT (in either enrol or generate mode) will be",
  "a sequence of printable, URL-safe ASCII characters, that depend on the",
  "randomly generated parameters placed in the file, the authenticator device and",
  "the passphrase. This will be followed by a single newline."]

def printHelp (name : CString) : Program Unit := do
  modify (World.printf (usage name))
  modify (World.printf (helpLines.flatMap fun line => (literal line).bytes ++ [newline]))

end Khefin
